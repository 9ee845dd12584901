import SchemaDrift.Cli.Variables

/-! The command line: options for every command, before or after its name, and one of two commands.
Arguments are read in order; a value is judged only when the next argument that needs a place comes,
so of two faults the one that is met first in this sense counts. -/
namespace SchemaDrift.Cli

inductive OutputFormat where
  | console
  | json
  | github
  deriving DecidableEq, Repr

structure Settings where
  config : Option String
  verbose : Bool
  format : OutputFormat
  output : Option String
  markdown : Option String
  extended : Bool
  deriving DecidableEq, Repr

inductive Command where
  | diff (old new : String)
  | github (repository path : Option String) (base : String) (head token : Option String)
  deriving DecidableEq, Repr

structure Invocation where
  settings : Settings
  command : Command
  deriving DecidableEq, Repr

inductive UsageError where
  | help
  | version
  | nothingGiven
  | missingCommand
  | missingRequired
  | unknownArgument
  | unknownCommand
  | invalidValue
  | repeatedOption
  | unneededValue
  deriving DecidableEq, Repr

def UsageError.message : UsageError → String
  | .help => "usage: schemaguard [options] diff OLD NEW | github --base REVISION"
  | .version => "schemaguard 0.1.0"
  | .nothingGiven => "usage: schemaguard [options] diff OLD NEW | github --base REVISION"
  | .missingCommand => "a command is required: diff or github"
  | .missingRequired => "a required argument was not given"
  | .unknownArgument => "unexpected argument"
  | .unknownCommand => "unrecognized command"
  | .invalidValue => "invalid or missing value"
  | .repeatedOption => "an option was given more than once"
  | .unneededValue => "a flag takes no value"

def UsageError.exitCode : UsageError → Nat
  | .help => 0
  | .version => 0
  | _ => 2

inductive Key where
  | config
  | verbose
  | format
  | output
  | markdown
  | extended
  | help
  | version
  | old
  | new
  | repository
  | path
  | base
  | head
  | token
  deriving DecidableEq, Repr

inductive Level where
  | top
  | diff
  | github
  deriving DecidableEq, Repr

def commands : List (String × Level) := [("diff", .diff), ("github", .github)]

def Key.takesValue : Key → Bool
  | .verbose => false
  | .extended => false
  | .help => false
  | .version => false
  | _ => true

def sharedNames : List (String × Key) :=
  [("config", .config), ("verbose", .verbose), ("format", .format), ("output", .output),
   ("markdown", .markdown), ("extended", .extended), ("help", .help)]

def sharedLetters : List (Char × Key) :=
  [('c', .config), ('v', .verbose), ('f', .format), ('o', .output), ('m', .markdown), ('h', .help)]

def Level.names : Level → List (String × Key)
  | .top => sharedNames ++ [("version", .version)]
  | .diff => sharedNames
  | .github =>
    sharedNames ++ [("repo", .repository), ("path", .path), ("base", .base), ("head", .head),
      ("token", .token)]

def Level.letters : Level → List (Char × Key)
  | .top => sharedLetters ++ [('V', .version)]
  | _ => sharedLetters

def Level.places : Level → List Key
  | .diff => [.old, .new]
  | _ => []

def Level.required : Level → List Key
  | .top => []
  | .diff => [.old, .new]
  | .github => [.base]

def formats : List (String × OutputFormat) :=
  [("console", .console), ("json", .json), ("github", .github)]

def Key.accepts (k : Key) (value : String) : Bool :=
  match k with
  | .format => (formats.lookup value).isSome
  | .config => !value.isEmpty
  | .output => !value.isEmpty
  | .markdown => !value.isEmpty
  | .old => !value.isEmpty
  | .new => !value.isEmpty
  | _ => true

/-- What was given at one level: settled values, the option or place that is not settled yet, and how
many places are taken. -/
structure Progress where
  given : List (Key × String)
  pending : Option (Key × Option String)
  placed : Nat
  deriving Repr

def Progress.start : Progress := ⟨[], none, 0⟩

def Progress.awaits (p : Progress) : Bool :=
  match p.pending with
  | some (_, none) => true
  | _ => false

def Progress.add (p : Progress) (k : Key) (value : String) : Except UsageError Progress :=
  if (p.given.lookup k).isSome then .error .repeatedOption
  else if k.accepts value then .ok { p with given := p.given ++ [(k, value)] }
  else .error .invalidValue

def Progress.settle (p : Progress) : Except UsageError Progress :=
  match p.pending with
  | none => .ok p
  | some (_, none) => .error .invalidValue
  | some (k, some value) => { p with pending := none }.add k value

def Progress.flag (p : Progress) (k : Key) : Except UsageError Progress := do
  let q ← p.settle
  match k with
  | .help => .error .help
  | .version => .error .version
  | _ => q.add k "true"

def Progress.option (p : Progress) (k : Key) : Option String → Except UsageError Progress
  | some value => do (← p.settle).add k value
  | none => do .ok { (← p.settle) with pending := some (k, none) }

def Progress.longOption (p : Progress) (level : Level) (name : String) (value : Option String) :
    Except UsageError Progress :=
  match level.names.lookup name with
  | none => .error .unknownArgument
  | some k =>
    if k.takesValue then p.option k value
    else if value.isSome then .error .unneededValue
    else p.flag k

def attached (cs : List Char) : Option String :=
  match cs with
  | [] => none
  | '=' :: rest => some (String.ofList rest)
  | rest => some (String.ofList rest)

def Progress.letters (p : Progress) (level : Level) : List Char → Except UsageError Progress
  | [] => .ok p
  | c :: cs =>
    match level.letters.lookup c with
    | none => .error .unknownArgument
    | some k => if k.takesValue then p.option k (attached cs) else do (← p.flag k).letters level cs

def Progress.place (p : Progress) (level : Level) (plain : Bool) (value : String) :
    Except UsageError Progress :=
  match level.places[p.placed]? with
  | some k => do
    .ok { (← p.settle) with pending := some (k, some value), placed := p.placed + 1 }
  | none =>
    if level = .top ∧ !(plain ∧ ("help" :: commands.map (·.1)).contains value) then
      .error .unknownCommand
    else .error .unknownArgument

def splitLong (cs : List Char) : String × Option String :=
  match cs.span (· ≠ '=') with
  | (name, _ :: value) => (String.ofList name, some (String.ofList value))
  | (name, []) => (String.ofList name, none)

def Progress.take (p : Progress) (level : Level) (argument : String) :
    Except UsageError Progress :=
  match argument.toList with
  | '-' :: '-' :: rest =>
    let (name, value) := splitLong rest
    p.longOption level name value
  | '-' :: c :: rest => p.letters level (c :: rest)
  | _ =>
    match p.pending with
    | some (k, none) => .ok { p with pending := some (k, some argument) }
    | _ => p.place level false argument

def helpFor (arguments : List String) : UsageError :=
  match arguments with
  | [] => .help
  | [name] => if ("help" :: commands.map (·.1)).contains name then .help else .unknownCommand
  | _ => .unknownCommand

inductive LevelEnd where
  | finished
  | command (level : Level) (rest : List String)

def readLevel (level : Level) (plain : Bool) (p : Progress) :
    List String → Except UsageError (Progress × LevelEnd)
  | [] => .ok (p, .finished)
  | argument :: rest =>
    if plain then do readLevel level true (← p.place level true argument) rest
    else if level = .top ∧ !p.awaits ∧ argument = "help" then .error (helpFor rest)
    else
      match (if level = .top ∧ !p.awaits then commands.lookup argument else none) with
      | some command => .ok (p, .command command rest)
      | none =>
        if argument = "--" then readLevel level true p rest
        else do readLevel level false (← p.take level argument) rest

def finishLevel (level : Level) (p : Progress) : Except UsageError Progress := do
  let q ← p.settle
  if level.required.any fun k => (q.given.lookup k).isNone then .error .missingRequired else .ok q

def latest (top command : Progress) (k : Key) : Option String :=
  (command.given.lookup k).orElse fun _ => top.given.lookup k

def settings (top command : Progress) : Settings :=
  { config := latest top command .config
    verbose := (latest top command .verbose).isSome
    format := ((latest top command .format).bind fun name => formats.lookup name).getD .console
    output := latest top command .output
    markdown := latest top command .markdown
    extended := (latest top command .extended).isSome }

def command (vars : Variables) (level : Level) (p : Progress) : Command :=
  let value (k : Key) : String := (p.given.lookup k).getD ""
  match level with
  | .github =>
    .github ((p.given.lookup .repository).orElse fun _ => vars.lookup "GITHUB_REPOSITORY")
      (p.given.lookup .path) (value .base) (p.given.lookup .head)
      ((p.given.lookup .token).orElse fun _ => vars.lookup "GITHUB_TOKEN")
  | _ => .diff (value .old) (value .new)

def parse (vars : Variables) (arguments : List String) : Except UsageError Invocation := do
  let (top, ending) ← readLevel .top false .start arguments
  match ending with
  | .finished =>
    let p ← finishLevel .top top
    if p.given.isEmpty then .error .nothingGiven else .error .missingCommand
  | .command level rest =>
    let (below, _) ← readLevel level false .start rest
    let p ← finishLevel level below
    let q ← finishLevel .top top
    .ok ⟨settings q p, command vars level p⟩

end SchemaDrift.Cli
