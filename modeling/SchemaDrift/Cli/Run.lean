import SchemaDrift.Cli.Arguments
import SchemaDrift.Config.Toml
import SchemaDrift.Report.Console
import SchemaDrift.Report.Json
import SchemaDrift.Report.Markdown
import SchemaDrift.Report.Review
import SchemaDrift.Report.WorkflowCommand
import SchemaDrift.Source.GitHub
import SchemaDrift.Source.Local

/-! A run of the command line: the configuration, both schema texts, the review, and its report on
every channel that was asked for. What a run needs from outside is given to it. -/
namespace SchemaDrift.Cli

structure Surroundings (m : Type → Type) where
  colors : Bool
  read : String → m (Except FileFault String)
  present : String → m Bool
  write : String → String → m (Except FileFault Unit)
  send : Request → m (Except String Response)
  print : String → m Unit
  warn : String → m Unit
  timestamp : m String

inductive Failure where
  | config (path : String) (error : ConfigError)
  | standardConfig (error : ConfigError)
  | noPath
  | source (error : FetchError)
  | fetch (address : Address) (sourceName : String) (error : FetchError)
  | schema (error : InvalidSchema)
  | write (path : String) (fault : FileFault)
  deriving DecidableEq, Repr

def configFile : String := "schemaguard.toml"

def Failure.message : Failure → String
  | .config path e => "failed to load config " ++ path ++ ": " ++ e.message
  | .standardConfig e => "failed to load " ++ configFile ++ ": " ++ e.message
  | .noPath => "no schema path given; pass --path or set [github].path"
  | .source e => e.message
  | .fetch address name e =>
    "failed to fetch " ++ address.text ++ " from " ++ name ++ ": " ++ e.message
  | .schema e => e.message
  | .write path fault => "failed to write " ++ path ++ ": " ++ fault.message

variable {m : Type → Type} [Monad m]

abbrev Run (m : Type → Type) (α : Type) := ExceptT Failure m α

def fail {α : Type} (f : Failure) : Run m α := ExceptT.mk (pure (.error f))

def orFail {α ε : Type} (cause : ε → Failure) (r : Except ε α) : Run m α :=
  ExceptT.mk (pure (r.mapError cause))

def readConfig (s : Surroundings m) (path : String) (cause : ConfigError → Failure) :
    Run m Config := do
  match ← (s.read path : m _) with
  | .error fault => fail (cause (.file fault))
  | .ok text => orFail cause (Config.parse text)

def loadConfig (s : Surroundings m) (settings : Settings) : Run m Config := do
  match settings.config with
  | some path => readConfig s path (.config path)
  | none =>
    if ← (s.present configFile : m _) then readConfig s configFile .standardConfig
    else
      if settings.verbose then
        s.warn (Console.styled s.colors [.yellow] "No config file found, using defaults" ++ "\n")
      pure .standard

def fetchLocal (s : Surroundings m) (path : String) : Run m LabeledText := do
  let address : Address := ⟨path, none⟩
  let read ← (s.read path : m _)
  let text ← orFail (.fetch address Local.name) (Local.answer none address read)
  pure ⟨address.text, text⟩

def fetchHosted (s : Surroundings m) (g : GitHub) (path revision : String) :
    Run m LabeledText := do
  let address : Address := ⟨path, some revision⟩
  let cause := Failure.fetch address GitHub.name
  let request ← orFail cause (g.request address)
  match ← (s.send request : m _) with
  | .error detail => fail (cause ⟨.network, detail⟩)
  | .ok response =>
    let text ← orFail cause (g.answer address response)
    pure ⟨g.repository.text ++ "@" ++ revision ++ ":" ++ path, text⟩

structure Versions where
  old : LabeledText
  new : LabeledText
  file : String

def fetchVersions (s : Surroundings m) (config : Config) : Command → Run m Versions
  | .diff old new => do
    let before ← fetchLocal s old
    let after ← fetchLocal s new
    pure ⟨before, after, after.label⟩
  | .github repository path base head token => do
    match path.orElse fun _ => config.host.path with
    | none => fail .noPath
    | some path =>
      let g ← orFail .source (GitHub.ofConfig config.host repository token)
      let before ← fetchHosted s g path base
      let after ← match head with
        | some head => fetchHosted s g path head
        | none => fetchLocal s path
      pure ⟨before, after, path⟩

def countsLine (r : Report) : String :=
  Text.decimalText r.summary.breaking ++ " breaking, " ++ Text.decimalText r.summary.dangerous ++
    " dangerous\n"

def printReport (s : Surroundings m) (format : OutputFormat) (file : String) (r : Report) :
    Run m Unit := do
  match format with
  | .console => s.print (Console.render s.colors r)
  | .json => s.print (r.jsonText ++ "\n")
  | .github =>
    s.print (String.join ((WorkflowCommand.lines r file).map (· ++ "\n")))
    s.warn (countsLine r)

def save (s : Surroundings m) (verbose : Bool) (note text : String) :
    Option String → Run m Unit
  | none => pure ()
  | some path => do
    match ← (s.write path text : m _) with
    | .error fault => fail (.write path fault)
    | .ok () =>
      if verbose then s.warn (Console.styled s.colors [.green] note ++ " " ++ path ++ "\n")

def run (s : Surroundings m) (i : Invocation) : Run m Nat := do
  let config ← loadConfig s i.settings
  let standard := config.compareOptions
  let options := { standard with extended := standard.extended || i.settings.extended }
  let versions ← fetchVersions s config i.command
  let timestamp ← (s.timestamp : m _)
  let report ← orFail .schema (Review.review timestamp versions.old versions.new config options)
  printReport s i.settings.format versions.file report
  save s i.settings.verbose "Report saved to:" report.jsonText i.settings.output
  save s i.settings.verbose "Markdown report saved to:" (Markdown.render report)
    i.settings.markdown
  pure (report.exitCode config.failOnDangerous)

def variablesFile : String := ".env"

def isOn (value : String) : Bool := value != "0"

def usesColors (vars : Variables) (terminal : Bool) : Bool :=
  if (vars.lookup "CLICOLOR_FORCE").any isOn then true
  else if (vars.lookup "NO_COLOR").isSome then false
  else terminal && ((vars.lookup "CLICOLOR").map isOn).getD true

/-- The whole program: its exit code, with two for every failure. Colours are as the variables and
the terminal have it, whatever `colors` says. -/
def program (surroundings : Surroundings m) (terminal : Bool) (vars : Variables)
    (arguments : List String) : m Nat := do
  let known := match ← surroundings.read variablesFile with
    | .ok text => loadVariables vars text
    | .error _ => vars
  let s := { surroundings with colors := usesColors known terminal }
  match parse known arguments with
  | .error e =>
    s.warn (e.message ++ "\n")
    pure e.exitCode
  | .ok invocation =>
    match ← run s invocation with
    | .ok code => pure code
    | .error failure =>
      s.warn (Console.styled s.colors [.bold, .red] "error:" ++ " " ++ failure.message ++ "\n")
      pure 2

end SchemaDrift.Cli
