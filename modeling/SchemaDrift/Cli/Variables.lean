import SchemaDrift.Text.Blank

/-! Files of variables: lines `KEY=value`, with quotes, escapes, comments and references to variables
set before. A variable that is set already keeps its value; the first malformed line ends the file. -/
namespace SchemaDrift.Cli
open Text

abbrev Variables := List (String × String)

inductive LineState where
  | complete
  | blank
  | escape
  | weak
  | weakEscape
  | strong
  | strongEscape
  deriving DecidableEq, Repr

def openingState (other : LineState) (c : Char) : LineState :=
  if c = '\\' then .escape
  else if c = '"' then .weak
  else if c = '\'' then .strong
  else other

def LineState.after? (s : LineState) (c : Char) : Option LineState :=
  match s with
  | .blank => if c = '#' then none else some (openingState .complete c)
  | .escape => some .complete
  | .complete =>
    if isBlank c ∧ c ≠ '\n' ∧ c ≠ '\r' then some .blank else some (openingState .complete c)
  | .weak => some (if c = '\\' then .weakEscape else if c = '"' then .complete else .weak)
  | .weakEscape => some .weak
  | .strong => some (if c = '\\' then .strongEscape else if c = '\'' then .complete else .strong)
  | .strongEscape => some .strong

def scanLine (s : LineState) : List Char → List Char × Option LineState
  | [] => ([], some s)
  | c :: cs =>
    match s.after? c with
    | none => ([], none)
    | some t =>
      let (before, last) := scanLine t cs
      (c :: before, last)

def physicalLines : List Char → List (List Char)
  | [] => []
  | '\n' :: cs => ['\n'] :: physicalLines cs
  | c :: cs =>
    match physicalLines cs with
    | [] => [[c]]
    | line :: rest => (c :: line) :: rest

def withoutLineEnd (line : List Char) : List Char :=
  match line.reverse with
  | '\n' :: '\r' :: before => before.reverse
  | '\n' :: before => before.reverse
  | _ => line

def joinedLines (s : LineState) (held : List Char) : List (List Char) → List (Option (List Char))
  | [] => if s = .complete then [] else [none]
  | line :: rest =>
    if (trimStart (held ++ line)).head? = some '#' then some [] :: joinedLines .complete [] rest
    else
      match scanLine s line with
      | (before, none) => some (held ++ before) :: joinedLines .complete [] rest
      | (_, some .complete) => some (withoutLineEnd (held ++ line)) :: joinedLines .complete [] rest
      | (_, some t) => joinedLines t (held ++ line) rest

def isKeyStart (c : Char) : Bool := c.isAlpha || c == '_'

def isKeyChar (c : Char) : Bool := c.isAlphanum || c == '_' || c == '.'

def key? (cs : List Char) : Option (String × List Char) :=
  if cs.head?.any isKeyStart then
    some (String.ofList (cs.takeWhile isKeyChar), trimStart (cs.dropWhile isKeyChar))
  else none

def afterEquals? (cs : List Char) : Option (List Char) :=
  match cs with
  | '=' :: rest => some (trimStart rest)
  | _ => none

def assignment? (cs : List Char) : Option (String × List Char) := do
  let (key, rest) ← key? cs
  match afterEquals? rest with
  | some value => some (key, value)
  | none =>
    if key = "export" then
      let (key, rest) ← key? rest
      some (key, ← afterEquals? rest)
    else none

inductive Reference where
  | unbraced (name : List Char)
  | braced (name : List Char)
  deriving DecidableEq, Repr

structure ValueState where
  output : List Char
  reference : Option Reference
  weak : Bool
  strong : Bool
  escaped : Bool
  ended : Bool

def escapedValue? (c : Char) : Option Char :=
  if ['\\', '\'', '"', '$', ' '].contains c then some c
  else if c = 'n' then some '\n'
  else none

def valueOf (lookup : String → Option String) (name : List Char) : List Char :=
  ((lookup (String.ofList name)).getD "").toList

def ValueState.inReference (lookup : String → Option String) (s : ValueState) (c : Char) :
    Reference → ValueState
  | .braced name =>
    if c = '\x7d' then { s with output := s.output ++ valueOf lookup name, reference := none }
    else { s with reference := some (.braced (name ++ [c])) }
  | .unbraced name =>
    if c.isAlphanum then { s with reference := some (.unbraced (name ++ [c])) }
    else if c = '\x7b' ∧ name = [] then { s with reference := some (.braced []) }
    else
      let output := s.output ++ valueOf lookup name
      if c = '$' then { s with output, reference := some (.unbraced []) }
      else { s with output := output ++ [c], reference := none }

def ValueState.plain (s : ValueState) (c : Char) : ValueState :=
  if c = '$' then { s with reference := some (.unbraced []) }
  else if c = '\\' then { s with escaped := true }
  else if s.weak then if c = '"' then { s with weak := false } else { s with output := s.output ++ [c] }
  else if c = '\'' then { s with strong := true }
  else if c = '"' then { s with weak := true }
  else if c = ' ' ∨ c = '\t' then { s with ended := true }
  else { s with output := s.output ++ [c] }

def readValue (lookup : String → Option String) (s : ValueState) : List Char → Option (List Char)
  | [] =>
    match s.reference with
    | some (.braced _) => none
    | some (.unbraced name) => if s.weak then none else some (s.output ++ valueOf lookup name)
    | none => if s.weak ∨ s.strong then none else some s.output
  | c :: cs =>
    if s.ended then
      if c = ' ' ∨ c = '\t' then readValue lookup s cs
      else if c = '#' then readValue lookup s []
      else none
    else if s.escaped then do
      let e ← escapedValue? c
      readValue lookup { s with output := s.output ++ [e], escaped := false } cs
    else if s.strong then
      if c = '\'' then readValue lookup { s with strong := false } cs
      else readValue lookup { s with output := s.output ++ [c] } cs
    else
      match s.reference with
      | some r => readValue lookup (s.inReference lookup c r) cs
      | none => readValue lookup (s.plain c) cs
termination_by cs => cs.length

def value? (lookup : String → Option String) (cs : List Char) : Option String :=
  if cs = [] ∨ cs.head? = some '#' then some ""
  else (readValue lookup ⟨[], none, false, false, false, false⟩ cs).map String.ofList

/-- Adds the variables of the lines to those that are set. The file's own last values, in `seen`, are
what references fall back to. -/
def setFrom (vars seen : Variables) : List (Option (List Char)) → Variables
  | [] => vars
  | none :: _ => vars
  | some line :: rest =>
    let cs := trim line
    if cs = [] ∨ cs.head? = some '#' then setFrom vars seen rest
    else
      let lookup (name : String) : Option String :=
        (vars.lookup name).orElse fun _ => seen.lookup name
      match (do
        let (key, text) ← assignment? cs
        let value ← value? lookup text
        some (key, value)) with
      | none => vars
      | some (key, value) =>
        let kept := if (vars.lookup key).isSome then vars else (key, value) :: vars
        setFrom kept ((key, value) :: seen) rest

def loadVariables (vars : Variables) (text : String) : Variables :=
  let cs := match text.toList with
    | c :: cs => if c = Char.ofNat 0xFEFF then cs else c :: cs
    | [] => []
  setFrom vars [] (joinedLines .complete [] (physicalLines cs))

end SchemaDrift.Cli
