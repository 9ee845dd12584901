import SchemaDrift.Location
import SchemaDrift.Sdl.Number
import SchemaDrift.Sdl.StringToken

/-! Tokens of schema documents with the positions where they start. Scanning stops at the first
lexeme that cannot be read, or whose value is bad: nothing after it can matter. At most fifty
brackets may be open. -/
namespace SchemaDrift.Sdl
open Text

inductive Token where
  | mark (symbol : Char)
  | name (text : String)
  | integer (value : Int64)
  | float (value : Binary64)
  | string (value : String)
  deriving DecidableEq, Repr

structure Lexeme where
  start : Location
  token : Token
  deriving DecidableEq, Repr

structure Scan where
  lexemes : List Lexeme
  stop : Location
  complete : Bool
  deriving DecidableEq, Repr

structure Position where
  line : Nat
  column : Nat
  deriving DecidableEq, Repr

def Position.location (p : Position) : Location := ⟨UInt64.ofNat p.line, UInt64.ofNat p.column⟩

def Position.right (p : Position) (columns : Nat) : Position := ⟨p.line, p.column + columns⟩

def Position.nextLine (p : Position) : Position := ⟨p.line + 1, 1⟩

/-- Past the characters of a lexeme: a tab and a carriage return count one inside it. -/
def Position.past (p : Position) (cs : List Char) : Position :=
  cs.foldl (fun q c => if c = '\n' then q.nextLine else q.right 1) p

def isNameStart (c : Char) : Bool :=
  ('a' ≤ c && c ≤ 'z') || ('A' ≤ c && c ≤ 'Z') || c == '_'

def isNameRest (c : Char) : Bool := isNameStart c || isDigit c

def isOpening (c : Char) : Bool := c == '(' || c == '[' || c == '\x7b'

def isClosing (c : Char) : Bool := c == ')' || c == ']' || c == '\x7d'

def isMark (c : Char) : Bool :=
  isOpening c || isClosing c || c == '!' || c == '$' || c == ':' || c == '=' || c == '@' ||
    c == '|' || c == '&'

def numberToken? (cs : List Char) : Option Token :=
  if isFloat cs then (float? cs).map .float else (integer? cs).map .integer

/-- The token at the start of a text and how many characters it has. Three points are a token that
no place admits, so they count as unreadable. -/
def token? (text : List Char) : Option (Token × Nat) :=
  match text with
  | [] => none
  | '"' :: '"' :: '"' :: cs => do
    let n ← blockExtent ' ' cs
    some (.string (String.ofList (blockText (cs.take (n - 3)))), n + 3)
  | '"' :: cs => do
    let n ← quotedExtent false cs
    let value ← unescape (cs.take (n - 1))
    some (.string (String.ofList value), n + 1)
  | c :: cs =>
    if isMark c then some (.mark c, 1)
    else if isNameStart c then
      let rest := cs.takeWhile isNameRest
      some (.name (String.ofList (c :: rest)), rest.length + 1)
    else if c = '-' ∨ isDigit c then
      let rest := cs.takeWhile (!endsNumber ·)
      (numberToken? (c :: rest)).map fun t => (t, rest.length + 1)
    else none

def spend? (budget : Nat) : Token → Option Nat
  | .mark c =>
    if isOpening c then (if budget = 0 then none else some (budget - 1))
    else if isClosing c then some (budget + 1)
    else some budget
  | _ => some budget

def afterSeparator? (place : Position) (c : Char) : Option Position :=
  if c = '\uFEFF' ∨ c = '\r' then some place
  else if c = '\t' then some (place.right 8)
  else if c = '\n' then some place.nextLine
  else if c = ' ' ∨ c = ',' then some (place.right 1)
  else none

def isLineEnd (c : Char) : Bool := c == '\n' || c == '\r'

theorem droppedShorter (n : Nat) (c : Char) (cs : List Char) :
    (cs.drop n).length < (c :: cs).length := by
  simp only [List.length_drop, List.length_cons]; omega

/- A comment takes the character that ends its line, which counts as a new line; one that the end of
the text ends moves nothing. -/
def scanFrom (budget : Nat) (place : Position) : List Char → Scan
  | [] => ⟨[], place.location, true⟩
  | c :: cs =>
    match afterSeparator? place c with
    | some next => scanFrom budget next cs
    | none =>
      if c = '#' then
        let n := (cs.takeWhile (!isLineEnd ·)).length
        if n < cs.length then scanFrom budget place.nextLine (cs.drop (n + 1))
        else ⟨[], place.location, true⟩
      else
        match token? (c :: cs) with
        | none => ⟨[], place.location, false⟩
        | some (token, n) =>
          match spend? budget token with
          | none => ⟨[], place.location, false⟩
          | some left =>
            let rest := scanFrom left (place.past ((c :: cs).take n)) (cs.drop (n - 1))
            { rest with lexemes := ⟨place.location, token⟩ :: rest.lexemes }
termination_by cs => cs.length
decreasing_by
  · simp
  · exact droppedShorter _ c cs
  · exact droppedShorter _ c cs

def bracketBudget : Nat := 50

def scan (text : String) : Scan := scanFrom bracketBudget ⟨1, 1⟩ text.toList

end SchemaDrift.Sdl
