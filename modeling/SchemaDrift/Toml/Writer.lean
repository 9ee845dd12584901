import SchemaDrift.Toml.Lexical

/-! Writing TOML strings, numbers and arrays of strings. A string takes the plainest form that shows
it without escapes: a quoted line, a literal line, a quoted block, a literal block; else escapes. -/
namespace SchemaDrift.Toml
open Text

def longestRun (c : Char) (s : List Char) : Nat :=
  (s.foldl (fun (r : Nat × Nat) d => if d = c then (r.1 + 1, max r.2 (r.1 + 1)) else (0, r.2))
    (0, 0)).2

def needsCode (c : Char) : Bool := isControl c && c != '\n'

def escapedCode (c : Char) : List Char :=
  let n := c.toNat
  if n = 8 then ['\\', 'b']
  else if n = 9 then ['\\', 't']
  else if n = 10 then ['\\', 'n']
  else if n = 12 then ['\\', 'f']
  else if n = 13 then ['\\', 'r']
  else if n < 0x20 ∨ n = 0x7F then
    ['\\', 'u', '0', '0', (digitChar (n / 16)).toUpper, (digitChar (n % 16)).toUpper]
  else [c]

/-- Escapes for a quoted text. In a block line feeds stay, and of quotes in a row every third one is
escaped. -/
def escapedChars (block : Bool) (quotes : Nat) : List Char → List Char
  | [] => []
  | c :: cs =>
    if c = '"' then
      if block ∧ quotes < 2 then '"' :: escapedChars block (quotes + 1) cs
      else '\\' :: '"' :: escapedChars block 0 cs
    else if c = '\\' then '\\' :: '\\' :: escapedChars block 0 cs
    else if block ∧ c = '\n' then '\n' :: escapedChars block 0 cs
    else escapedCode c ++ escapedChars block 0 cs

def fenced (fence body : List Char) : List Char := fence ++ body ++ fence

def opened (s body : List Char) : List Char := if s.contains '\n' then '\n' :: body else body

def stringForm (s : List Char) : List Char :=
  let newline := s.contains '\n'
  let coded := s.any needsCode
  let backslash := s.contains '\\'
  let doubles := longestRun '"' s
  let singles := longestRun '\'' s
  if !coded ∧ !backslash ∧ doubles = 0 ∧ !newline then fenced ['"'] (escapedChars false 0 s)
  else if !coded ∧ singles = 0 ∧ !newline then fenced ['\''] s
  else if !coded ∧ !backslash ∧ doubles ≤ 2 then
    fenced ['"', '"', '"'] (opened s (escapedChars true 0 s))
  else if !coded ∧ singles ≤ 2 then fenced ['\'', '\'', '\''] (opened s s)
  else if newline then fenced ['"', '"', '"'] (opened s (escapedChars true 0 s))
  else fenced ['"'] (escapedChars false 0 s)

def stringText (s : String) : List Char := stringForm s.toList

def arrayText : List (List Char) → List Char
  | [] => ['[', ']']
  | [item] => '[' :: item ++ [']']
  | items =>
    '[' :: '\n' :: items.flatMap (fun item => "    ".toList ++ item ++ [',', '\n']) ++ [']']

def assignmentText (key : String) (value : List Char) : List Char :=
  key.toList ++ " = ".toList ++ value ++ ['\n']

def headerText (key : String) : List Char := '\n' :: '[' :: key.toList ++ [']', '\n']

end SchemaDrift.Toml
