import SchemaDrift.Binary64.Notation
import SchemaDrift.Json
import SchemaDrift.Text.Numeral

/-! Writing JSON text, on one line or with two blanks of indent per level. Numbers that are not
finite have no JSON form and are written as null. -/
namespace SchemaDrift.Json
open Text

def controlEscape (n : Nat) : List Char :=
  '\\' :: 'u' :: '0' :: '0' :: digitChar (n / 16) :: [digitChar (n % 16)]

def escapedChar (c : Char) : List Char :=
  if c = '"' then ['\\', '"']
  else if c = '\\' then ['\\', '\\']
  else if c = Char.ofNat 8 then ['\\', 'b']
  else if c = Char.ofNat 12 then ['\\', 'f']
  else if c = '\n' then ['\\', 'n']
  else if c = '\r' then ['\\', 'r']
  else if c = '\t' then ['\\', 't']
  else if c.toNat < 0x20 then controlEscape c.toNat
  else [c]

def stringText (s : String) : List Char := '"' :: s.toList.flatMap escapedChar ++ ['"']

def scalarText : Json → List Char
  | .boolean true => "true".toList
  | .boolean false => "false".toList
  | .integer i => (integerText i).toList
  | .float x => (x.exchange?).getD "null".toList
  | .string s => stringText s
  | _ => "null".toList

mutual
def compactChars : Json → List Char
  | .array items => '[' :: compactItems items ++ [']']
  | .object entries => '\x7b' :: compactEntries entries ++ ['\x7d']
  | j => scalarText j

def compactItems : List Json → List Char
  | [] => []
  | [j] => compactChars j
  | j :: rest => compactChars j ++ ',' :: compactItems rest

def compactEntries : List (String × Json) → List Char
  | [] => []
  | [(key, j)] => stringText key ++ ':' :: compactChars j
  | (key, j) :: rest => stringText key ++ ':' :: compactChars j ++ ',' :: compactEntries rest
end

def newLine (level : Nat) : List Char := '\n' :: List.replicate (2 * level) ' '

mutual
def prettyChars (level : Nat) : Json → List Char
  | .array [] => "[]".toList
  | .array items =>
    '[' :: newLine (level + 1) ++ prettyItems (level + 1) items ++ newLine level ++ [']']
  | .object [] => "\x7b\x7d".toList
  | .object entries =>
    '\x7b' :: newLine (level + 1) ++ prettyEntries (level + 1) entries ++ newLine level ++ ['\x7d']
  | j => scalarText j

def prettyItems (level : Nat) : List Json → List Char
  | [] => []
  | [j] => prettyChars level j
  | j :: rest => prettyChars level j ++ ',' :: newLine level ++ prettyItems level rest

def prettyEntries (level : Nat) : List (String × Json) → List Char
  | [] => []
  | [(key, j)] => stringText key ++ ':' :: ' ' :: prettyChars level j
  | (key, j) :: rest =>
    stringText key ++ ':' :: ' ' :: prettyChars level j ++ ',' :: newLine level ++
      prettyEntries level rest
end

def compact (j : Json) : String := String.ofList (compactChars j)

def pretty (j : Json) : String := String.ofList (prettyChars 0 j)

end SchemaDrift.Json
