import SchemaDrift.Text.Blank
import SchemaDrift.Text.Numeral
import SchemaDrift.Word

/-! Positions in a schema document as 64-bit line and column, and their text form `line:column`.
Reading allows blanks around both numbers and a plus sign before each. -/
namespace SchemaDrift
open Text

structure Location where
  line : UInt64
  column : UInt64
  deriving DecidableEq, Repr

namespace Location

def text (l : Location) : String :=
  decimalText l.line.toNat ++ ":" ++ decimalText l.column.toNat

def coordinate? (cs : List Char) : Option UInt64 := do
  let n ← readDecimal? (match cs with | '+' :: rest => rest | _ => cs)
  word64? n

def splitColon? (cs : List Char) : Option (List Char × List Char) :=
  match cs.span (· ≠ ':') with
  | (before, _ :: after) => some (before, after)
  | (_, []) => none

def parse? (s : String) : Option Location := do
  let (line, column) ← splitColon? s.toList
  some ⟨← coordinate? (trim line), ← coordinate? (trim column)⟩

def invalidMessage (s : String) : String :=
  "invalid location '" ++ s ++ "', expected <line>:<column>"

end Location
end SchemaDrift
