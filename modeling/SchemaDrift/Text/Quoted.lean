import SchemaDrift.Text.Hidden
import SchemaDrift.Text.Numeral

/-! Quoted text for people: double quotes around, short escapes for the quote, the backslash and
the common controls, `\u{…}` with lower-case digits for every other hidden character. -/
namespace SchemaDrift.Text

def quotedChar (c : Char) : List Char :=
  if c = '"' then ['\\', '"']
  else if c = '\\' then ['\\', '\\']
  else if c = '\n' then ['\\', 'n']
  else if c = '\t' then ['\\', 't']
  else if c = '\r' then ['\\', 'r']
  else if c.toNat = 0 then ['\\', '0']
  else if isHidden c then ['\\', 'u', '\x7b'] ++ numeral 16 c.toNat ++ ['\x7d']
  else [c]

def quoted (s : String) : String :=
  String.ofList ('"' :: s.toList.flatMap quotedChar ++ ['"'])

end SchemaDrift.Text
