import SchemaDrift.Text.Numeral
import SchemaDrift.Text.Utf8

/-! Percent-encoding: each octet of a character in the class becomes a percent sign and two digits.
The classes grow from control characters to what a path segment must not hold; characters outside
ASCII belong to all of them. -/
namespace SchemaDrift.Url
open Text

def upperHexDigit (n : Nat) : Char :=
  if n < 10 then Char.ofNat (48 + n) else Char.ofNat (55 + n)

def percentOctet (b : UInt8) : List Char :=
  ['%', upperHexDigit (b.toNat / 16), upperHexDigit (b.toNat % 16)]

def percentEncode (mustEncode : Char → Bool) (s : List Char) : List Char :=
  s.flatMap fun c => if mustEncode c then (utf8Octets c).flatMap percentOctet else [c]

def percentDecode : List Char → List UInt8
  | [] => []
  | '%' :: a :: b :: rest =>
    match hexDigitOf? a, hexDigitOf? b with
    | some x, some y => UInt8.ofNat (16 * x + y) :: percentDecode rest
    | _, _ => utf8Octets '%' ++ percentDecode (a :: b :: rest)
  | c :: rest => utf8Octets c ++ percentDecode rest

def isControl (c : Char) : Bool := c.toNat < 0x20 || 0x7F ≤ c.toNat

def inFragment (c : Char) : Bool := isControl c || [' ', '"', '<', '>', '\x60'].contains c

def inQuery (c : Char) : Bool := isControl c || [' ', '"', '#', '<', '>'].contains c

def inSpecialQuery (c : Char) : Bool := inQuery c || c == '\''

def inPath (c : Char) : Bool := inFragment c || ['#', '?', '\x7b', '\x7d'].contains c

def inUserInfo (c : Char) : Bool :=
  inPath c || ['/', ':', ';', '=', '@', '[', '\\', ']', '^', '|'].contains c

def inSegment (c : Char) : Bool := inPath c || c == '/' || c == '%'

def inSpecialSegment (c : Char) : Bool := inSegment c || c == '\\'

def formEncode (s : List Char) : List Char :=
  s.flatMap fun c =>
    if c.isAlphanum || ['*', '-', '.', '_'].contains c then [c]
    else if c = ' ' then ['+']
    else (utf8Octets c).flatMap percentOctet

end SchemaDrift.Url
