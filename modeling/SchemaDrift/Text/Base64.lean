/-! Base64 with the standard alphabet and padding. Reading is strict: whole groups of four, padding
only in the last, and unused bits zero, so that every octet string has one text. -/
namespace SchemaDrift.Text

def sextetChar (n : Nat) : Char :=
  if n < 26 then Char.ofNat (65 + n)
  else if n < 52 then Char.ofNat (71 + n)
  else if n < 62 then Char.ofNat (n - 4)
  else if n = 62 then '+'
  else '/'

def sextet? (c : Char) : Option Nat :=
  if 'A' ≤ c ∧ c ≤ 'Z' then some (c.toNat - 65)
  else if 'a' ≤ c ∧ c ≤ 'z' then some (c.toNat - 71)
  else if '0' ≤ c ∧ c ≤ '9' then some (c.toNat + 4)
  else if c = '+' then some 62
  else if c = '/' then some 63
  else none

def encodeBase64 : List UInt8 → List Char
  | [] => []
  | [a] => [sextetChar (a.toNat / 4), sextetChar (a.toNat % 4 * 16), '=', '=']
  | [a, b] =>
    [sextetChar (a.toNat / 4), sextetChar (a.toNat % 4 * 16 + b.toNat / 16),
     sextetChar (b.toNat % 16 * 4), '=']
  | a :: b :: c :: rest =>
    sextetChar (a.toNat / 4) :: sextetChar (a.toNat % 4 * 16 + b.toNat / 16) ::
      sextetChar (b.toNat % 16 * 4 + c.toNat / 64) :: sextetChar (c.toNat % 64) :: encodeBase64 rest

def lastOctet? (a b : Nat) : Option (List UInt8) :=
  if b % 16 = 0 then some [UInt8.ofNat (a * 4 + b / 16)] else none

def lastOctets? (a b c : Nat) : Option (List UInt8) :=
  if c % 4 = 0 then some [UInt8.ofNat (a * 4 + b / 16), UInt8.ofNat (b % 16 * 16 + c / 4)] else none

def decodeBase64 : List Char → Option (List UInt8)
  | [] => some []
  | [a, b, '=', '='] => do lastOctet? (← sextet? a) (← sextet? b)
  | [a, b, c, '='] => do lastOctets? (← sextet? a) (← sextet? b) (← sextet? c)
  | a :: b :: c :: d :: rest => do
    let w ← sextet? a
    let x ← sextet? b
    let y ← sextet? c
    let z ← sextet? d
    let octets ← decodeBase64 rest
    some (UInt8.ofNat (w * 4 + x / 16) :: UInt8.ofNat (x % 16 * 16 + y / 4) ::
      UInt8.ofNat (y % 4 * 64 + z) :: octets)
  | _ => none

end SchemaDrift.Text
