/-! Positional numerals: the digits of a natural number in a base up to 16, and reading decimal
and hexadecimal digits back. Signs, bounds and separators belong to the formats that use them. -/
namespace SchemaDrift.Text

def digitChar (d : Nat) : Char :=
  if d < 10 then Char.ofNat (48 + d) else Char.ofNat (87 + d)

/- The base is at least two in every use; below that the digit is written as it stands. -/
def numeral (base n : Nat) : List Char :=
  if n < base ∨ base < 2 then [digitChar n]
  else numeral base (n / base) ++ [digitChar (n % base)]
termination_by n
decreasing_by exact Nat.div_lt_self (by omega) (by omega)

def decimal (n : Nat) : List Char := numeral 10 n

def decimalText (n : Nat) : String := String.ofList (decimal n)

def digitOf? (c : Char) : Option Nat :=
  if '0' ≤ c ∧ c ≤ '9' then some (c.toNat - 48) else none

def hexDigitOf? (c : Char) : Option Nat :=
  if '0' ≤ c ∧ c ≤ '9' then some (c.toNat - 48)
  else if 'a' ≤ c ∧ c ≤ 'f' then some (c.toNat - 87)
  else if 'A' ≤ c ∧ c ≤ 'F' then some (c.toNat - 55)
  else none

def isDigit (c : Char) : Bool := (digitOf? c).isSome

def isHexDigit (c : Char) : Bool := (hexDigitOf? c).isSome

def readDigits? (base : Nat) (digit : Char → Option Nat) : List Char → Option Nat
  | [] => none
  | cs => cs.foldlM (fun n c => (digit c).map fun d => base * n + d) 0

def readDecimal? (cs : List Char) : Option Nat := readDigits? 10 digitOf? cs

def readHex? (cs : List Char) : Option Nat := readDigits? 16 hexDigitOf? cs

def integerText (i : Int) : String :=
  if i < 0 then String.ofList ('-' :: decimal i.natAbs) else decimalText i.natAbs

end SchemaDrift.Text
