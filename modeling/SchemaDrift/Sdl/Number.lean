import SchemaDrift.Binary64.Notation
import SchemaDrift.Word

/-! Number lexemes of schema documents: which runs of characters are integers or floats, and their
values. An exponent without a sign starts with one of 1 to 8. -/
namespace SchemaDrift.Sdl
open Text

def endsNumber (c : Char) : Bool :=
  " \n\r\t,#!$:=@|&()[]\x7b\x7d".toList.contains c

def wholeNumber? (cs : List Char) : Option (Bool × Nat) :=
  let (negative, digits) := match cs with
    | '-' :: rest => (true, rest)
    | _ => (false, cs)
  match digits with
  | ['0'] => some (negative, 0)
  | '0' :: _ => none
  | _ => (readDecimal? digits).map fun n => (negative, n)

def integer? (cs : List Char) : Option Int64 := do
  let (negative, n) ← wholeNumber? cs
  int64? (if negative then -(n : Int) else n)

def exponentPart? (cs : List Char) : Option Int :=
  match cs with
  | '-' :: digits => (readDecimal? digits).map fun n => -(n : Int)
  | '+' :: digits => (readDecimal? digits).map fun n => (n : Int)
  | c :: _ => if '1' ≤ c ∧ c ≤ '8' then (readDecimal? cs).map fun n => (n : Int) else none
  | [] => none

def splitLast? (p : Char → Bool) (cs : List Char) : Option (List Char × List Char) :=
  let tail := (cs.reverse.takeWhile (!p ·)).reverse
  if tail.length < cs.length then some (cs.take (cs.length - tail.length - 1), tail) else none

def isExponentMark (c : Char) : Bool := c == 'e' || c == 'E'

/-- A float has a point, an exponent or both. A point after the exponent mark makes the exponent
unreadable. -/
def float? (cs : List Char) : Option Binary64 := do
  let (mantissa, power) ← match splitLast? isExponentMark cs with
    | some (mantissa, power) => do some (mantissa, ← exponentPart? power)
    | none => some (cs, 0)
  let (whole, fraction) := (splitLast? (· == '.') mantissa).getD (mantissa, ['0'])
  let (negative, _) ← wholeNumber? whole
  let _ ← readDecimal? fraction
  let n ← readDecimal? (whole.filter (· != '-') ++ fraction)
  some (Binary64.ofDecimal negative n (power - fraction.length))

def isFloat (cs : List Char) : Bool := cs.any fun c => c == '.' || isExponentMark c

end SchemaDrift.Sdl
