import SchemaDrift.Json
import SchemaDrift.Text.Numeral
import SchemaDrift.Word

/-! Numbers of JSON text. Whole numbers of 64 bits are exact. All others are built from the first
digits that fit 64 bits and a power of ten, each rounded, and then multiplied or divided once, so
the last digit of a long decimal may not be the nearest one. -/
namespace SchemaDrift.Json
open Text

structure NumberText where
  negative : Bool
  whole : List Char
  fraction : Option (List Char)
  exponent : Option (Bool × List Char)
  deriving Repr

def wordLimit : Nat := UInt64.size

def digitValue (c : Char) : Nat := (digitOf? c).getD 0

def accumulate (value : Nat) : List Char → Nat × List Char
  | [] => (value, [])
  | c :: cs =>
    let next := value * 10 + digitValue c
    if next < wordLimit then accumulate next cs else (value, c :: cs)

def magnitudeOf : Binary64 → Nat × Nat
  | .finite _ m e _ => Binary64.magnitude m e
  | _ => (0, 1)

def isZero (x : Binary64) : Bool := (magnitudeOf x).1 == 0

def times (x y : Binary64) : Binary64 :=
  let (a, b) := magnitudeOf x
  let (c, d) := magnitudeOf y
  Binary64.ofRatio false (a * c) (b * d)

def quotient (x y : Binary64) : Binary64 :=
  let (a, b) := magnitudeOf x
  let (c, d) := magnitudeOf y
  Binary64.ofRatio false (a * d) (b * c)

def powerOfTen (n : Nat) : Binary64 := Binary64.ofDecimal false 1 n

def greatestPower : Nat := 308

def divideByPower (x : Binary64) (n : Nat) : Binary64 :=
  if isZero x then x
  else if n ≤ greatestPower then quotient x (powerOfTen n)
  else divideByPower (quotient x (powerOfTen greatestPower)) (n - greatestPower)
termination_by n
decreasing_by simp only [greatestPower] at *; omega

def fromParts? (significand : Nat) (exponent : Int) : Option Binary64 :=
  let x := Binary64.ofRatio false significand 1
  if exponent < 0 then some (divideByPower x exponent.natAbs)
  else if exponent.toNat ≤ greatestPower then
    match times x (powerOfTen exponent.toNat) with
    | .finite negative m e h => some (.finite negative m e h)
    | _ => none
  else if isZero x then some x
  else none

def exponentLimit : Nat := UInt32.size / 2

def scaledBy? (significand : Nat) (scale : Int) : Option (Bool × List Char) → Option Binary64
  | none => fromParts? significand scale
  | some (negative, digits) =>
    let e := (readDecimal? digits).getD 0
    if exponentLimit ≤ e then
      if significand ≠ 0 ∧ !negative then none else some (Binary64.zero false)
    else fromParts? significand (if negative then scale - e else scale + e)

def signedFloat (negative : Bool) (x : Binary64) : Json :=
  .float (if negative then x.negate else x)

def NumberText.value (t : NumberText) : Json :=
  let (whole, dropped) := accumulate 0 t.whole
  match t.fraction, t.exponent with
  | none, none =>
    if dropped ≠ [] then
      ((fromParts? whole dropped.length).map (signedFloat t.negative)).getD .unusable
    else if !t.negative then .integer whole
    else if 0 < whole ∧ (int64? (-(whole : Int))).isSome then .integer (-(whole : Int))
    else signedFloat true (Binary64.ofRatio false whole 1)
  | fraction, exponent =>
    let digits := fraction.getD []
    let (significand, rest) := accumulate whole digits
    let scale : Int := (dropped.length : Int) - (digits.length - rest.length : Nat)
    ((scaledBy? significand scale exponent).map (signedFloat t.negative)).getD .unusable

end SchemaDrift.Json
