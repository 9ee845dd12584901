/-! Binary64 numbers as exact values: a sign, a significand below 2^53 and a power of two. Rounding
to them and their equality use naturals only. One value stands for every NaN. -/
namespace SchemaDrift

def Canonical (significand : Nat) (exponent : Int) : Prop :=
  significand < Nat.pow 2 53 ∧ -1074 ≤ exponent ∧ exponent ≤ 971 ∧
    (Nat.pow 2 52 ≤ significand ∨ exponent = -1074)

instance (significand : Nat) (exponent : Int) : Decidable (Canonical significand exponent) := by
  unfold Canonical; infer_instance

inductive Binary64 where
  | nan
  | infinity (negative : Bool)
  | finite (negative : Bool) (significand : Nat) (exponent : Int)
      (canonical : Canonical significand exponent)
  deriving DecidableEq, Repr

namespace Binary64

def zero (negative : Bool) : Binary64 := .finite negative 0 (-1074) (by decide)

def negate : Binary64 → Binary64
  | .nan => .nan
  | .infinity negative => .infinity (!negative)
  | .finite negative significand exponent canonical =>
    .finite (!negative) significand exponent canonical

def nearestEven (num den : Nat) : Nat :=
  let q := num / den
  let r := num % den
  if 2 * r < den ∨ (2 * r = den ∧ q % 2 = 0) then q else q + 1

/-- A significand that rounding carried to 2^53 takes the next exponent; past the greatest
exponent there is only infinity. -/
def assemble (negative : Bool) (significand : Nat) (exponent : Int) : Binary64 :=
  let carried := significand = Nat.pow 2 53
  let m := if carried then Nat.pow 2 52 else significand
  let e := if carried then exponent + 1 else exponent
  if h : Canonical m e then .finite negative m e h else .infinity negative

def scaled (num den : Nat) (e : Int) : Nat × Nat :=
  (num * Nat.pow 2 (-e).toNat, den * Nat.pow 2 e.toNat)

def unitExponent (num den : Nat) : Int :=
  let e : Int := (num.log2 : Int) - den.log2 - 52
  let (a, b) := scaled num den e
  max (if a < Nat.pow 2 52 * b then e - 1 else e) (-1074)

def ofRatio (negative : Bool) (num den : Nat) : Binary64 :=
  if num = 0 then zero negative
  else
    let e := unitExponent num den
    let (a, b) := scaled num den e
    assemble negative (nearestEven a b) e

def ofInt (i : Int) : Binary64 := ofRatio (i < 0) i.natAbs 1

def decimalLength (n : Nat) : Nat := if n < 10 then 1 else decimalLength (n / 10) + 1

/-- The number `n · 10^k`. Beyond 10^310 and below 10^-400 the answer is known without the power. -/
def ofDecimal (negative : Bool) (n : Nat) (k : Int) : Binary64 :=
  if n = 0 then zero negative
  else
    let size : Int := k + decimalLength n
    if 310 < size then .infinity negative
    else if size < -400 then zero negative
    else ofRatio negative (n * Nat.pow 10 k.toNat) (Nat.pow 10 (-k).toNat)

def magnitude (significand : Nat) (exponent : Int) : Nat × Nat :=
  (significand * Nat.pow 2 exponent.toNat, Nat.pow 2 (-exponent).toNat)

/-- Equality of numbers: NaN equals NaN, and zero has no sign. -/
def sameNumber : Binary64 → Binary64 → Bool
  | .nan, .nan => true
  | .infinity a, .infinity b => a == b
  | .finite a m e _, .finite b n f _ =>
    (m == 0 && n == 0) || (a == b && m == n && e == f)
  | _, _ => false

theorem sameNumberRefl (x : Binary64) : sameNumber x x = true := by
  cases x <;> simp [sameNumber]

theorem sameNumberSymm {x y : Binary64} (h : sameNumber x y = true) : sameNumber y x = true := by
  cases x <;> cases y <;> simp_all [sameNumber]
  grind

end Binary64
end SchemaDrift
