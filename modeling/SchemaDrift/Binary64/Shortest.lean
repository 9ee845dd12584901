import SchemaDrift.Binary64
import SchemaDrift.Text.Numeral

/-! The fewest decimal digits that read back as a given positive binary64 number: on the decimal
grids of 1, 2, … 17 digits, the first that has a point among the reals rounding to the number, and
the nearer of its points. Notations differ in how they lay the digits out and where an exact tie
goes; both are parameters. -/
namespace SchemaDrift.Binary64

structure Decimal where
  digits : Nat
  exponent : Int
  deriving DecidableEq, Repr

inductive Tie where
  | up
  | toEven
  deriving DecidableEq, Repr

/-- The reals that round to `m · 2^e`, in quarters of its unit; the ends belong to it exactly when
`m` is even. Below a power of two the gap is half as wide. -/
structure Interval where
  low : Nat
  mid : Nat
  high : Nat
  closed : Bool

def interval (m : Nat) (e : Int) : Interval :=
  ⟨if m = Nat.pow 2 52 ∧ -1074 < e then 4 * m - 1 else 4 * m - 2, 4 * m, 4 * m + 2, m % 2 = 0⟩

def aligned (d : Decimal) (quarters : Nat) (e : Int) : Nat × Nat :=
  (d.digits * Nat.pow 10 d.exponent.toNat * Nat.pow 2 (2 - e).toNat,
   quarters * Nat.pow 2 (e - 2).toNat * Nat.pow 10 (-d.exponent).toNat)

def Interval.contains (i : Interval) (e : Int) (d : Decimal) : Bool :=
  let (x, low) := aligned d i.low e
  let (_, high) := aligned d i.high e
  if i.closed then low ≤ x && x ≤ high else low < x && x < high

def leadingPower (num den : Nat) : Int :=
  let p : Int := (decimalLength num : Int) - decimalLength den
  if den * Nat.pow 10 p.toNat ≤ num * Nat.pow 10 (-p).toNat then p else p - 1

def neighbours (m : Nat) (e q : Int) : Decimal × Decimal :=
  let (num, den) := magnitude m e
  let d := num * Nat.pow 10 (-q).toNat / (den * Nat.pow 10 q.toNat)
  (⟨d, q⟩, ⟨d + 1, q⟩)

def nearer (tie : Tie) (m : Nat) (e : Int) (below above : Decimal) : Decimal :=
  let (x, mid) := aligned below (4 * m) e
  let (y, _) := aligned above (4 * m) e
  if mid - x < y - mid then below
  else if y - mid < mid - x then above
  else match tie with
    | .up => above
    | .toEven => if below.digits % 2 = 0 then below else above

def onGrid (tie : Tie) (m : Nat) (e q : Int) : Option Decimal :=
  let i := interval m e
  let (below, above) := neighbours m e q
  match i.contains e below, i.contains e above with
  | true, true => some (nearer tie m e below above)
  | true, false => some below
  | false, true => some above
  | false, false => none

def stripZeros (d : Decimal) : Decimal :=
  if h : d.digits ≠ 0 ∧ d.digits % 10 = 0 then stripZeros ⟨d.digits / 10, d.exponent + 1⟩ else d
termination_by d.digits
decreasing_by exact Nat.div_lt_self (by omega) (by omega)

def shortest (tie : Tie) (m : Nat) (e : Int) : Decimal :=
  let (num, den) := magnitude m e
  let p := leadingPower num den
  let hit := (List.range 17).findSome? fun (n : Nat) => onGrid tie m e (p - n)
  stripZeros (hit.getD (neighbours m e (p - 16)).1)

end SchemaDrift.Binary64
