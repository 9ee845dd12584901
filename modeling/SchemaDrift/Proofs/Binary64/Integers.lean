import SchemaDrift.Binary64

/-! Integers as binary64 numbers. The number that an integer rounds to may be the same for several
integers, but it represents at most one of them, and every integer of at most 2^53 in size. -/
namespace SchemaDrift.Binary64

theorem sameNumberTrans {x y z : Binary64} (first : sameNumber x y = true)
    (second : sameNumber y z = true) : sameNumber x z = true := by
  cases x <;> cases y <;> cases z <;> simp_all [sameNumber]
  grind

/- The number is the integer, without rounding; zero has either sign. -/
def Represents : Binary64 → Int → Prop
  | .finite negative significand exponent _, i =>
    (magnitude significand exponent).1 = i.natAbs * (magnitude significand exponent).2 ∧
      (i = 0 ∨ negative = decide (i < 0))
  | _, _ => False

theorem unitsPositive (significand : Nat) (exponent : Int) : 0 < (magnitude significand exponent).2 :=
  Nat.pow_pos (by decide)

theorem representsOne {x y : Binary64} {i j : Int} (same : sameNumber x y = true)
    (left : x.Represents i) (right : y.Represents j) : i = j := by
  cases x <;> cases y <;> try contradiction
  case finite.finite a m e _ b n f _ =>
    have zero : ∀ {exponent : Int} {k : Int},
        (magnitude 0 exponent).1 = k.natAbs * (magnitude 0 exponent).2 → k = 0 := by
      intro exponent k units
      have product : k.natAbs * (magnitude 0 exponent).2 = 0 := units.symm.trans (Nat.zero_mul _)
      have positive := unitsPositive 0 exponent
      rcases Nat.mul_eq_zero.mp product with absent | absent <;> omega
    simp only [sameNumber, Bool.or_eq_true, Bool.and_eq_true, beq_iff_eq] at same
    rcases same with ⟨rfl, rfl⟩ | ⟨⟨rfl, rfl⟩, rfl⟩
    · rw [zero left.1, zero right.1]
    · have size : i.natAbs = j.natAbs :=
        Nat.eq_of_mul_eq_mul_right (unitsPositive m e) (left.1.symm.trans right.1)
      rcases left.2 with zero | sign
      · omega
      · rcases right.2 with zero | other
        · omega
        · have signs : decide (i < 0) = decide (j < 0) := sign.symm.trans other
          have alike : i < 0 ↔ j < 0 := decide_eq_decide.mp signs
          omega

/- Below 2^53 an integer is a significand shifted to its full width. -/
theorem ratioShifted {n k : Nat} (positive : n ≠ 0) (shift : n.log2 + k = 52) (negative : Bool) :
    ∃ canonical, ofRatio negative n 1 = .finite negative (n * Nat.pow 2 k) (-(k : Int)) canonical := by
  have least : Nat.pow 2 52 ≤ n * Nat.pow 2 k :=
    calc Nat.pow 2 52
      _ = Nat.pow 2 n.log2 * Nat.pow 2 k := shift ▸ Nat.pow_add 2 n.log2 k
      _ ≤ n * Nat.pow 2 k := Nat.mul_le_mul_right _ (Nat.log2_self_le positive)
  have most : n * Nat.pow 2 k < Nat.pow 2 53 :=
    calc n * Nat.pow 2 k
      _ < Nat.pow 2 (n.log2 + 1) * Nat.pow 2 k :=
        Nat.mul_lt_mul_of_pos_right Nat.lt_log2_self (Nat.pow_pos (by decide))
      _ = Nat.pow 2 (n.log2 + 1 + k) := (Nat.pow_add 2 _ k).symm
      _ = Nat.pow 2 53 := congrArg _ (by omega)
  have canonical : Canonical (n * Nat.pow 2 k) (-(k : Int)) := ⟨most, by omega, by omega, .inl least⟩
  have units : scaled n 1 (-(k : Int)) = (n * Nat.pow 2 k, 1) := by
    simp only [scaled, Int.neg_neg, Int.toNat_natCast, Int.toNat_neg_natCast]
  have exponent : unitExponent n 1 = -(k : Int) := by
    have first : (n.log2 : Int) - ((1 : Nat).log2 : Int) - 52 = -(k : Int) := by
      have one : (1 : Nat).log2 = 0 := by decide
      omega
    simp only [unitExponent, first, units, Nat.mul_one, if_neg (Nat.not_lt.mpr least)]
    omega
  have whole : nearestEven (n * Nat.pow 2 k) 1 = n * Nat.pow 2 k := by
    simp [nearestEven, Nat.mod_one]
  refine ⟨canonical, ?_⟩
  simp only [ofRatio, if_neg positive, exponent, units, whole, assemble, if_neg (Nat.ne_of_lt most),
    dif_pos canonical]

theorem ratioCarried : ∀ negative, ofRatio negative (Nat.pow 2 53) 1 =
    .finite negative (Nat.pow 2 52) 1 (by decide) := by
  decide +kernel

theorem ofIntRepresents {i : Int} (small : i.natAbs ≤ Nat.pow 2 53) : (ofInt i).Represents i := by
  by_cases zero : i = 0
  · rw [zero]
    refine ⟨?_, .inl rfl⟩
    rw [Int.natAbs_zero, Nat.zero_mul]
    exact Nat.zero_mul _
  · rcases Nat.eq_or_lt_of_le small with last | below
    · have rounded : ofInt i = .finite (decide (i < 0)) (Nat.pow 2 52) 1 (by decide) := by
        rw [ofInt, last]
        exact ratioCarried _
      rw [rounded, Represents, last]
      exact ⟨rfl, .inr rfl⟩
    · have positive : i.natAbs ≠ 0 := Int.natAbs_ne_zero.mpr zero
      have width : i.natAbs.log2 ≤ 52 := Nat.le_of_lt_succ ((Nat.log2_lt positive).mpr below)
      obtain ⟨canonical, shifted⟩ :=
        ratioShifted positive (Nat.add_sub_cancel' width) (decide (i < 0))
      rw [ofInt, shifted]
      refine ⟨?_, .inr rfl⟩
      simp only [magnitude, Int.neg_neg, Int.toNat_natCast, Int.toNat_neg_natCast]
      exact Nat.mul_one _

end SchemaDrift.Binary64
