import Mathlib.Data.List.TakeWhile
import Mathlib.Tactic.SplitIfs
import SchemaDrift.Json.Reader
import SchemaDrift.Proofs.Text.Numeral

/-! Numbers of JSON text. Reading a number goes on as long as it can, so whatever stands after it and
does not continue it is left; an integer of 64 bits, with a sign or without, is read as it was
written. -/
namespace SchemaDrift.Json
open Text

section Numbers
variable {cs r rest ds : List Char}

def EndsNumber (rest : List Char) : Prop :=
  ∀ c ∈ rest.head?, isDigit c = false ∧ c ∉ ['.', 'e', 'E']

theorem takeDigits (ends : EndsNumber rest) (cs : List Char) :
    (cs ++ rest).takeWhile isDigit = cs.takeWhile isDigit ∧
      (cs ++ rest).dropWhile isDigit = cs.dropWhile isDigit ++ rest := by
  induction cs with
  | nil =>
    cases rest with
    | nil => exact ⟨rfl, rfl⟩
    | cons c more =>
      have other : ¬ isDigit c = true := by simp [(ends c rfl).1]
      rw [List.nil_append, List.takeWhile_cons_of_neg other, List.dropWhile_cons_of_neg other]
      exact ⟨rfl, rfl⟩
  | cons c cs ih =>
    by_cases digit : isDigit c = true
    · rw [List.cons_append, List.takeWhile_cons_of_pos digit, List.takeWhile_cons_of_pos digit,
        List.dropWhile_cons_of_pos digit, List.dropWhile_cons_of_pos digit, ih.1, ih.2]
      exact ⟨rfl, rfl⟩
    · rw [List.cons_append, List.takeWhile_cons_of_neg digit, List.takeWhile_cons_of_neg digit,
        List.dropWhile_cons_of_neg digit, List.dropWhile_cons_of_neg digit]
      exact ⟨rfl, rfl⟩

theorem digitsFollowed (ends : EndsNumber rest) (read : digits1? cs = some (ds, r)) :
    digits1? (cs ++ rest) = some (ds, r ++ rest) := by
  obtain ⟨taken, left⟩ := takeDigits ends cs
  unfold digits1? at read ⊢
  rw [taken, left]
  split at read
  case h_1 => contradiction
  case h_2 digits some =>
    cases read
    rfl

theorem wholeFollowed (ends : EndsNumber rest) (read : whole? cs = some (ds, r)) :
    whole? (cs ++ rest) = some (ds, r ++ rest) := by
  obtain ⟨⟨digits, left⟩, first, kept⟩ := Option.bind_eq_some_iff.mp read
  dsimp only at kept
  split_ifs at kept with zero
  cases kept
  simp only [whole?, digitsFollowed ends first, Option.bind_eq_bind, Option.bind_some, if_neg zero]

theorem fractionFollowed (ends : EndsNumber rest) {f : Option (List Char)}
    (read : fraction? cs = some (f, r)) : fraction? (cs ++ rest) = some (f, r ++ rest) := by
  unfold fraction? at read
  split at read
  case h_1 tail =>
    obtain ⟨⟨digits, left⟩, first, same⟩ := Option.bind_eq_some_iff.mp read
    cases same
    simp only [List.cons_append, fraction?, digitsFollowed ends first, Option.bind_eq_bind,
      Option.bind_some]
  case h_2 other =>
    cases read
    unfold fraction?
    split
    case h_1 tail same =>
      cases cs with
      | nil =>
        rw [List.nil_append] at same
        exact absurd (ends '.' (by rw [same]; rfl)).2 (by simp)
      | cons c cs =>
        rw [List.cons_append] at same
        cases same
        exact absurd rfl (other cs)
    case h_2 => rfl

theorem powerFollowed (ends : EndsNumber rest) {negative : Bool} {e : Option (Bool × List Char)}
    (read : ((digits1? cs).bind fun d => some (some (negative, d.1), d.2)) = some (e, r)) :
    ((digits1? (cs ++ rest)).bind fun d => some (some (negative, d.1), d.2)) = some (e, r ++ rest) := by
  obtain ⟨⟨digits, left⟩, first, same⟩ := Option.bind_eq_some_iff.mp read
  cases same
  rw [digitsFollowed ends first, Option.bind_some]

theorem exponentFollowed (ends : EndsNumber rest) {e : Option (Bool × List Char)}
    (read : exponentPart? cs = some (e, r)) : exponentPart? (cs ++ rest) = some (e, r ++ rest) := by
  cases cs with
  | nil =>
    cases read
    cases rest with
    | nil => rfl
    | cons c more =>
      have apart := (ends c rfl).2
      simp only [List.mem_cons, List.not_mem_nil, or_false, not_or] at apart
      simp [exponentPart?, apart.2.1, apart.2.2]
  | cons c tail =>
    unfold exponentPart? at read ⊢
    rw [List.cons_append]
    dsimp only at read ⊢
    split_ifs at read ⊢ with marked
    · cases tail with
      | nil => contradiction
      | cons d tail =>
        rw [List.cons_append]
        by_cases minus : d = '-'
        · subst minus
          exact powerFollowed ends read
        by_cases plus : d = '+'
        · subst plus
          exact powerFollowed ends read
        · simp only [List.cons.injEq, minus, plus, false_and, false_implies, implies_true] at read ⊢
          exact powerFollowed ends read
    · cases read
      rfl

theorem unsignedFollowed (ends : EndsNumber rest) {negative : Bool} {j : Json}
    (read : ((whole? cs).bind fun w => (fraction? w.2).bind fun f => (exponentPart? f.2).bind fun e =>
      some (NumberText.value ⟨negative, w.1, f.1, e.1⟩, e.2)) = some (j, r)) :
    ((whole? (cs ++ rest)).bind fun w => (fraction? w.2).bind fun f => (exponentPart? f.2).bind fun e =>
      some (NumberText.value ⟨negative, w.1, f.1, e.1⟩, e.2)) = some (j, r ++ rest) := by
  obtain ⟨⟨whole, w⟩, first, read⟩ := Option.bind_eq_some_iff.mp read
  obtain ⟨⟨fraction, f⟩, second, read⟩ := Option.bind_eq_some_iff.mp read
  obtain ⟨⟨exponent, e⟩, third, same⟩ := Option.bind_eq_some_iff.mp read
  cases same
  simp only [wholeFollowed ends first, fractionFollowed ends second, exponentFollowed ends third,
    Option.bind_some]

theorem numberFollowed (ends : EndsNumber rest) {j : Json} (read : number? cs = some (j, r)) :
    number? (cs ++ rest) = some (j, r ++ rest) := by
  cases cs with
  | nil => contradiction
  | cons c tail =>
    rw [List.cons_append]
    unfold number? at read ⊢
    by_cases minus : c = '-'
    · subst minus
      exact unsignedFollowed ends read
    · simp only [List.cons.injEq, minus, false_and, false_implies, implies_true] at read ⊢
      exact unsignedFollowed ends read

theorem digitValues : ∀ d < 10, digitValue (digitChar d) = d := by decide

theorem accumulateThen {v w : Nat} (fits : accumulate v cs = (w, [])) (ds : List Char) :
    accumulate v (cs ++ ds) = accumulate w ds := by
  induction cs generalizing v with
  | nil =>
    cases fits
    rfl
  | cons c cs ih =>
    rw [accumulate] at fits
    rw [List.cons_append, accumulate]
    split_ifs at fits ⊢
    · exact ih fits
    · simp at fits

theorem accumulateDecimal {n : Nat} (below : n < wordLimit) : accumulate 0 (decimal n) = (n, []) := by
  induction n using Nat.strongRecOn with
  | ind n ih =>
    unfold decimal numeral
    split
    case isTrue small =>
      have value := digitValues n (by omega)
      simp [accumulate, value, below]
    case isFalse large =>
      have value := digitValues (n % 10) (Nat.mod_lt n (by decide))
      have whole : n / 10 * 10 + n % 10 = n := by omega
      have before : accumulate 0 (numeral 10 (n / 10)) = (n / 10, []) := ih _ (by omega) (by omega)
      rw [accumulateThen before, accumulate, value, whole, if_pos below, accumulate]

theorem wholeDecimal (n : Nat) : whole? (decimal n) = some (decimal n, []) := by
  have all := digitsOfDecimal n
  have nonempty : decimal n ≠ [] := numeralSome 10 n
  have digits : digits1? (decimal n) = some (decimal n, []) := by
    unfold digits1?
    rw [List.takeWhile_eq_self_iff.mpr all, List.dropWhile_eq_nil_iff.mpr all]
    split
    case h_1 empty => exact absurd empty nonempty
    case h_2 => rfl
  rw [whole?, digits]
  simp only [Option.bind_eq_bind, Option.bind_some]
  rw [if_neg fun zero => zero.2 (decimalFirst n zero.1)]

theorem decimalNumber (negative : Bool) (n : Nat) :
    ((whole? (decimal n)).bind fun w => (fraction? w.2).bind fun f => (exponentPart? f.2).bind fun e =>
      some (NumberText.value ⟨negative, w.1, f.1, e.1⟩, e.2)) =
      some (NumberText.value ⟨negative, decimal n, none, none⟩, []) := by
  rw [wholeDecimal]
  rfl

theorem integerRead {i : Int} (low : -2 ^ 63 ≤ i) (high : i < 2 ^ 64) :
    number? (integerText i).toList = some (.integer i, []) := by
  have limit : wordLimit = 2 ^ 64 := rfl
  have digits : accumulate 0 (decimal i.natAbs) = (i.natAbs, []) := accumulateDecimal (by omega)
  rw [integerText]
  split
  case isTrue negative =>
    have word : (int64? (-(i.natAbs : Int))).isSome = true := by
      have least : Int64.minValue.toInt = -2 ^ 63 := rfl
      have most : Int64.maxValue.toInt = 2 ^ 63 - 1 := rfl
      rw [int64?, Option.isSome_ite, least, most]
      omega
    have positive : 0 < i.natAbs := by omega
    have same : -(i.natAbs : Int) = i := by omega
    have value : NumberText.value ⟨true, decimal i.natAbs, none, none⟩ = .integer i := by
      simp only [NumberText.value, digits]
      rw [if_neg (by simp), if_neg (by simp), if_pos ⟨positive, word⟩, same]
    rw [String.toList_ofList]
    exact (decimalNumber true i.natAbs).trans (by rw [value])
  case isFalse positive =>
    have same : (i.natAbs : Int) = i := by omega
    have value : NumberText.value ⟨false, decimal i.natAbs, none, none⟩ = .integer i := by
      simp [NumberText.value, digits, same]
    rw [decimalText, String.toList_ofList]
    obtain ⟨c, more, written, digit⟩ := decimalStart i.natAbs
    have minus : c ≠ '-' := by
      rintro rfl
      contradiction
    have read := (decimalNumber false i.natAbs).trans (by rw [value])
    rw [written] at read ⊢
    unfold number?
    simp only [List.cons.injEq, minus, false_and, false_implies, implies_true]
    exact read

end Numbers

end SchemaDrift.Json
