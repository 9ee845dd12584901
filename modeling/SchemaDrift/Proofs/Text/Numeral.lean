import Mathlib.Data.List.Induction
import Mathlib.Data.Nat.Digits.Defs
import SchemaDrift.Text.Numeral

/-! Laws of numerals. What is written in decimal consists of digits, and reading it gives the number
back. What is read at all are one or more digits, leading zeros included, at their value. -/
namespace SchemaDrift.Text

theorem digitOfDigitChar : ∀ d < 10, isDigit (digitChar d) = true := by decide

theorem digitsOfDecimal (n : Nat) : ∀ c ∈ decimal n, isDigit c = true := by
  induction n using Nat.strongRecOn with
  | ind n ih =>
    unfold decimal numeral
    split
    case isTrue small => simpa using digitOfDigitChar n (by omega)
    case isFalse large =>
      intro c inside
      rcases List.mem_append.mp inside with leading | last
      · exact ih (n / 10) (by omega) c leading
      · rw [List.mem_singleton.mp last]
        exact digitOfDigitChar _ (Nat.mod_lt n (by decide))

section Reading
variable {base : Nat} {digit : Char → Option Nat}

theorem numeralSome (base n : Nat) : numeral base n ≠ [] := by
  unfold numeral
  split <;> simp

theorem numeralFolded (two : 2 ≤ base) (reads : ∀ d < base, digit (digitChar d) = some d) (n : Nat) :
    (numeral base n).foldlM (fun m c => (digit c).map fun d => base * m + d) 0 = some n := by
  induction n using Nat.strongRecOn with
  | ind n ih =>
    unfold numeral
    split
    case isTrue small => simp [reads n (by omega)]
    case isFalse large =>
      have smaller : n / base < n := Nat.div_lt_self (by omega) (by omega)
      have last : n % base < base := Nat.mod_lt n (by omega)
      simp [List.foldlM_append, ih _ smaller, reads _ last, Nat.div_add_mod]

theorem numeralRead (two : 2 ≤ base) (reads : ∀ d < base, digit (digitChar d) = some d) (n : Nat) :
    readDigits? base digit (numeral base n) = some n := by
  have folded := numeralFolded two reads n
  cases written : numeral base n with
  | nil => exact absurd written (numeralSome base n)
  | cons c rest =>
    rw [written] at folded
    exact folded

theorem decimalRead (n : Nat) : readDecimal? (decimal n) = some n :=
  numeralRead (by decide) (by decide) n

theorem decimalLeads {n : Nat} (positive : 0 < n) : (decimal n).head? ≠ some '0' := by
  induction n using Nat.strongRecOn with
  | ind n ih =>
    unfold decimal numeral
    split
    case isTrue small =>
      have leads : ∀ d < 10, 0 < d → digitChar d ≠ '0' := by decide
      simpa using leads n (by omega) positive
    case isFalse large =>
      rw [List.head?_append, Option.or_of_isSome (by simpa using numeralSome 10 _)]
      exact ih (n / 10) (by omega) (by omega)

theorem decimalFirst (n : Nat) : (decimal n).head? = some '0' → (decimal n).length = 1 := by
  intro zero
  have nought : n = 0 := Nat.eq_zero_of_not_pos fun positive => decimalLeads positive zero
  rw [nought, decimal, numeral, if_pos (by decide)]
  rfl

theorem decimalStart (n : Nat) : ∃ c more, decimal n = c :: more ∧ isDigit c = true := by
  obtain ⟨c, more, written⟩ := List.exists_cons_of_ne_nil (numeralSome 10 n)
  exact ⟨c, more, written, digitsOfDecimal n c (by rw [decimal, written]; exact List.mem_cons_self)⟩

end Reading

section Values

def decimalValue (digits : List Char) : Nat :=
  Nat.ofDigits 10 (digits.reverse.map fun c => c.toNat - 48)

structure Denotes (cs : List Char) (n : Nat) : Prop where
  nonempty : cs ≠ []
  digits : ∀ c ∈ cs, '0' ≤ c ∧ c ≤ '9'
  value : decimalValue cs = n

theorem Denotes.isDigit {cs : List Char} {n : Nat} (number : Denotes cs n) :
    ∀ c ∈ cs, isDigit c = true := fun c inside => by
  simp only [Text.isDigit, digitOf?, number.digits c inside, and_self, if_true, Option.isSome_some]

theorem digitOfIff {c : Char} {d : Nat} :
    digitOf? c = some d ↔ ('0' ≤ c ∧ c ≤ '9') ∧ c.toNat - 48 = d := by
  unfold digitOf?
  split
  case isTrue inside => simp [inside]
  case isFalse outside => simp [outside]

theorem decimalValueSnoc (cs : List Char) (c : Char) :
    decimalValue (cs ++ [c]) = 10 * decimalValue cs + (c.toNat - 48) := by
  rw [decimalValue, List.reverse_append, List.reverse_singleton, List.singleton_append, List.map_cons,
    Nat.ofDigits_cons, Nat.add_comm, decimalValue]

theorem decimalFolded {cs : List Char} {n : Nat} :
    cs.foldlM (fun n c => (digitOf? c).map fun d => 10 * n + d) 0 = some n ↔
      (∀ c ∈ cs, '0' ≤ c ∧ c ≤ '9') ∧ decimalValue cs = n := by
  induction cs using List.reverseRecOn generalizing n with
  | nil => simp [decimalValue, Nat.ofDigits_nil]
  | append_singleton cs c ih =>
    rw [List.foldlM_append, decimalValueSnoc, List.forall_mem_append, List.forall_mem_singleton]
    simp only [List.foldlM_cons, List.foldlM_nil, Option.bind_eq_bind, Option.bind_eq_some_iff, ih,
      Option.map_eq_some_iff, digitOfIff]
    grind

theorem readDecimalIff {cs : List Char} {n : Nat} : readDecimal? cs = some n ↔ Denotes cs n := by
  cases cs with
  | nil => exact ⟨fun read => by contradiction, fun number => absurd rfl number.nonempty⟩
  | cons c rest =>
    refine decimalFolded.trans ⟨fun ⟨digits, value⟩ => ⟨List.cons_ne_nil c rest, digits, value⟩, ?_⟩
    exact fun number => ⟨number.digits, number.value⟩

end Values

end SchemaDrift.Text
