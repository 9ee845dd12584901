import Mathlib.Data.List.TakeDrop
import Mathlib.Data.List.TakeWhile
import SchemaDrift.Change.Json
import SchemaDrift.Proofs.Text.Numeral

/-! The texts of positions. What is read are two decimal numbers with the first colon between them,
each with blanks around it and a plus sign or none, and below 2^64; neither digits nor the sign are
blanks, so trimming leaves them alone. The written form is one of these texts, over the whole range. -/
namespace SchemaDrift.Location
open Text

section Digits
variable {cs : List Char}

theorem digitSolid {c : Char} (digit : isDigit c = true) : isBlank c = false := by
  have range : 48 ≤ c.toNat ∧ c.toNat ≤ 57 := by
    simp only [isDigit, digitOf?, Option.isSome_ite] at digit
    exact digit
  rw [isBlank, ← Bool.not_eq_true, List.any_eq_true]
  rintro ⟨r, member, inside⟩
  have apart : ∀ r ∈ blankRanges, r.2 < 48 ∨ 57 < r.1 := by decide
  have := apart r member
  simp only [Bool.and_eq_true, decide_eq_true_eq] at inside
  omega

theorem digitsUnsigned (digits : ∀ c ∈ cs, isDigit c = true) :
    coordinate? cs = (readDecimal? cs).bind word64? := by
  unfold coordinate?
  split
  case h_1 => exact absurd (digits '+' (by simp)) (by decide)
  case h_2 => rfl

end Digits

section Parts

theorem trimAround {left core right : List Char} (before : ∀ c ∈ left, isBlank c = true)
    (solid : ∀ c ∈ core, isBlank c = false) (after : ∀ c ∈ right, isBlank c = true) :
    trim (left ++ core ++ right) = core := by
  have started : trimStart (left ++ core ++ right) = trimStart (core ++ right) := by
    rw [trimStart, List.append_assoc, List.dropWhile_append_of_pos before, trimStart]
  have ended : trimEnd (core ++ right) = core := by
    have blanks : ∀ c ∈ right.reverse, isBlank c = true := by simpa using after
    have others : core.reverse.dropWhile isBlank = core.reverse := by
      cases reversed : core.reverse with
      | nil => rfl
      | cons c rest =>
        have inside : c ∈ core := List.mem_reverse.mp (reversed ▸ List.mem_cons_self)
        exact List.dropWhile_cons_of_neg (by simp [solid c inside])
    rw [trimEnd, List.reverse_append, List.dropWhile_append_of_pos blanks, others,
      List.reverse_reverse]
  rw [trim, started]
  cases core with
  | nil =>
    rw [List.nil_append, trimStart, List.dropWhile_eq_nil_iff.mpr after]
    rfl
  | cons c rest =>
    rw [List.cons_append, trimStart, List.dropWhile_cons_of_neg (by simp [solid c])]
    exact ended

theorem trimmedFrom (cs : List Char) : ∃ left right, cs = left ++ trim cs ++ right ∧
    (∀ c ∈ left, isBlank c = true) ∧ ∀ c ∈ right, isBlank c = true := by
  refine ⟨cs.takeWhile isBlank, ((trimStart cs).reverse.takeWhile isBlank).reverse, ?_,
    fun c => List.mem_takeWhile_imp, fun c inside => ?_⟩
  · rw [List.append_assoc, trim, trimEnd, ← List.reverse_append, List.takeWhile_append_dropWhile,
      List.reverse_reverse, trimStart, List.takeWhile_append_dropWhile]
  · exact List.mem_takeWhile_imp (List.mem_reverse.mp inside)

theorem splitFirst {before after : List Char} (absent : ':' ∉ before) :
    splitColon? (before ++ ':' :: after) = some (before, after) := by
  have others : ∀ c ∈ before, decide (c ≠ ':') = true := fun c member =>
    decide_eq_true fun same => absent (same ▸ member)
  rw [splitColon?, List.span_eq_takeWhile_dropWhile, List.takeWhile_append_of_pos others,
    List.dropWhile_append_of_pos others]
  simp

theorem splitNone {cs : List Char} (absent : ':' ∉ cs) : splitColon? cs = none := by
  have others : ∀ c ∈ cs, decide (c ≠ ':') = true := fun c member =>
    decide_eq_true fun same => absent (same ▸ member)
  rw [splitColon?, List.span_eq_takeWhile_dropWhile, List.dropWhile_eq_nil_iff.mpr others]

theorem splitColonIff {cs before after : List Char} :
    splitColon? cs = some (before, after) ↔ cs = before ++ ':' :: after ∧ ':' ∉ before := by
  refine ⟨fun split => ?_, fun ⟨same, absent⟩ => same ▸ splitFirst absent⟩
  by_cases present : ':' ∈ cs
  · obtain ⟨first, rest, rfl, absent⟩ := List.eq_append_cons_of_mem present
    rw [splitFirst absent] at split
    cases split
    exact ⟨rfl, absent⟩
  · rw [splitNone present] at split
    contradiction

theorem wordIff {n : Nat} {w : UInt64} : word64? n = some w ↔ n = w.toNat := by
  unfold word64?
  split
  case isTrue small =>
    rw [Option.some.injEq, ← UInt64.toNat_inj, UInt64.toNat_ofNat_of_lt' small]
  case isFalse large =>
    refine ⟨fun found => by contradiction, fun same => absurd w.toNat_lt ?_⟩
    rwa [← same]

theorem wordNone {n : Nat} : word64? n = none ↔ UInt64.size ≤ n := by
  simp [word64?]

end Parts

/-- A number as it may be spelled in a position: in decimal, with a plus sign or without, and with
blanks around. -/
inductive Spells : List Char → Nat → Prop where
  | spelled {left sign digits right : List Char} {n : Nat} (before : ∀ c ∈ left, isBlank c = true)
      (signed : sign = [] ∨ sign = ['+']) (number : Denotes digits n)
      (after : ∀ c ∈ right, isBlank c = true) : Spells (left ++ (sign ++ digits) ++ right) n

inductive SpellsPair : List Char → Nat → Nat → Prop where
  | halves {before after : List Char} {m n : Nat} (first : ':' ∉ before) (line : Spells before m)
      (column : Spells after n) : SpellsPair (before ++ ':' :: after) m n

section Coordinates
variable {sign digits part : List Char} {n : Nat}

theorem signedSolid (signed : sign = [] ∨ sign = ['+']) (number : Denotes digits n) :
    ∀ c ∈ sign ++ digits, isBlank c = false := by
  rcases signed with rfl | rfl
  · exact fun c inside => digitSolid (number.isDigit c inside)
  · exact List.forall_mem_cons.mpr ⟨by decide, fun c inside => digitSolid (number.isDigit c inside)⟩

theorem coordinateSigned (signed : sign = [] ∨ sign = ['+']) (number : Denotes digits n) :
    coordinate? (sign ++ digits) = word64? n := by
  have read := readDecimalIff.mpr number
  rcases signed with rfl | rfl
  · rw [List.nil_append, digitsUnsigned number.isDigit, read, Option.bind_some]
  · simp only [coordinate?, List.singleton_append, read, Option.bind_eq_bind, Option.bind_some]

theorem signedCoordinate {cs : List Char} {w : UInt64} (read : coordinate? cs = some w) :
    ∃ sign digits, cs = sign ++ digits ∧ (sign = [] ∨ sign = ['+']) ∧ Denotes digits w.toNat := by
  obtain ⟨n, number, word⟩ := Option.bind_eq_some_iff.mp read
  rw [wordIff.mp word, readDecimalIff] at number
  split at number
  case h_1 rest => exact ⟨['+'], rest, rfl, .inr rfl, number⟩
  case h_2 => exact ⟨[], cs, rfl, .inl rfl, number⟩

theorem coordinateSpelled (spelled : Spells part n) : coordinate? (trim part) = word64? n := by
  obtain ⟨before, signed, number, after⟩ := spelled
  rw [trimAround before (signedSolid signed number) after, coordinateSigned signed number]

theorem spelledCoordinate {w : UInt64} (read : coordinate? (trim part) = some w) :
    Spells part w.toNat := by
  obtain ⟨left, right, same, before, after⟩ := trimmedFrom part
  obtain ⟨sign, digits, core, signed, number⟩ := signedCoordinate read
  rw [same, core]
  exact .spelled before signed number after

end Coordinates

theorem parseSpelled {s : String} {m n : Nat} (spelled : SpellsPair s.toList m n) :
    parse? s = (word64? m).bind fun line => (word64? n).bind fun column => some ⟨line, column⟩ := by
  generalize text : s.toList = cs at spelled
  obtain ⟨first, line, column⟩ := spelled
  simp only [parse?, text, splitFirst first, coordinateSpelled line, coordinateSpelled column,
    Option.bind_eq_bind, Option.bind_some]

theorem parseIff {s : String} {l : Location} :
    parse? s = some l ↔ SpellsPair s.toList l.line.toNat l.column.toNat := by
  constructor
  · intro read
    obtain ⟨⟨before, after⟩, split, read⟩ := Option.bind_eq_some_iff.mp read
    obtain ⟨line, lineRead, read⟩ := Option.bind_eq_some_iff.mp read
    obtain ⟨column, columnRead, same⟩ := Option.bind_eq_some_iff.mp read
    cases same
    obtain ⟨text, first⟩ := splitColonIff.mp split
    rw [text]
    exact .halves first (spelledCoordinate lineRead) (spelledCoordinate columnRead)
  · intro spelled
    rw [parseSpelled spelled, wordIff.mpr rfl, wordIff.mpr rfl]
    rfl

theorem textRead (l : Location) : parse? l.text = some l := by
  have digits (n : Nat) : Denotes (decimal n) n := readDecimalIff.mp (decimalRead n)
  have spelled (n : Nat) : Spells (decimal n) n := by
    simpa using @Spells.spelled [] [] _ [] n (by simp) (.inl rfl) (digits n) (by simp)
  have absent : ':' ∉ decimal l.line.toNat := fun member =>
    absurd (digitsOfDecimal _ _ member) (by decide)
  have written : l.text.toList = decimal l.line.toNat ++ ':' :: decimal l.column.toNat := by
    simp [text, decimalText]
  exact parseIff.mpr (written ▸ .halves absent (spelled _) (spelled _))

theorem parseOverflow {s : String} {m n : Nat} (spelled : SpellsPair s.toList m n)
    (large : UInt64.size ≤ m ∨ UInt64.size ≤ n) : parse? s = none := by
  rw [parseSpelled spelled]
  rcases large with line | column
  · rw [wordNone.mpr line]
    rfl
  · rw [wordNone.mpr column]
    cases word64? m <;> rfl

theorem textsReadExactly :
    (∀ l : Location, parse? l.text = some l) ∧
    (∀ (s : String) (l : Location),
      parse? s = some l ↔ SpellsPair s.toList l.line.toNat l.column.toNat) ∧
    (∀ (s : String) (m n : Nat), SpellsPair s.toList m n → UInt64.size ≤ m ∨ UInt64.size ≤ n →
      parse? s = none) ∧
    ∀ s : String, (∀ l : Location, ¬ SpellsPair s.toList l.line.toNat l.column.toNat) →
      ∃ e, decode (.string s) = .error e ∧
        e.message = "invalid location '" ++ s ++ "', expected <line>:<column>" := by
  refine ⟨textRead, fun _ _ => parseIff, fun _ _ _ => parseOverflow, fun s unspelled => ?_⟩
  have refused : parse? s = none :=
    Option.eq_none_iff_forall_ne_some.mpr fun l read => unspelled l (parseIff.mp read)
  exact ⟨.refused (invalidMessage s), by
    simp only [decode, Json.decodeString, bind, Except.bind, refused], rfl⟩

theorem textsReadExactlyAtLimit :
    SpellsPair " 7\u2003:+018446744073709551616".toList 7 UInt64.size ∧
    parse? " 7\u2003:+018446744073709551616" = none ∧
    parse? " 7\u2003:+018446744073709551615" = some ⟨7, -1⟩ ∧ parse? "7:1:2" = none ∧
    ∃ e, decode (.string "7:1:2") = .error e ∧
      e.message = "invalid location '7:1:2', expected <line>:<column>" := by
  have seven : Spells [' ', '7', '\u2003'] 7 :=
    @Spells.spelled [' '] [] ['7'] ['\u2003'] 7 (List.forall_mem_singleton.mpr (by decide)) (.inl rfl)
      (readDecimalIff.mp (by decide)) (List.forall_mem_singleton.mpr (by decide))
  have spelled {digits : List Char} {n : Nat} (read : readDecimal? digits = some n) :
      SpellsPair ([' ', '7', '\u2003'] ++ ':' :: '+' :: digits) 7 n := by
    refine .halves (by decide) seven ?_
    simpa using @Spells.spelled [] ['+'] _ [] n (by simp) (.inr rfl) (readDecimalIff.mp read) (by simp)
  have beyond : SpellsPair " 7\u2003:+018446744073709551616".toList 7 UInt64.size := by
    simpa using @spelled "018446744073709551616".toList _ (by decide)
  have inside : SpellsPair " 7\u2003:+018446744073709551615".toList 7 (UInt64.size - 1) := by
    simpa using @spelled "018446744073709551615".toList _ (by decide)
  have third : parse? "7:1:2" = none := by decide
  obtain ⟨_, iff, overflow, refusal⟩ := textsReadExactly
  refine ⟨beyond, overflow _ _ _ beyond (.inr le_rfl), (iff _ _).mpr inside, third,
    refusal _ fun l spelled => ?_⟩
  rw [← iff, third] at spelled
  contradiction

end SchemaDrift.Location
