import SchemaDrift.Proofs.Text.Numeral
import SchemaDrift.Proofs.Toml.Strings
import SchemaDrift.Toml.Reader

/-! Values in TOML are read as they were written: strings, truth values, numbers of 63 bits and arrays
of strings. What follows a value is a comma, a bracket or a line end, none of which continues a number
or makes a date of it. -/
namespace SchemaDrift.Toml
open Text

inductive Ends : List Char → Prop where
  | comma (rest : List Char) : Ends (',' :: rest)
  | bracket (rest : List Char) : Ends (']' :: rest)
  | line (rest : List Char) : Ends ('\n' :: rest)

/-- A text of a value that is no array or table; it can stand after blanks. -/
structure Shows (text : List Char) (v : Toml) : Prop where
  starts : ∃ c more, text = c :: more ∧ c ∉ ['[', ']', '\x7b', ' ', '\t', '\n', '\r', '#']
  read {rest : List Char} : Ends rest → scalar? (text ++ rest) = some (v, rest)

section Scalars
variable {s text more rest : List Char} {c : Char} {n : Nat}

theorem stringStart (s : List Char) : ∃ c more, stringForm s = c :: more ∧ (c = '"' ∨ c = '\'') := by
  simp only [stringForm, fenced]
  split_ifs <;> simp

theorem stringShows (s : String) : Shows (stringText s) (.string s) := by
  obtain ⟨c, more, written, quote⟩ := stringStart s.toList
  refine ⟨⟨c, more, written, ?_⟩, fun {rest} ends => ?_⟩
  · rcases quote with rfl | rfl <;> decide
  · have read : string? (stringForm s.toList ++ rest) = some (s.toList, rest) := by
      cases ends <;> exact stringRead (by simp [Stops]) (by simp [Stops])
    rw [stringText, written, List.cons_append] at *
    rcases quote with rfl | rfl <;> simp [scalar?, read]

theorem boolShows (b : Bool) : Shows (if b then "true" else "false").toList (.boolean b) := by
  cases b with
  | false => exact ⟨⟨'f', ['a', 'l', 's', 'e'], by simp, by decide⟩, fun {rest} ends => by simp [scalar?]⟩
  | true => exact ⟨⟨'t', ['r', 'u', 'e'], by simp, by decide⟩, fun {rest} ends => by simp [scalar?]⟩

end Scalars

section Numbers
variable {digits rest : List Char} {n : Nat}

theorem Ends.notDigit (ends : Ends rest) : ∃ c more, rest = c :: more ∧ isDigit c = false ∧
    c ∉ ['-', ':', '_', '.', 'e', 'E', 'x', 'o', 'b'] := by
  cases ends <;> exact ⟨_, _, rfl, by decide, by decide⟩

theorem fixedTaken {width low high : Nat} {cs : List Char} {r : Nat × List Char}
    (fixed : fixed? width low high cs = some r) :
    (cs.take width).length = width ∧ (∀ c ∈ cs.take width, isDigit c = true) ∧
      r.2 = cs.drop width := by
  simp only [fixed?, Option.bind_eq_bind] at fixed
  split_ifs at fixed with short
  obtain ⟨n, read, kept⟩ := Option.bind_eq_some_iff.mp fixed
  split_ifs at kept
  cases kept
  exact ⟨not_not.mp short, (readDecimalIff.mp read).isDigit, rfl⟩

theorem fixedUnmarked {width low high : Nat} {mark : Char} (all : ∀ c ∈ digits, isDigit c = true)
    (ends : Ends rest) (marks : mark = '-' ∨ mark = ':') {r : Nat × List Char}
    (fixed : fixed? width low high (digits ++ rest) = some r) : literal? mark r.2 = none := by
  obtain ⟨e, more, rfl, other, apart⟩ := ends.notDigit
  obtain ⟨long, taken, dropped⟩ := fixedTaken fixed
  have unmarked : ∀ c more, isDigit c = true ∨ c = e → literal? mark (c :: more) = none := by
    rintro c more found
    have differs : mark ≠ c := by
      rintro rfl
      rcases found with digit | rfl
      · rcases marks with rfl | rfl <;> contradiction
      · rcases marks with rfl | rfl <;> simp at apart
    rw [literal?, if_neg differs]
  have inside : width ≤ digits.length := by
    -- A wider field would take in what ends the value, which is no digit.
    by_contra beyond
    have member : e ∈ (digits ++ e :: more).take width := by
      obtain ⟨k, same⟩ : ∃ k, width - digits.length = k + 1 := ⟨width - digits.length - 1, by omega⟩
      rw [List.take_append, same]
      simp
    rw [taken e member] at other
    contradiction
  rw [dropped, List.drop_append_of_le_length inside]
  cases left : digits.drop width with
  | nil => exact unmarked e more (.inr rfl)
  | cons c others =>
    exact unmarked c _ (.inl (all c (List.drop_subset width digits (left ▸ List.mem_cons_self))))

theorem momentNone (all : ∀ c ∈ digits, isDigit c = true) (ends : Ends rest) :
    moment? (digits ++ rest) = none := by
  have date : date? (digits ++ rest) = none := by
    simp only [date?, Option.bind_eq_bind]
    cases year : fixed? 4 0 9999 (digits ++ rest) with
    | none => rfl
    | some r =>
      have unmarked : literal? '-' r.2 = none := fixedUnmarked all ends (.inl rfl) year
      rw [Option.bind_some, unmarked, Option.bind_none]
  have time : time? (digits ++ rest) = none := by
    simp only [time?, Option.bind_eq_bind]
    cases hour : fixed? 2 0 23 (digits ++ rest) with
    | none => rfl
    | some r =>
      have unmarked : literal? ':' r.2 = none := fixedUnmarked all ends (.inr rfl) hour
      rw [Option.bind_some, unmarked, Option.bind_none]
  rw [moment?, date, time]
  rfl

theorem digitRunRead (nonempty : digits ≠ []) (all : ∀ c ∈ digits, isDigit c = true) (ends : Ends rest) :
    digitRun? isDigit (digits ++ rest) = some (digits, rest) := by
  obtain ⟨e, more, rfl, other, apart⟩ := ends.notDigit
  have under : ∀ c ∈ digits, c ≠ '_' := by
    rintro c inside rfl
    exact absurd (all _ inside) (by decide)
  have run : (digits ++ e :: more).takeWhile (fun c => isDigit c || c == '_') = digits := by
    rw [List.takeWhile_append_of_pos (fun c inside => by simp [all c inside]),
      List.takeWhile_cons_of_neg (by simp [other]; rintro rfl; simp at apart), List.append_nil]
  have first : digits.head? ≠ some '_' := fun head => under _ (List.mem_of_head? head) rfl
  have last : digits.getLast? ≠ some '_' := fun last => under _ (List.mem_of_getLast? last) rfl
  have doubled : ('_', '_') ∉ digits.zip digits.tail := fun inside =>
    under '_' (List.of_mem_zip inside).1 rfl
  have kept : digits.filter (· != '_') = digits :=
    List.filter_eq_self.mpr fun c inside => by simpa using under c inside
  simp [digitRun?, run, first, last, nonempty, doubled, kept]

theorem wholeRead (n : Nat) (ends : Ends rest) :
    wholePart? (decimal n ++ rest) = some (decimal n, rest) := by
  have run := digitRunRead (numeralSome 10 n) (digitsOfDecimal n) ends
  have first := decimalFirst n
  simp only [wholePart?, decimal] at *
  simp only [run, Option.bind_eq_bind, Option.bind_some]
  rw [if_neg fun zero => zero.2 (first zero.1)]

theorem integerRead (bounded : (int64? n).isSome) (ends : Ends rest) :
    wholeOrFraction? false (decimal n ++ rest) = some (.integer n, rest) := by
  have kept : inInt64 n = some (n : Int) := by
    obtain ⟨w, word⟩ := Option.isSome_iff_exists.mp bounded
    rw [inInt64, word, Option.map_some]
  have whole := wholeRead n ends
  cases ends <;>
    simp [wholeOrFraction?, whole, decimalRead, kept]

theorem signNone {c : Char} {more : List Char} (digit : isDigit c = true) :
    sign (c :: more) = (false, c :: more) := by
  unfold sign
  split
  case h_1 same =>
    cases same
    contradiction
  case h_2 same =>
    cases same
    contradiction
  case h_3 => rfl

theorem markApart (nonempty : digits ≠ []) (all : ∀ c ∈ digits, isDigit c = true) (ends : Ends rest)
    {first mark : Char} {more : List Char} (same : digits ++ rest = first :: mark :: more) :
    mark ∉ ['x', 'o', 'b'] := by
  obtain ⟨e, after, rfl, -, apart⟩ := ends.notDigit
  match digits, nonempty, same with
  | [c], _, same =>
    cases same
    simp at apart ⊢
    tauto
  | c :: d :: others, _, same =>
    cases same
    have digit : isDigit mark = true := all mark (by simp)
    intro special
    simp only [List.mem_cons, List.not_mem_nil, or_false] at special
    rcases special with rfl | rfl | rfl <;> contradiction

theorem numberRead (bounded : (int64? n).isSome) (ends : Ends rest) :
    number? (decimal n ++ rest) = some (.integer n, rest) := by
  have nonempty : decimal n ≠ [] := numeralSome 10 n
  have all := digitsOfDecimal n
  have unmarked {a m : Char} {r : List Char} := @markApart _ _ nonempty all ends a m r
  have read := integerRead bounded ends
  unfold number?
  split
  case h_1 same => exact absurd (unmarked same) (by decide)
  case h_2 same => exact absurd (unmarked same) (by decide)
  case h_3 same => exact absurd (unmarked same) (by decide)
  case h_4 =>
    obtain ⟨c, more, written, digit⟩ := decimalStart n
    rw [written, List.cons_append] at read ⊢
    generalize more ++ rest = tail at read ⊢
    rw [signNone digit]
    split
    case h_1 same =>
      cases same
      contradiction
    case h_2 same =>
      cases same
      contradiction
    case h_3 same =>
      cases same
      exact read

theorem integerShows (bounded : (int64? n).isSome) : Shows (decimal n) (.integer n) := by
  obtain ⟨c, more, written, digit⟩ := decimalStart n
  refine ⟨⟨c, more, written, fun special => ?_⟩, fun {rest} ends => ?_⟩
  · simp only [List.mem_cons, List.not_mem_nil, or_false] at special
    rcases special with rfl | rfl | rfl | rfl | rfl | rfl | rfl | rfl <;> contradiction
  · have moment := momentNone (digitsOfDecimal n) ends
    have read := numberRead bounded ends
    rw [written, List.cons_append] at *
    generalize more ++ rest = tail at *
    unfold scalar?
    split
    case h_1 same =>
      cases same
      contradiction
    case h_2 same =>
      cases same
      contradiction
    case h_3 same =>
      cases same
      rw [if_neg (by rintro (rfl | rfl) <;> contradiction), moment, read]
    case h_4 same => cases same

end Numbers

section Arrays
variable {texts : List (List Char)} {values : List Toml} {text more rest : List Char} {v : Toml}
variable {fuel depth : Nat}

theorem skipLinesAt {c : Char} (solid : c ∉ [' ', '\t', '\n', '\r', '#']) :
    skipLines (c :: more) = c :: more := by
  simp only [List.mem_cons, List.not_mem_nil, or_false, not_or] at solid
  obtain ⟨space, tab, line, back, hash⟩ := solid
  simp [skipLines, skipLinesFrom, isSpace, space, tab, line, back, hash]

theorem Shows.valueRead (shows : Shows text v) (ends : Ends rest) :
    valueFrom? (fuel + 1) depth (text ++ rest) = some (v, rest) := by
  have read := shows.read ends
  obtain ⟨c, more, rfl, apart⟩ := shows.starts
  simp only [List.mem_cons, List.not_mem_nil, or_false, not_or] at apart
  rw [List.cons_append] at *
  unfold valueFrom?
  split
  case h_1 same =>
    cases same
    simp at apart
  case h_2 same =>
    cases same
    simp at apart
  case h_3 => exact read

def afterItem? (fuel depth : Nat) (v : Toml) : Reader (List Toml)
  | ',' :: rest => do
    let (items, rest) ← itemsFrom? (fuel + 1) depth (skipLines rest)
    some (v :: items, rest)
  | ']' :: rest => some ([v], rest)
  | _ => none

theorem Shows.itemRead (shows : Shows text v) (ends : Ends rest) :
    itemsFrom? (fuel + 2) depth (text ++ rest) = afterItem? fuel depth v (skipLines rest) := by
  have read : valueFrom? (fuel + 1) depth (text ++ rest) = some (v, rest) := shows.valueRead ends
  obtain ⟨c, more, rfl, apart⟩ := shows.starts
  rw [List.cons_append] at *
  conv_lhs => unfold itemsFrom?
  split
  case h_1 same =>
    cases same
    simp at apart
  case h_2 =>
    rw [read]
    rfl

def arrayLine (item : List Char) : List Char := "    ".toList ++ item ++ [',', '\n']

theorem skipSpaced (c : Char) (space : c = ' ' ∨ c = '\n') : skipLines (c :: more) = skipLines more := by
  rcases space with rfl | rfl <;> simp [skipLines, skipLinesFrom, isSpace]

theorem Shows.skip (shows : Shows text v) : skipLines (text ++ more) = text ++ more := by
  obtain ⟨c, after, rfl, apart⟩ := shows.starts
  simp only [List.mem_cons, List.not_mem_nil, or_false, not_or] at apart
  exact skipLinesAt (by simp [apart])

theorem skipArrayLine (shows : Shows text v) :
    skipLines (arrayLine text ++ more) = text ++ ',' :: '\n' :: more := by
  have written : arrayLine text ++ more = ' ' :: ' ' :: ' ' :: ' ' :: (text ++ ',' :: '\n' :: more) := by
    simp [arrayLine]
  rw [written, skipSpaced, skipSpaced, skipSpaced, skipSpaced, shows.skip] <;> exact .inl rfl

theorem linesRead (shown : List.Forall₂ Shows texts values) (enough : texts.length < fuel) :
    itemsFrom? fuel depth (skipLines (texts.flatMap arrayLine ++ ']' :: rest)) = some (values, rest) := by
  induction shown generalizing fuel with
  | nil =>
    obtain ⟨fuel, rfl⟩ : ∃ k, fuel = k + 1 := ⟨fuel - 1, by omega⟩
    rw [List.flatMap_nil, List.nil_append, skipLinesAt (by decide), itemsFrom?]
  | @cons text v texts values shows shown ih =>
    rw [List.length_cons] at enough
    obtain ⟨fuel, rfl⟩ : ∃ k, fuel = k + 2 := ⟨fuel - 2, by omega⟩
    rw [List.flatMap_cons, List.append_assoc, skipArrayLine shows, shows.itemRead (.comma _),
      skipLinesAt (by decide), afterItem?, skipSpaced '\n' (.inr rfl), ih (by omega)]
    rfl

theorem linesLength (texts : List (List Char)) : texts.length ≤ (texts.flatMap arrayLine).length := by
  induction texts with
  | nil => exact le_rfl
  | cons text texts ih =>
    rw [List.flatMap_cons, List.length_append, List.length_cons, arrayLine]
    simp only [List.length_append, List.length_cons]
    omega

theorem arrayRead (shown : List.Forall₂ Shows texts values) :
    value? (arrayText texts ++ rest) = some (.array values, rest) := by
  have opens {more : List Char}
      (items : itemsFrom? (2 * more.length + 3) 1 (skipLines more) = some (values, rest)) :
      value? ('[' :: more) = some (.array values, rest) := by
    have limit : ¬ nestingLimit ≤ 0 + 1 := by decide
    rw [value?, List.length_cons, Nat.mul_add, valueFrom?, if_neg limit, items, Option.map_some]
  match texts, values, shown with
  | [], [], _ => exact opens (linesRead .nil (by simp))
  | [text], [v], .cons shows .nil =>
    have written : arrayText [text] ++ rest = '[' :: (text ++ ']' :: rest) := by simp [arrayText]
    rw [written]
    refine opens ?_
    obtain ⟨fuel, enough⟩ : ∃ k, 2 * (text ++ ']' :: rest).length + 3 = k + 2 := ⟨_, rfl⟩
    rw [shows.skip, enough, shows.itemRead (.bracket rest), skipLinesAt (by decide), afterItem?]
  | first :: second :: others, values, shown =>
    have written : arrayText (first :: second :: others) ++ rest =
        '[' :: '\n' :: ((first :: second :: others).flatMap arrayLine ++ ']' :: rest) := by
      rw [arrayText, List.cons_append, List.cons_append, List.append_assoc]
      · rfl
      · exact List.cons_ne_nil _ _
      · exact fun item same => List.cons_ne_nil _ _ (List.cons.inj same).2
    rw [written]
    refine opens ?_
    rw [skipSpaced '\n' (.inr rfl)]
    refine linesRead shown ?_
    have := linesLength (first :: second :: others)
    simp only [List.length_cons, List.length_append] at this ⊢
    omega

end Arrays
end SchemaDrift.Toml
