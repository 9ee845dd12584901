import SchemaDrift.Json.Writer
import SchemaDrift.Proofs.Json.Number
import SchemaDrift.Proofs.Ordered

/-! JSON text is read as the tree that it was written from, if every number in it is and it nests no
deeper than readers admit. The text of each value is read up to its end, and needs no more fuel than
twice its length. -/
namespace SchemaDrift.Json
open Text

section Strings
variable {c : Char} {more rest : List Char}

structure UnitOf (text : List Char) (c : Char) (u : StringUnit) : Prop where
  read (more : List Char) :
    stringUnits? (text ++ more) = (stringUnits? more).map fun r => (u :: r.1, r.2)
  shows (us : List StringUnit) : unitText? (u :: us) = (unitText? us).map (c :: ·)

theorem controlRead : ∀ n < 32,
    readHex? ['0', '0', digitChar (n / 16), digitChar (n % 16)] = some n := by
  decide

theorem shortUnit {letter : Char} (escape : shortEscape? letter = some c) (other : letter ≠ 'u') :
    UnitOf ['\\', letter] c (.char c) := by
  refine ⟨fun more => ?_, fun us => rfl⟩
  rw [List.cons_append, List.singleton_append]
  conv_lhs => unfold stringUnits?
  split
  case h_1 same => cases same
  case h_2 same => simp at same
  case h_3 same => exact absurd (List.cons.inj (List.cons.inj same).2).1 other
  case h_4 same =>
    cases same
    rw [escape]
    cases stringUnits? more <;> rfl
  case h_5 alone same =>
    cases same
    exact absurd rfl (alone letter more rfl)

theorem controlUnit (control : c.toNat < 0x20) : UnitOf (controlEscape c.toNat) c (.code c.toNat) := by
  refine ⟨fun more => ?_, fun us => ?_⟩
  · simp only [controlEscape, List.cons_append, List.nil_append, stringUnits?, controlRead _ control,
      Option.bind_eq_bind, Option.bind_some]
    cases stringUnits? more <;> rfl
  · have high : isHighSurrogate c.toNat = false := by simp [isHighSurrogate]; omega
    have low : isLowSurrogate c.toNat = false := by simp [isLowSurrogate]; omega
    rw [unitText?.eq_def]
    simp only [high, low, Bool.false_eq_true, if_false, Char.ofNat_toNat]

theorem plainUnit (quote : c ≠ '"') (mark : c ≠ '\\') (control : ¬ c.toNat < 0x20) :
    UnitOf [c] c (.char c) := by
  refine ⟨fun more => ?_, fun us => rfl⟩
  rw [List.singleton_append]
  conv_lhs => unfold stringUnits?
  split
  case h_1 same => cases same
  case h_2 same => exact absurd (List.cons.inj same).1 quote
  case h_3 same => exact absurd (List.cons.inj same).1 mark
  case h_4 same => exact absurd (List.cons.inj same).1 mark
  case h_5 same =>
    cases same
    rw [if_neg (by simp [control, mark])]
    cases stringUnits? more <;> rfl

theorem charUnit (c : Char) : ∃ u, UnitOf (escapedChar c) c u := by
  simp only [escapedChar]
  split_ifs with quote mark back feed line carriage tab control
  · exact ⟨_, shortUnit (by rw [quote]; rfl) (by decide)⟩
  · exact ⟨_, shortUnit (by rw [mark]; rfl) (by decide)⟩
  · exact ⟨_, shortUnit (by rw [back]; rfl) (by decide)⟩
  · exact ⟨_, shortUnit (by rw [feed]; rfl) (by decide)⟩
  · exact ⟨_, shortUnit (by rw [line]; rfl) (by decide)⟩
  · exact ⟨_, shortUnit (by rw [carriage]; rfl) (by decide)⟩
  · exact ⟨_, shortUnit (by rw [tab]; rfl) (by decide)⟩
  · exact ⟨_, controlUnit control⟩
  · exact ⟨_, plainUnit quote mark control⟩

theorem unitsRead (s rest : List Char) : ∃ units,
    stringUnits? (s.flatMap escapedChar ++ '"' :: rest) = some (units, rest) ∧
      unitText? units = some s := by
  induction s with
  | nil => exact ⟨[], by rw [List.flatMap_nil, List.nil_append, stringUnits?], by rw [unitText?]⟩
  | cons c s ih =>
    obtain ⟨units, read, shows⟩ := ih
    obtain ⟨u, unit⟩ := charUnit c
    refine ⟨u :: units, ?_, by rw [unit.shows, shows, Option.map_some]⟩
    rw [List.flatMap_cons, List.append_assoc, unit.read, read, Option.map_some]

theorem stringTextRead (s : String) (rest : List Char) :
    ∃ body, stringText s ++ rest = '"' :: body ∧ string? body = some (some s, rest) := by
  obtain ⟨units, read, shows⟩ := unitsRead s.toList rest
  refine ⟨s.toList.flatMap escapedChar ++ '"' :: rest, by simp [stringText], ?_⟩
  rw [string?, read]
  simp only [Option.bind_eq_bind, Option.bind_some, shows, Option.map_some, String.ofList_toList]

end Strings

/-- Trees that a text can stand for: every number in them is read back as it was. -/
inductive Exact (reads : Binary64 → Prop) : Json → Prop where
  | null : Exact reads .null
  | boolean (b : Bool) : Exact reads (.boolean b)
  | integer {i : Int} (low : -2 ^ 63 ≤ i) (high : i < 2 ^ 64) : Exact reads (.integer i)
  | float {x : Binary64} (read : reads x) : Exact reads (.float x)
  | string (s : String) : Exact reads (.string s)
  | array {items : List Json} (each : ∀ j ∈ items, Exact reads j) : Exact reads (.array items)
  | object {entries : List (String × Json)} (each : ∀ e ∈ entries, Exact reads e.2) :
    Exact reads (.object entries)

theorem usableItemsIff {items : List Json} : usableItems items = true ↔ ∀ j ∈ items, j.usable = true := by
  induction items with
  | nil => simp [usableItems]
  | cons j rest ih => simp [usableItems, ih]

theorem usableEntriesIff {entries : List (String × Json)} :
    usableEntries entries = true ↔ ∀ e ∈ entries, e.2.usable = true := by
  induction entries with
  | nil => simp [usableEntries]
  | cons e rest ih => simp [usableEntries, ih]

theorem Exact.usable {reads : Binary64 → Prop} {j : Json} (exact : Exact reads j) : j.usable = true := by
  induction exact with
  | array each ih =>
    rw [Json.usable, usableItemsIff]
    exact ih
  | object each ih =>
    rw [Json.usable, usableEntriesIff]
    exact ih
  | _ => rfl

mutual
def depth : Json → Nat
  | .array items => depthOfItems items + 1
  | .object entries => depthOfEntries entries + 1
  | _ => 0

def depthOfItems : List Json → Nat
  | [] => 0
  | j :: rest => max (depth j) (depthOfItems rest)

def depthOfEntries : List (String × Json) → Nat
  | [] => 0
  | (_, j) :: rest => max (depth j) (depthOfEntries rest)
end

def ReadsBack (x : Binary64) : Prop :=
  ∃ digits, x.exchange? = some digits ∧ number? digits = some (.float x, [])

section Trees
variable {j : Json} {items : List Json} {entries : List (String × Json)} {rest : List Char}

inductive EndsValue : List Char → Prop where
  | text : EndsValue []
  | comma (rest : List Char) : EndsValue (',' :: rest)
  | bracket (rest : List Char) : EndsValue (']' :: rest)
  | brace (rest : List Char) : EndsValue ('\x7d' :: rest)

theorem EndsValue.number (ends : EndsValue rest) : EndsNumber rest := by
  cases ends <;> simp [EndsNumber] <;> decide

/-- The text of a value reads back, with enough fuel and in few enough containers. -/
structure Readable (j : Json) : Prop where
  starts : ∃ c more, compactChars j = c :: more ∧ isSpace c = false ∧ c ≠ ']'
  read {fuel level : Nat} {rest : List Char} : 2 * (compactChars j).length ≤ fuel →
    level + depth j ≤ nestingLimit → EndsValue rest →
      valueFrom? fuel level (compactChars j ++ rest) = some (j, rest)

theorem skipSpaceAt {c : Char} {more : List Char} (solid : isSpace c = false) :
    skipSpace (c :: more) = c :: more :=
  List.dropWhile_cons_of_neg (by simp [solid])

theorem numberStart {cs r : List Char} (read : number? cs = some (j, r)) :
    ∃ c more, cs = c :: more ∧ (c = '-' ∨ isDigit c = true) := by
  cases cs with
  | nil => contradiction
  | cons c more =>
    refine ⟨c, more, rfl, ?_⟩
    by_cases minus : c = '-'
    · exact .inl minus
    · unfold number? at read
      simp only [List.cons.injEq, minus, false_and, false_implies, implies_true] at read
      obtain ⟨⟨whole, w⟩, first, -⟩ := Option.bind_eq_some_iff.mp read
      obtain ⟨⟨digits, left⟩, taken, -⟩ := Option.bind_eq_some_iff.mp first
      refine .inr (by_contra fun other => ?_)
      rw [digits1?, List.takeWhile_cons_of_neg other] at taken
      contradiction

theorem startApart {c : Char} {others : List Char} (start : c = '-' ∨ isDigit c = true)
    (minus : '-' ∉ others) (noDigit : others.all (!isDigit ·) = true) : c ∉ others := by
  intro other
  rcases start with rfl | digit
  · exact minus other
  · have apart := List.all_eq_true.mp noDigit c other
    simp [digit] at apart

theorem startSolid {c : Char} (start : c = '-' ∨ isDigit c = true) : isSpace c = false := by
  have apart : c ∉ [' ', '\n', '\t', '\r'] := startApart start (by decide) (by decide)
  simp only [List.mem_cons, not_or] at apart
  simp [isSpace, apart]

theorem numberRead {cs : List Char} (read : number? cs = some (j, [])) (ends : EndsValue rest)
    (fuel level : Nat) : valueFrom? (fuel + 1) level (cs ++ rest) = some (j, rest) := by
  obtain ⟨c, more, rfl, start⟩ := numberStart read
  have followed := numberFollowed ends.number read
  rw [List.nil_append] at followed
  rw [List.cons_append] at followed ⊢
  have apart : c ∉ ['n', 't', 'f', '"', '[', '\x7b'] := startApart start (by decide) (by decide)
  simp only [List.mem_cons, not_or] at apart
  simp [valueFrom?, skipSpaceAt (startSolid start), apart, followed]

theorem wordReadable {word : List Char} (text : compactChars j = word)
    (starts : ∃ c more, word = c :: more ∧ isSpace c = false ∧ c ≠ ']')
    (read : ∀ (fuel level : Nat) (rest : List Char), EndsValue rest →
      valueFrom? (fuel + 1) level (word ++ rest) = some (j, rest)) : Readable j := by
  subst text
  refine ⟨starts, fun {fuel level rest} enough _ ends => ?_⟩
  obtain ⟨c, more, written, -⟩ := starts
  obtain ⟨fuel, rfl⟩ : ∃ k, fuel = k + 1 := ⟨fuel - 1, by rw [written] at enough; simp at enough; omega⟩
  exact read fuel level rest ends

theorem numberReadable {cs : List Char} (text : compactChars j = cs)
    (read : number? cs = some (j, [])) : Readable j := by
  refine wordReadable text ?_ fun fuel level rest ends => numberRead read ends fuel level
  obtain ⟨c, more, written, start⟩ := numberStart read
  have apart : c ∉ [']'] := startApart start (by decide) (by decide)
  exact ⟨c, more, written, startSolid start, List.ne_of_not_mem_cons apart⟩

theorem stringReadable (s : String) : Readable (.string s) := by
  have text : compactChars (.string s) = stringText s := rfl
  refine wordReadable text ⟨'"', _, rfl, by decide, by decide⟩ fun fuel level rest ends => ?_
  obtain ⟨body, written, read⟩ := stringTextRead s rest
  rw [written]
  simp [valueFrom?, skipSpaceAt, isSpace, read]

theorem itemsRead (readable : ∀ j ∈ items, Readable j) (nonempty : items ≠ []) {fuel level : Nat}
    (enough : 2 * (compactItems items).length < fuel)
    (shallow : level + depthOfItems items ≤ nestingLimit) :
    itemsFrom? fuel level (compactItems items ++ ']' :: rest) = some (items, rest) := by
  induction items generalizing fuel with
  | nil => contradiction
  | cons j items ih =>
    obtain ⟨first, others⟩ := List.forall_mem_cons.mp readable
    obtain ⟨fuel, rfl⟩ : ∃ k, fuel = k + 1 := ⟨fuel - 1, by omega⟩
    rw [depthOfItems] at shallow
    cases items with
    | nil =>
      rw [compactItems] at enough ⊢
      have read := first.read (by omega : _ ≤ fuel) (by omega : level + _ ≤ _) (.bracket rest)
      simp [itemsFrom?, read, skipSpaceAt, isSpace]
    | cons k items =>
      have written : compactItems (j :: k :: items) = compactChars j ++ ',' :: compactItems (k :: items) := by
        rw [compactItems]
        simp
      rw [written, List.length_append, List.length_cons] at enough
      have read := first.read (by omega : _ ≤ fuel) (by omega : level + _ ≤ _)
        (.comma (compactItems (k :: items) ++ ']' :: rest))
      have more := ih others (by simp) (by omega : _ < fuel) (by omega)
      rw [written, List.append_assoc, List.cons_append]
      simp [itemsFrom?, read, skipSpaceAt, isSpace, more]

theorem entriesRead (readable : ∀ e ∈ entries, Readable e.2) (nonempty : entries ≠ []) {fuel level : Nat}
    (enough : 2 * (compactEntries entries).length < fuel)
    (shallow : level + depthOfEntries entries ≤ nestingLimit) :
    entriesFrom? fuel level (compactEntries entries ++ '\x7d' :: rest) =
      some (entries.map fun e => (some e.1, e.2), rest) := by
  induction entries generalizing fuel with
  | nil => contradiction
  | cons e entries ih =>
    obtain ⟨key, j⟩ := e
    obtain ⟨first, others⟩ := List.forall_mem_cons.mp readable
    replace first : Readable j := first
    obtain ⟨fuel, rfl⟩ : ∃ k, fuel = k + 1 := ⟨fuel - 1, by omega⟩
    rw [depthOfEntries] at shallow
    cases entries with
    | nil =>
      have written : compactEntries [(key, j)] = stringText key ++ ':' :: compactChars j := rfl
      rw [written, List.length_append, List.length_cons] at enough
      have read := first.read (by omega : _ ≤ fuel) (by omega : level + _ ≤ _) (.brace rest)
      obtain ⟨body, quoted, name⟩ := stringTextRead key (':' :: (compactChars j ++ '\x7d' :: rest))
      rw [written, List.append_assoc, List.cons_append, quoted]
      simp [entriesFrom?, skipSpaceAt, isSpace, name, read]
    | cons f entries =>
      have written : compactEntries ((key, j) :: f :: entries) =
          stringText key ++ ':' :: (compactChars j ++ ',' :: compactEntries (f :: entries)) := by
        rw [compactEntries]
        · simp
        · simp
      rw [written, List.length_append, List.length_cons, List.length_append, List.length_cons] at enough
      have read := first.read (by omega : _ ≤ fuel) (by omega : level + _ ≤ _)
        (.comma (compactEntries (f :: entries) ++ '\x7d' :: rest))
      have more := ih others (by simp) (by omega : _ < fuel) (by omega)
      obtain ⟨body, quoted, name⟩ := stringTextRead key
        (':' :: (compactChars j ++ ',' :: (compactEntries (f :: entries) ++ '\x7d' :: rest)))
      rw [written, List.append_assoc, List.cons_append, List.append_assoc, List.cons_append, quoted]
      simp [entriesFrom?, skipSpaceAt, isSpace, name, read, more]

theorem namedObject (entries : List (String × Json)) :
    objectOf (entries.map fun e => (some e.1, e.2)) = .object entries := by
  have named : (entries.map fun e => (some e.1, e.2)).mapM
      (fun e : Option String × Json => e.1.map fun key => (key, e.2)) = some entries := by
    rw [List.mapM_map]
    exact (Ordered.mapMEach fun e _ => rfl).trans (congrArg some (List.map_id entries))
  rw [objectOf, named]

theorem itemsStart (readable : ∀ j ∈ items, Readable j) (nonempty : items ≠ []) :
    ∃ c more, compactItems items = c :: more ∧ isSpace c = false ∧ c ≠ ']' := by
  match items, nonempty with
  | [j], _ => exact (readable j List.mem_cons_self).starts
  | j :: k :: items, _ =>
    obtain ⟨c, more, written, solid, apart⟩ := (readable j List.mem_cons_self).starts
    refine ⟨c, more ++ ',' :: compactItems (k :: items), ?_, solid, apart⟩
    rw [compactItems, written]
    · rfl
    · simp

theorem arrayReadable (readable : ∀ j ∈ items, Readable j) : Readable (.array items) := by
  have text : compactChars (.array items) = '[' :: (compactItems items ++ [']']) := by
    simp [compactChars]
  refine ⟨⟨'[', _, text, by decide, by decide⟩, fun {fuel level rest} enough shallow _ => ?_⟩
  rw [text, List.length_cons, List.length_append, List.length_singleton] at enough
  rw [depth] at shallow
  obtain ⟨fuel, rfl⟩ : ∃ k, fuel = k + 1 := ⟨fuel - 1, by omega⟩
  have inside : level < nestingLimit := by omega
  rw [text, List.cons_append, List.append_assoc, List.singleton_append]
  by_cases empty : items = []
  · subst empty
    simp [valueFrom?, compactItems, skipSpaceAt, isSpace, inside]
  · have read := @itemsRead _ rest readable empty fuel (level + 1) (by omega) (by omega)
    obtain ⟨c, more, written, solid, apart⟩ := itemsStart readable empty
    rw [written, List.cons_append] at read ⊢
    simp [valueFrom?, skipSpaceAt (by decide : isSpace '[' = false), skipSpaceAt solid, apart, read,
      inside]

theorem entriesStart (nonempty : entries ≠ []) : ∃ more, compactEntries entries = '"' :: more := by
  match entries, nonempty with
  | [(key, j)], _ => exact ⟨_, rfl⟩
  | (key, j) :: f :: entries, _ => exact ⟨_, rfl⟩

theorem objectReadable (readable : ∀ e ∈ entries, Readable e.2) : Readable (.object entries) := by
  have text : compactChars (.object entries) = '\x7b' :: (compactEntries entries ++ ['\x7d']) := by
    simp [compactChars]
  refine ⟨⟨'\x7b', _, text, by decide, by decide⟩, fun {fuel level rest} enough shallow _ => ?_⟩
  rw [text, List.length_cons, List.length_append, List.length_singleton] at enough
  rw [depth] at shallow
  obtain ⟨fuel, rfl⟩ : ∃ k, fuel = k + 1 := ⟨fuel - 1, by omega⟩
  have inside : level < nestingLimit := by omega
  rw [text, List.cons_append, List.append_assoc, List.singleton_append]
  by_cases empty : entries = []
  · subst empty
    simp [valueFrom?, compactEntries, skipSpaceAt, isSpace, inside]
  · have read := @entriesRead _ rest readable empty fuel (level + 1) (by omega) (by omega)
    obtain ⟨more, written⟩ := entriesStart empty
    rw [written, List.cons_append] at read ⊢
    simp [valueFrom?, skipSpaceAt, isSpace, read, inside, namedObject]

theorem Exact.readable (exact : Exact ReadsBack j) : Readable j := by
  induction exact with
  | null =>
    exact @wordReadable .null ['n', 'u', 'l', 'l'] (by simp [compactChars, scalarText])
      ⟨'n', _, rfl, by decide, by decide⟩ fun fuel level rest _ => by
        simp [valueFrom?, skipSpaceAt, isSpace]
  | boolean b =>
    cases b with
    | true =>
      exact @wordReadable _ ['t', 'r', 'u', 'e'] (by simp [compactChars, scalarText])
        ⟨'t', _, rfl, by decide, by decide⟩ fun fuel level rest _ => by
          simp [valueFrom?, skipSpaceAt, isSpace]
    | false =>
      exact @wordReadable _ ['f', 'a', 'l', 's', 'e'] (by simp [compactChars, scalarText])
        ⟨'f', _, rfl, by decide, by decide⟩ fun fuel level rest _ => by
          simp [valueFrom?, skipSpaceAt, isSpace]
  | integer low high => exact numberReadable rfl (integerRead low high)
  | float reads =>
    obtain ⟨digits, written, read⟩ := reads
    exact numberReadable (by simp [compactChars, scalarText, written]) read
  | string s => exact stringReadable s
  | array each ih => exact arrayReadable ih
  | object each ih => exact objectReadable ih

theorem Exact.parsed (exact : Exact ReadsBack j) (shallow : depth j ≤ nestingLimit) :
    parse? j.compact = some j := by
  have read : valueFrom? (2 * (compactChars j).length + 2) 0 (compactChars j ++ []) = some (j, []) :=
    exact.readable.read (by omega) (by omega) .text
  rw [List.append_nil] at read
  simp only [parse?, compact, String.toList_ofList, read, Option.bind_eq_bind, Option.bind_some]
  rfl

end Trees

end SchemaDrift.Json
