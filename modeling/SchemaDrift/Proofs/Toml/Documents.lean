import SchemaDrift.Proofs.Toml.Values

/-! Whole documents in TOML: assignments, then tables under headers, are read in order into the entries
they name. One line grows the document by one entry; a run of lines grows it by all of them. -/
namespace SchemaDrift.Toml

section Lines
variable {key : String} {text cs more rest : List Char} {v : Toml} {d next out : Draft} {fuel : Nat}

structure BareKey (key : String) : Prop where
  nonempty : key.toList ≠ []
  bare : ∀ c ∈ key.toList, isBareKey c = true

theorem bareApart {c : Char} {others : List Char} (bare : isBareKey c = true)
    (noBare : others.all (!isBareKey ·) = true) : c ∉ others := by
  intro other
  have apart := List.all_eq_true.mp noBare c other
  simp [bare] at apart

theorem BareKey.starts (k : BareKey key) : ∃ c more, key.toList = c :: more ∧ isBareKey c = true := by
  obtain ⟨c, more, written⟩ := List.exists_cons_of_ne_nil k.nonempty
  exact ⟨c, more, written, k.bare c (written ▸ List.mem_cons_self)⟩

theorem BareKey.wordRead (k : BareKey key) {e : Char} (other : isBareKey e = false) :
    simpleKey? (key.toList ++ e :: rest) = some (key, e :: rest) := by
  have taken : (key.toList ++ e :: rest).takeWhile isBareKey = key.toList := by
    rw [List.takeWhile_append_of_pos k.bare, List.takeWhile_cons_of_neg (by simp [other]),
      List.append_nil]
  have left : (key.toList ++ e :: rest).dropWhile isBareKey = e :: rest := by
    rw [List.dropWhile_append_of_pos k.bare, List.dropWhile_cons_of_neg (by simp [other])]
  obtain ⟨c, more, written, bare⟩ := k.starts
  unfold simpleKey?
  split
  case h_1 same =>
    rw [written] at same
    cases same
    contradiction
  case h_2 same =>
    rw [written] at same
    cases same
    contradiction
  case h_3 =>
    rw [taken, left]
    split
    case h_1 none => exact absurd none k.nonempty
    case h_2 => rw [String.ofList_toList]

theorem skipSpaceAt {c : Char} (solid : isSpace c = false) : skipSpace (c :: rest) = c :: rest :=
  List.dropWhile_cons_of_neg (by simp [solid])

theorem bareSolid {c : Char} (bare : isBareKey c = true) : isSpace c = false := by
  have apart : c ∉ [' ', '\t'] := bareApart bare (by decide)
  simp only [List.mem_cons, not_or] at apart
  simp [isSpace, apart]

theorem BareKey.keyRead (k : BareKey key) {e c : Char} (other : isBareKey e = false)
    (after : skipSpace (e :: rest) = c :: more) (dotless : c ≠ '.') :
    key? (fuel + 1) (key.toList ++ e :: rest) = some ([key], c :: more) := by
  have start : skipSpace (key.toList ++ e :: rest) = key.toList ++ e :: rest := by
    obtain ⟨c, more, written, bare⟩ := k.starts
    rw [written, List.cons_append, skipSpaceAt (bareSolid bare)]
  simp only [key?, start, k.wordRead other, after, Option.bind_eq_bind, Option.bind_some]
  split
  case h_1 same =>
    cases same
    contradiction
  case h_2 => rfl

theorem BareKey.skip (k : BareKey key) : skipLines (key.toList ++ rest) = key.toList ++ rest := by
  obtain ⟨c, more, written, bare⟩ := k.starts
  rw [written, List.cons_append]
  exact skipLinesAt (bareApart bare (by decide))

structure Assigned (text : List Char) (v : Toml) : Prop where
  starts : ∃ c more, text = c :: more ∧ isSpace c = false
  read (rest : List Char) : value? (text ++ '\n' :: rest) = some (v, '\n' :: rest)

theorem Shows.assigned (shows : Shows text v) : Assigned text v := by
  obtain ⟨c, more, written, apart⟩ := shows.starts
  simp only [List.mem_cons, List.not_mem_nil, or_false, not_or] at apart
  exact ⟨⟨c, more, written, by simp [isSpace, apart]⟩, fun rest => shows.valueRead (.line rest)⟩

theorem arrayAssigned {texts : List (List Char)} {values : List Toml}
    (shown : List.Forall₂ Shows texts values) : Assigned (arrayText texts) (.array values) := by
  refine ⟨?_, fun rest => arrayRead shown⟩
  obtain ⟨more, written⟩ : ∃ more, arrayText texts = '[' :: more := by
    match texts with
    | [] => exact ⟨_, rfl⟩
    | [text] => exact ⟨_, rfl⟩
    | first :: second :: others => exact ⟨_, rfl⟩
  exact ⟨'[', more, written, by decide⟩

theorem BareKey.assignmentRead (k : BareKey key) (assigned : Assigned text v) :
    assignment? (fuel + 1) value? (key.toList ++ ' ' :: '=' :: ' ' :: (text ++ '\n' :: rest)) =
      some (([], key, v), '\n' :: rest) := by
  have word : key? (fuel + 1) (key.toList ++ ' ' :: '=' :: ' ' :: (text ++ '\n' :: rest)) =
      some ([key], '=' :: ' ' :: (text ++ '\n' :: rest)) :=
    k.keyRead (by decide) rfl (by decide)
  have start : skipSpace (' ' :: (text ++ '\n' :: rest)) = text ++ '\n' :: rest := by
    obtain ⟨c, more, written, solid⟩ := assigned.starts
    rw [written, skipSpace, List.dropWhile_cons_of_pos (by decide), List.cons_append]
    exact skipSpaceAt solid
  have limit : ¬ nestingLimit ≤ [key].length := by simp [nestingLimit]
  simp only [assignment?, word, Option.bind_eq_bind, Option.bind_some, if_neg limit, splitKey?,
    List.getLast?_singleton, Option.map_some, List.dropLast_singleton, start, assigned.read]

theorem BareKey.headerRead (k : BareKey key) :
    header? (key.toList ++ ']' :: rest) = some (([], key), rest) := by
  have word (fuel : Nat) : key? (fuel + 1) (key.toList ++ ']' :: rest) = some ([key], ']' :: rest) :=
    k.keyRead (by decide) rfl (by decide)
  have limit : ¬ nestingLimit ≤ [key].length := by simp [nestingLimit]
  simp only [header?, word, Option.bind_eq_bind, Option.bind_some, if_neg limit, splitKey?,
    List.getLast?_singleton, Option.map_some, List.dropLast_singleton]

theorem BareKey.apart (k : BareKey key) {d : Char} (other : isBareKey d = false) (more : List Char) :
    key.toList ++ rest ≠ d :: more := by
  obtain ⟨c, others, written, bare⟩ := k.starts
  have apart : c ∉ [d] := bareApart bare (by simp [other])
  rw [written]
  exact fun same => List.ne_of_not_mem_cons apart (List.cons.inj same).1

end Lines

section Documents
variable {key : String} {text cs rest : List Char} {v : Toml} {d next out : Draft}

def Yields (d : Draft) (cs : List Char) (out : Draft) : Prop :=
  ∀ fuel, cs.length < fuel → statements? fuel d cs = some out

theorem endYields (d : Draft) : Yields d [] d := by
  rintro (_ | fuel) enough
  · contradiction
  · rfl

theorem assignmentYields (k : BareKey key) (assigned : Assigned text v)
    (grown : d.assign [] key v = some next) (after : Yields next rest out) :
    Yields d (assignmentText key text ++ rest) out := by
  have written : assignmentText key text ++ rest =
      key.toList ++ ' ' :: '=' :: ' ' :: (text ++ '\n' :: rest) := by simp [assignmentText]
  rintro (_ | fuel) enough
  · contradiction
  have left : statements? fuel next rest = some out := after fuel (by
    rw [written] at enough
    simp only [List.length_append, List.length_cons] at enough
    omega)
  have line : statement? d (assignmentText key text ++ rest) = some (next, '\n' :: rest) := by
    unfold statement?
    split
    case h_1 same => exact absurd (written.symm.trans same) (k.apart (by decide) _)
    case h_2 same => exact absurd (written.symm.trans same) (k.apart (by decide) _)
    case h_3 =>
      simp only [written, k.assignmentRead assigned, Option.bind_eq_bind, Option.bind_some, grown]
  have ended : endLine? ('\n' :: rest) = some rest := rfl
  simp only [statements?]
  rw [written, k.skip, ← written]
  split
  case h_1 none => simp [assignmentText] at none
  case h_2 => simp only [line, ended, Option.bind_eq_bind, Option.bind_some, left]

theorem headerYields (k : BareKey key) (grown : d.grow [] (openTable key) = some next)
    (after : Yields { next with current := [key] } rest out) : Yields d (headerText key ++ rest) out := by
  have written : headerText key ++ rest = '\n' :: '[' :: (key.toList ++ ']' :: '\n' :: rest) := by
    simp [headerText]
  rintro (_ | fuel) enough
  · contradiction
  have left := after fuel (by
    rw [written] at enough
    simp only [List.length_append, List.length_cons] at enough
    omega)
  have line : statement? d ('[' :: (key.toList ++ ']' :: '\n' :: rest)) =
      some ({ next with current := [key] }, '\n' :: rest) := by
    unfold statement?
    split
    case h_1 same => exact absurd (List.cons.inj same).2 (k.apart (by decide) _)
    case h_2 same =>
      cases same
      simp only [k.headerRead, Option.bind_eq_bind, Option.bind_some, grown, List.nil_append]
    case h_3 other => exact absurd rfl (other _)
  have ended : endLine? ('\n' :: rest) = some rest := rfl
  simp only [statements?]
  rw [written, skipSpaced '\n' (.inr rfl), skipLinesAt (by decide)]
  simp only [line, ended, Option.bind_eq_bind, Option.bind_some, left]

end Documents

structure Line where
  key : String
  text : List Char
  value : Toml

structure Line.Sound (l : Line) : Prop where
  word : BareKey l.key
  assigned : Assigned l.text l.value

def linesText (lines : List Line) : List Char := lines.flatMap fun l => assignmentText l.key l.text

def linesEntries (lines : List Line) : Entries := lines.map fun l => (l.key, l.value)

abbrev Groups := List (String × List Line)

def groupsText (groups : Groups) : List Char := groups.flatMap fun g => headerText g.1 ++ linesText g.2

def groupsEntries (groups : Groups) : Entries :=
  groups.map fun g => (g.1, .table .header (linesEntries g.2))

def DistinctKeys (entries : Entries) : Prop := (entries.map (·.1)).Nodup

section Runs
variable {key group : String} {entries inner : Entries} {v : Toml} {place : Entries → Draft}
variable {lines : List Line} {groups : Groups} {rest : List Char} {out : Draft}

theorem absentBefore {others : Entries} (distinct : DistinctKeys (entries ++ (key, v) :: others)) :
    entries.lookup key = none := by
  rw [DistinctKeys, List.map_append, List.map_cons, List.nodup_append] at distinct
  refine List.lookup_eq_none_iff.mpr fun e inside => ?_
  have apart := distinct.2.2 e.1 (List.mem_map_of_mem inside) key List.mem_cons_self
  exact bne_iff_ne.mpr apart.symm

def Grows (place : Entries → Draft) : Prop :=
  ∀ inner key v, inner.lookup key = none →
    (place inner).assign [] key v = some (place (inner ++ [(key, v)]))

theorem valueAdded (absent : inner.lookup key = none) :
    addDotted [] key v .header inner = some (inner ++ [(key, v)]) := by
  have kept : ¬ ((TableOrigin.header = .dotted) ≠ (!([] : List String).isEmpty) ∨
      (inner.lookup key).isSome) := by simp [absent]
  rw [addDotted, along, addValue, if_neg kept]

theorem rootGrows : Grows fun inner => ⟨inner, []⟩ := by
  intro inner key v absent
  rw [Draft.assign, Draft.grow, along, valueAdded absent, Option.map_some]

theorem groupGrows (absent : entries.lookup group = none) :
    Grows fun inner => ⟨entries ++ [(group, .table .header inner)], [group]⟩ := by
  intro inner key v fresh
  have found : (entries ++ [(group, Toml.table .header inner)]).lookup group =
      some (Toml.table .header inner) := by
    rw [List.lookup_append, absent, List.lookup_cons_self, Option.none_or]
  have others (e : String × Toml) (inside : e ∈ entries) :
      (if e.1 = group then (group, Toml.table .header (inner ++ [(key, v)])) else e) = e :=
    if_neg (bne_iff_ne.mp (List.lookup_eq_none_iff.mp absent e inside)).symm
  rw [Draft.assign, Draft.grow, along, found]
  simp only [reduceCtorEq, false_or, Bool.false_eq_true, false_and, if_false, along, valueAdded fresh,
    Option.bind_eq_bind, Option.bind_some, setEntry, List.map_append, List.map_congr_left others,
    List.map_id', List.map_cons, List.map_nil, if_true, Option.map_some]

theorem linesYield (grows : Grows place) (sound : ∀ l ∈ lines, l.Sound)
    (distinct : DistinctKeys (inner ++ linesEntries lines))
    (after : Yields (place (inner ++ linesEntries lines)) rest out) :
    Yields (place inner) (linesText lines ++ rest) out := by
  induction lines generalizing inner with
  | nil => simpa [linesText, linesEntries] using after
  | cons l lines ih =>
    obtain ⟨first, others⟩ := List.forall_mem_cons.mp sound
    have same : inner ++ linesEntries (l :: lines) =
        inner ++ [(l.key, l.value)] ++ linesEntries lines := by simp [linesEntries]
    have grown := grows inner l.key l.value (absentBefore distinct)
    rw [same] at distinct after
    have written : linesText (l :: lines) ++ rest =
        assignmentText l.key l.text ++ (linesText lines ++ rest) := by simp [linesText]
    rw [written]
    exact assignmentYields first.word first.assigned grown (ih others distinct after)

theorem groupOpened (absent : entries.lookup key = none) (current : List String) :
    Draft.grow ⟨entries, current⟩ [] (openTable key) =
      some ⟨entries ++ [(key, .table .header [])], current⟩ := by
  simp [Draft.grow, along, openTable, absent]

theorem groupsYield (named : ∀ g ∈ groups, BareKey g.1) (sound : ∀ g ∈ groups, ∀ l ∈ g.2, l.Sound)
    (inside : ∀ g ∈ groups, DistinctKeys (linesEntries g.2))
    (distinct : DistinctKeys (entries ++ groupsEntries groups)) (current : List String) :
    ∃ last, Yields ⟨entries, current⟩ (groupsText groups) ⟨entries ++ groupsEntries groups, last⟩ := by
  induction groups generalizing entries current with
  | nil => exact ⟨current, by simpa [groupsText, groupsEntries] using endYields _⟩
  | cons g groups ih =>
    obtain ⟨word, names⟩ := List.forall_mem_cons.mp named
    obtain ⟨first, others⟩ := List.forall_mem_cons.mp sound
    obtain ⟨keys, more⟩ := List.forall_mem_cons.mp inside
    have absent := absentBefore distinct
    have same : entries ++ groupsEntries (g :: groups) =
        entries ++ [(g.1, .table .header (linesEntries g.2))] ++ groupsEntries groups := by
      simp [groupsEntries]
    rw [same] at distinct ⊢
    obtain ⟨last, after⟩ := ih names others more distinct [g.1]
    have written : groupsText (g :: groups) =
        headerText g.1 ++ (linesText g.2 ++ groupsText groups) := by simp [groupsText]
    rw [written]
    refine ⟨last, headerYields word (groupOpened absent current) ?_⟩
    exact @linesYield [] _ _ _ _ (groupGrows absent) first keys after

theorem documentUnmarked (sound : ∀ l ∈ lines, l.Sound) (more : List Char) :
    linesText lines ++ groupsText groups ≠ '\uFEFF' :: more := by
  cases lines with
  | nil =>
    cases groups with
    | nil => exact List.cons_ne_nil _ _ ∘ Eq.symm
    | cons g groups => simp [linesText, groupsText, headerText]
  | cons l lines =>
    have word := (sound l List.mem_cons_self).word
    rw [linesText, List.flatMap_cons, assignmentText, List.append_assoc, List.append_assoc,
      List.append_assoc, List.append_assoc]
    exact word.apart (by decide) more

theorem documentRead (sound : ∀ l ∈ lines, l.Sound) (named : ∀ g ∈ groups, BareKey g.1)
    (groupsSound : ∀ g ∈ groups, ∀ l ∈ g.2, l.Sound)
    (inside : ∀ g ∈ groups, DistinctKeys (linesEntries g.2))
    (distinct : DistinctKeys (linesEntries lines ++ groupsEntries groups)) :
    parse? (String.ofList (linesText lines ++ groupsText groups)) =
      some (linesEntries lines ++ groupsEntries groups) := by
  obtain ⟨last, after⟩ := groupsYield named groupsSound inside distinct []
  have before : DistinctKeys (linesEntries lines) := by
    rw [DistinctKeys, List.map_append] at distinct
    exact (List.nodup_append.mp distinct).1
  have read : Yields .empty (linesText lines ++ groupsText groups) _ :=
    @linesYield [] _ _ _ _ rootGrows sound before after
  have unmarked : withoutMark (linesText lines ++ groupsText groups) =
      linesText lines ++ groupsText groups := by
    unfold withoutMark
    split
    case h_1 more same => exact absurd same (documentUnmarked sound more)
    case h_2 => rfl
  simp only [parse?, String.toList_ofList, unmarked, read _ (Nat.lt_succ_self _), Option.map_some]

end Runs

end SchemaDrift.Toml
