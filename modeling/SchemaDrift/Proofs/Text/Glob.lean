import Mathlib.Data.List.Forall2
import Mathlib.Data.List.Infix
import SchemaDrift.Text.Glob

/-! The texts that a pattern matches. Split at its stars a pattern is a list of pieces, and it matches
what these pieces and a gap for each star make up, in turn. The rows of the matcher are followed one
character of the pattern at a time. -/
namespace SchemaDrift.Text

inductive Covers : List Char → List Char → Prop
  | done : Covers [] []
  | char {p : Char} {pattern text : List Char} (plain : p ≠ '*') (rest : Covers pattern text) :
    Covers (p :: pattern) (p :: text)
  | skip {pattern text : List Char} (rest : Covers pattern text) : Covers ('*' :: pattern) text
  | take {c : Char} {pattern text : List Char} (inLine : c ≠ '\n')
    (rest : Covers ('*' :: pattern) text) : Covers ('*' :: pattern) (c :: text)

section Rows
variable {pattern text : List Char} {row : List Bool}

/- The row has, for the text and each of its ends, whether the pattern matches it. -/
def Tells (pattern text : List Char) (row : List Bool) : Prop :=
  List.Forall₂ (fun part matched => matched = true ↔ Covers pattern part) text.tails row

theorem tellsHead (told : Tells pattern text row) : row.headD false = true ↔ Covers pattern text := by
  cases text with
  | nil =>
    cases told with
    | cons here rest => exact here
  | cons c text =>
    cases told with
    | cons here rest => exact here

theorem emptyCovers (text : List Char) : Covers [] text ↔ text = [] := by
  constructor
  · intro covers
    cases covers
    rfl
  · rintro rfl
    exact .done

theorem starCovers (text : List Char) : Covers ('*' :: pattern) text ↔
    Covers pattern text ∨ ∃ c rest, text = c :: rest ∧ c ≠ '\n' ∧ Covers ('*' :: pattern) rest := by
  constructor
  · intro covers
    cases covers with
    | char plain rest => exact absurd rfl plain
    | skip rest => exact .inl rest
    | take inLine rest => exact .inr ⟨_, _, rfl, inLine, rest⟩
  · rintro (rest | ⟨c, rest, rfl, inLine, covers⟩)
    · exact .skip rest
    · exact .take inLine covers

theorem charCovers {p : Char} (plain : p ≠ '*') (text : List Char) :
    Covers (p :: pattern) text ↔ ∃ rest, text = p :: rest ∧ Covers pattern rest := by
  constructor
  · intro covers
    cases covers with
    | char _ rest => exact ⟨_, rfl, rest⟩
    | skip rest => exact absurd rfl plain
    | take inLine rest => exact absurd rfl plain
  · rintro ⟨rest, rfl, covers⟩
    exact .char plain covers

theorem emptyTells (text : List Char) : Tells [] text (emptyRow text) := by
  induction text with
  | nil => exact .cons (by simp [emptyCovers]) .nil
  | cons c text ih => exact .cons (by simp [emptyCovers]) ih

theorem starTells (told : Tells pattern text row) : Tells ('*' :: pattern) text (starRow text row) := by
  induction text generalizing row with
  | nil =>
    cases told with
    | cons here rest =>
      cases rest
      refine .cons ?_ .nil
      rw [here, starCovers]
      simp
  | cons c text ih =>
    cases told with
    | cons here rest =>
      have later := ih rest
      refine .cons ?_ later
      rw [starCovers, Bool.or_eq_true, here, Bool.and_eq_true, tellsHead later]
      simp

theorem charTells {p : Char} (plain : p ≠ '*') (told : Tells pattern text row) :
    Tells (p :: pattern) text (charRow p text row) := by
  induction text generalizing row with
  | nil => exact .cons (by simp [charCovers plain]) .nil
  | cons c text ih =>
    cases told with
    | cons here rest =>
      refine .cons ?_ (ih rest)
      rw [charCovers plain, Bool.and_eq_true, beq_iff_eq, tellsHead rest]
      simp [eq_comm]

theorem globTells (pattern text : List Char) : Tells pattern text (globRow text pattern) := by
  induction pattern with
  | nil => exact emptyTells text
  | cons p pattern ih =>
    unfold globRow
    split
    · rename_i star
      rw [star]
      exact starTells ih
    · rename_i plain
      exact charTells plain ih

theorem globCovers (pattern text : List Char) : globMatches pattern text = true ↔ Covers pattern text :=
  tellsHead (globTells pattern text)

example : globMatches ['a', 'b', '*', 'b', 'a'] ['a', 'b', 'a'] = false := by decide

end Rows

inductive Woven : List (List Char) → List (List Char) → List Char → Prop
  | last (piece : List Char) : Woven [piece] [] piece
  | gap {pieces gaps : List (List Char)} {text : List Char} (piece gap : List Char)
    (rest : Woven pieces gaps text) : Woven (piece :: pieces) (gap :: gaps) (piece ++ gap ++ text)

section Pieces
variable {pattern text : List Char} {pieces gaps : List (List Char)}

theorem splitStar (pattern : List Char) :
    ('*' :: pattern).splitOn '*' = [] :: pattern.splitOn '*' := by
  simp [List.splitOn_eq_splitOnP, List.splitOnP_cons_eq_if_modifyHead]

theorem splitChar {p : Char} (plain : p ≠ '*') (pattern : List Char) :
    (p :: pattern).splitOn '*' = (pattern.splitOn '*').modifyHead (p :: ·) := by
  simp [List.splitOn_eq_splitOnP, List.splitOnP_cons_eq_if_modifyHead, plain]

theorem wovenCons (c : Char) (woven : Woven pieces gaps text) :
    Woven (pieces.modifyHead (c :: ·)) gaps (c :: text) := by
  cases woven with
  | last => exact .last _
  | gap piece gap rest => exact .gap (c :: piece) gap rest

theorem ofWovenCons {c : Char} (woven : Woven (pieces.modifyHead (c :: ·)) gaps text) :
    ∃ rest, text = c :: rest ∧ Woven pieces gaps rest := by
  cases pieces with
  | nil => cases woven
  | cons piece pieces =>
    cases woven with
    | last _ => exact ⟨piece, rfl, .last piece⟩
    | gap _ gap rest => exact ⟨_, rfl, .gap piece gap rest⟩

theorem ofWovenStar (woven : Woven ([] :: pattern.splitOn '*') gaps text) :
    ∃ gap others rest, gaps = gap :: others ∧ text = gap ++ rest ∧
      Woven (pattern.splitOn '*') others rest := by
  have pieced : pattern.splitOn '*' ≠ [] := List.splitOn_ne_nil _ _
  generalize pattern.splitOn '*' = pieces at *
  cases woven with
  | last => contradiction
  | gap piece gap rest => exact ⟨gap, _, _, rfl, rfl, rest⟩

theorem wovenOfCovers (covers : Covers pattern text) :
    ∃ gaps, (∀ gap ∈ gaps, '\n' ∉ gap) ∧ Woven (pattern.splitOn '*') gaps text := by
  induction covers with
  | done => exact ⟨[], by simp, .last []⟩
  | char plain rest ih =>
    obtain ⟨gaps, inLine, woven⟩ := ih
    rw [splitChar plain]
    exact ⟨gaps, inLine, wovenCons _ woven⟩
  | skip rest ih =>
    obtain ⟨gaps, inLine, woven⟩ := ih
    rw [splitStar]
    exact ⟨[] :: gaps, by simpa using inLine, .gap [] [] woven⟩
  | @take c pattern text other rest ih =>
    -- the gap of the star grows by one character
    obtain ⟨gaps, inLine, woven⟩ := ih
    rw [splitStar] at woven ⊢
    obtain ⟨gap, others, rest, rfl, rfl, inner⟩ := ofWovenStar woven
    rw [List.forall_mem_cons] at inLine
    refine ⟨(c :: gap) :: others, List.forall_mem_cons.mpr ⟨?_, inLine.2⟩, .gap [] (c :: gap) inner⟩
    exact List.not_mem_cons_of_ne_of_not_mem (Ne.symm other) inLine.1

theorem gapCovers {gap : List Char} (inLine : '\n' ∉ gap) (rest : Covers pattern text) :
    Covers ('*' :: pattern) (gap ++ text) := by
  induction gap with
  | nil => exact .skip rest
  | cons c gap ih =>
    rw [List.mem_cons, not_or] at inLine
    exact .take (Ne.symm inLine.1) (ih inLine.2)

theorem coversOfWoven (inLine : ∀ gap ∈ gaps, '\n' ∉ gap)
    (woven : Woven (pattern.splitOn '*') gaps text) : Covers pattern text := by
  induction pattern generalizing gaps text with
  | nil =>
    cases woven with
    | last => exact .done
    | gap piece gap rest => cases rest
  | cons p pattern ih =>
    by_cases star : p = '*'
    · rw [star] at woven ⊢
      rw [splitStar] at woven
      obtain ⟨gap, others, rest, rfl, rfl, inner⟩ := ofWovenStar woven
      rw [List.forall_mem_cons] at inLine
      exact gapCovers inLine.1 (ih inLine.2 inner)
    · rw [splitChar star] at woven
      obtain ⟨rest, rfl, before⟩ := ofWovenCons woven
      exact .char star (ih inLine before)

theorem coversIff (pattern text : List Char) : Covers pattern text ↔
    ∃ gaps, (∀ gap ∈ gaps, '\n' ∉ gap) ∧ Woven (pattern.splitOn '*') gaps text :=
  ⟨wovenOfCovers, fun ⟨_, inLine, woven⟩ => coversOfWoven inLine woven⟩

theorem plainCovers (plain : '*' ∉ pattern) : Covers pattern text ↔ pattern = text := by
  induction pattern generalizing text with
  | nil => rw [emptyCovers, eq_comm]
  | cons p pattern ih =>
    rw [List.mem_cons, not_or] at plain
    rw [charCovers (Ne.symm plain.1)]
    constructor
    · rintro ⟨rest, rfl, covers⟩
      rw [(ih plain.2).mp covers]
    · rintro rfl
      exact ⟨pattern, rfl, (ih plain.2).mpr rfl⟩

theorem gapInside {gap : List Char} (woven : Woven pieces gaps text) (member : gap ∈ gaps) :
    ∀ c ∈ gap, c ∈ text := by
  induction woven with
  | last piece => contradiction
  | gap piece here rest ih =>
    intro c inside
    rcases List.mem_cons.mp member with rfl | later
    · simp [inside]
    · simp [ih later c inside]

end Pieces

/- A pattern without a star goes past the matcher, and is a case of the same rule. -/
theorem matchesCovers (pattern text : String) :
    matchesPattern pattern text = true ↔ Covers pattern.toList text.toList := by
  unfold matchesPattern
  split
  · exact globCovers pattern.toList text.toList
  · rename_i plain
    rw [plainCovers (by simpa using plain), beq_iff_eq, String.toList_inj]

theorem matchesWoven {text : String} (oneLine : '\n' ∉ text.toList) (pattern : String) :
    matchesPattern pattern text = true ↔
      ∃ gaps, Woven (pattern.toList.splitOn '*') gaps text.toList := by
  rw [matchesCovers, coversIff]
  constructor
  · rintro ⟨gaps, _, woven⟩
    exact ⟨gaps, woven⟩
  · rintro ⟨gaps, woven⟩
    exact ⟨gaps, fun gap member broken => oneLine (gapInside woven member _ broken), woven⟩

end SchemaDrift.Text
