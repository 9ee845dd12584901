import Mathlib.Data.List.TakeWhile
import Mathlib.Tactic.SplitIfs
import SchemaDrift.Toml.Lexical
import SchemaDrift.Toml.Writer

/-! Strings in TOML are read as they were written, whichever of their forms is taken. A block is a row
of pieces, escaped or not, with fewer than three quotes between them, so that its three closing quotes
are the first ones in a row; both kinds of blocks are read by the same steps. -/
namespace SchemaDrift.Toml
open Text

section Escapes
variable {c : Char} {text more : List Char}

structure Escapes (code : List Char) (c : Char) : Prop where
  read (rest : List Char) : escape? (code ++ rest) = some (c, rest)
  joinsNot (rest : List Char) : joinedLine? (code ++ rest) = none

inductive Quotes : List Char → Char → Prop where
  | plain {c : Char} (quote : c ≠ '"') (mark : c ≠ '\\') (solid : isControl c = false) : Quotes [c] c
  | escape {c : Char} {code : List Char} (escapes : Escapes code c) : Quotes ('\\' :: code) c

theorem codeRead : ∀ n < 128,
    readHex? ['0', '0', (digitChar (n / 16)).toUpper, (digitChar (n % 16)).toUpper] = some n := by
  decide

theorem scalarOfChar (c : Char) : scalarOf? c.toNat = some c := by
  have valid : c.toNat.isValidChar := c.valid
  rw [scalarOf?, if_pos valid, Char.ofNat_toNat]

theorem codeQuotes (quote : c ≠ '"') (mark : c ≠ '\\') : Quotes (escapedCode c) c := by
  have named {n : Nat} {letter : Char} (number : c.toNat = n)
      (escapes : Escapes [letter] (Char.ofNat n)) : Quotes ['\\', letter] c := by
    rw [← Char.ofNat_toNat c, number]
    exact .escape escapes
  simp only [escapedCode]
  split_ifs with b t n f r u
  · exact named b ⟨fun _ => rfl, fun _ => rfl⟩
  · exact named t ⟨fun _ => rfl, fun _ => rfl⟩
  · exact named n ⟨fun _ => rfl, fun _ => rfl⟩
  · exact named f ⟨fun _ => rfl, fun _ => rfl⟩
  · exact named r ⟨fun _ => rfl, fun _ => rfl⟩
  · refine .escape ⟨fun rest => ?_, fun rest => rfl⟩
    have code := codeRead c.toNat (by omega)
    simp only [List.cons_append, List.nil_append, escape?, code, Option.bind_eq_bind, Option.bind_some,
      scalarOfChar]
  · refine .plain quote mark ?_
    simp only [isControl]
    simp; omega

theorem markEscapes : Escapes ['\\'] '\\' := ⟨fun _ => rfl, fun _ => rfl⟩

theorem quoteEscapes : Escapes ['"'] '"' := ⟨fun _ => rfl, fun _ => rfl⟩

theorem basicNext (quotes : Quotes text c) :
    basicString? (text ++ more) = (basicString? more).map fun r => (c :: r.1, r.2) := by
  cases quotes with
  | plain quote mark solid =>
    rw [List.singleton_append, basicString?, if_neg quote, if_neg mark, if_neg (by simp [solid])]
  | @escape _ code escapes =>
    rw [List.cons_append, basicString?, if_neg (by decide), if_pos rfl]
    split
    case h_1 bad => rw [escapes.read] at bad; contradiction
    case h_2 e rest read =>
      rw [escapes.read] at read
      cases read
      rfl

theorem quotedNext (c : Char) (s : List Char) :
    ∃ text, Quotes text c ∧ escapedChars false 0 (c :: s) = text ++ escapedChars false 0 s := by
  by_cases quote : c = '"'
  · subst quote
    exact ⟨_, .escape quoteEscapes, by simp [escapedChars]⟩
  by_cases mark : c = '\\'
  · subst mark
    exact ⟨_, .escape markEscapes, by simp [escapedChars]⟩
  · exact ⟨_, codeQuotes quote mark, by simp [escapedChars, quote, mark]⟩

theorem basicRead (s rest : List Char) :
    basicString? (escapedChars false 0 s ++ '"' :: rest) = some (s, rest) := by
  induction s with
  | nil => simp [escapedChars, basicString?]
  | cons c s ih =>
    obtain ⟨text, quotes, written⟩ := quotedNext c s
    rw [written, List.append_assoc, basicNext quotes, ih]
    rfl

end Escapes

section Runs
variable {q : Char} {rest : List Char}

def Stops (q : Char) (rest : List Char) : Prop := rest.head? ≠ some q

theorem runLength (k : Nat) (stops : Stops q rest) :
    ((List.replicate k q ++ rest).takeWhile (· == q)).length = k := by
  have ended : rest.takeWhile (· == q) = [] := by
    cases rest with
    | nil => rfl
    | cons c rest => exact List.takeWhile_cons_of_neg (by simpa [Stops] using stops)
  rw [List.takeWhile_append_of_pos (by simp), ended, List.append_nil, List.length_replicate]

end Runs

section Blocks

theorem newLineNone {c : Char} {more : List Char} (solid : isControl c = false) :
    newLine? (c :: more) = none := by
  unfold newLine?
  split
  case h_1 same =>
    cases same
    contradiction
  case h_2 same =>
    cases same
    contradiction
  case h_3 => rfl

/-- A reader of blocks between three quotes `q`, and how the characters of their texts are written. -/
structure BlockReader (q : Char) (Piece : List Char → Char → Prop)
    (read : Nat → Reader (List Char)) : Prop where
  few {fuel k : Nat} {more : List Char} : k + 1 < 3 → Stops q more →
    read (fuel + 1) (List.replicate (k + 1) q ++ more) =
      (read fuel more).map fun r => (List.replicate (k + 1) q ++ r.1, r.2)
  ending {fuel k : Nat} {rest : List Char} : k < 3 → Stops q rest →
    read (fuel + 1) (List.replicate (k + 3) q ++ rest) = some (List.replicate k q, rest)
  next {fuel : Nat} {code : List Char} {c : Char} {more : List Char} : Piece code c →
    read (fuel + 1) (code ++ more) = (read fuel more).map fun r => (c :: r.1, r.2)
  starts {code : List Char} {c : Char} : Piece code c → code ≠ [] ∧ ∀ more, Stops q (code ++ more)
  onLine {code : List Char} {c : Char} : Piece code c → c ≠ '\n' →
    ∀ more, newLine? (code ++ more) = none
  solid : isControl q = false

/-- The text `text` of a block shows `s`, after `n` quotes in a row. -/
inductive Pieces (q : Char) (Piece : List Char → Char → Prop) :
    Nat → List Char → List Char → Prop where
  | nil {n : Nat} : Pieces q Piece n [] []
  | quote {n : Nat} {text s : List Char} (few : n < 2) (pieces : Pieces q Piece (n + 1) text s) :
    Pieces q Piece n (q :: text) (q :: s)
  | other {n : Nat} {code text s : List Char} {c : Char} (piece : Piece code c)
    (pieces : Pieces q Piece 0 text s) : Pieces q Piece n (code ++ text) (c :: s)

variable {q : Char} {Piece : List Char → Char → Prop} {read : Nat → Reader (List Char)}

/- The quotes before a piece are read in one step, so they are carried along until it comes. -/
theorem BlockReader.piecesRead (reader : BlockReader q Piece read) {n : Nat} {text s : List Char}
    (pieces : Pieces q Piece n text s) {fuel : Nat} {rest : List Char} (few : n < 3)
    (enough : n + text.length < fuel) (stops : Stops q rest) :
    read fuel (List.replicate n q ++ (text ++ (List.replicate 3 q ++ rest))) =
      some (List.replicate n q ++ s, rest) := by
  induction pieces generalizing fuel with
  | @nil n =>
    obtain ⟨fuel, rfl⟩ : ∃ k, fuel = k + 1 := ⟨fuel - 1, by omega⟩
    rw [List.nil_append, ← List.append_assoc, List.replicate_append_replicate, reader.ending few stops,
      List.append_nil]
  | @quote n text s more pieces ih =>
    rw [List.length_cons] at enough
    have read := ih (by omega) (by omega : n + 1 + text.length < fuel)
    rw [List.replicate_succ'] at read
    simpa using read
  | @other n code text s c piece pieces ih =>
    obtain ⟨nonempty, start⟩ := reader.starts piece
    have long : 0 < code.length := List.length_pos_iff.mpr nonempty
    rw [List.length_append] at enough
    have piecesRead {fuel : Nat} (enough : text.length < fuel) :
        read (fuel + 1) (code ++ text ++ (List.replicate 3 q ++ rest)) = some (c :: s, rest) := by
      rw [List.append_assoc, reader.next piece]
      simpa using ih (by omega) (by omega : 0 + text.length < fuel)
    -- Quotes carried along take a step of the reader before the piece takes its own.
    cases n with
    | zero =>
      obtain ⟨fuel, rfl⟩ : ∃ k, fuel = k + 1 := ⟨fuel - 1, by omega⟩
      simpa using @piecesRead fuel (by omega)
    | succ n =>
      obtain ⟨fuel, rfl⟩ : ∃ k, fuel = k + 2 := ⟨fuel - 2, by omega⟩
      rw [reader.few few (by rw [List.append_assoc]; exact start _), piecesRead (by omega)]
      rfl

theorem BlockReader.unopened (reader : BlockReader q Piece read) {n : Nat} {text s more : List Char}
    (pieces : Pieces q Piece n text s) (line : '\n' ∉ s) : newLine? (text ++ q :: more) = none := by
  cases pieces with
  | nil => exact newLineNone reader.solid
  | quote => exact newLineNone reader.solid
  | @other _ _ _ _ c piece =>
    rw [List.append_assoc]
    exact reader.onLine piece (fun same => line (by simp [same])) _

theorem BlockReader.blockRead (reader : BlockReader q Piece read) {text s rest cs : List Char}
    (pieces : Pieces q Piece 0 text s) (stops : Stops q rest)
    (block : cs = opened s text ++ (List.replicate 3 q ++ rest)) :
    read (cs.length + 1) (afterOpening cs) = some (s, rest) := by
  subst block
  by_cases line : '\n' ∈ s
  · simp only [opened, List.contains_eq_mem, line, decide_true, if_true, afterOpening, newLine?,
      List.cons_append, Option.getD_some]
    exact reader.piecesRead pieces (by omega) (by simp; omega) stops
  · simp only [opened, List.contains_eq_mem, line, decide_false, if_false, Bool.false_eq_true,
      afterOpening, List.replicate_succ, List.cons_append, reader.unopened pieces line,
      Option.getD_none]
    exact reader.piecesRead pieces (by omega) (by rw [List.length_append]; omega) stops

end Blocks

section Basic
variable {c : Char} {s text more rest : List Char} {fuel : Nat}

inductive BlockQuotes : List Char → Char → Prop where
  | quotes {text : List Char} {c : Char} (quotes : Quotes text c) : BlockQuotes text c
  | line : BlockQuotes ['\n'] '\n'

theorem blockNext (quotes : Quotes text c) : basicBlock? (fuel + 1) (text ++ more) =
    (basicBlock? fuel more).map fun r => (c :: r.1, r.2) := by
  cases quotes with
  | plain quote mark solid =>
    simp [basicBlock?, newLineNone solid, solid]
  | @escape _ code escapes =>
    simp only [List.cons_append, basicBlock?, escapes.joinsNot, escapes.read, Option.bind_eq_bind,
      Option.bind_some]
    cases basicBlock? fuel more <;> rfl

theorem quotesStart (quotes : Quotes text c) : text ≠ [] ∧ ∀ more, Stops '"' (text ++ more) := by
  cases quotes with
  | plain quote => exact ⟨by simp, fun more => by simpa [Stops] using quote⟩
  | escape => exact ⟨by simp, fun more => by simp [Stops]⟩

theorem basicBlockReader : BlockReader '"' BlockQuotes basicBlock? where
  few {fuel k more} few stops := by
    have run := runLength (k + 1) stops
    rw [List.replicate_succ, List.cons_append] at run ⊢
    simp only [basicBlock?, run, closing?, if_pos few]
    simp [List.replicate_succ]
  ending {fuel k rest} few stops := by
    have run := runLength (k + 3) stops
    rw [List.replicate_succ, List.cons_append] at run ⊢
    have extra : min k 2 = k := by omega
    simp only [basicBlock?, run, closing?, if_neg (by omega : ¬ k + 3 < 3), Nat.add_sub_cancel, extra]
    simp
  next piece := by
    cases piece with
    | quotes quotes => exact blockNext quotes
    | line =>
      rw [basicBlock?.eq_def]
      rfl
  starts piece := by
    cases piece with
    | quotes quotes => exact quotesStart quotes
    | line => exact ⟨by simp, fun more => by simp [Stops]⟩
  onLine piece other more := by
    cases piece with
    | quotes quotes =>
      cases quotes with
      | plain _ _ solid => exact newLineNone solid
      | escape => exact newLineNone (by decide)
    | line => contradiction
  solid := by decide

theorem escapedPieces (s : List Char) {n : Nat} (few : n < 3) :
    Pieces '"' BlockQuotes n (escapedChars true n s) s := by
  induction s generalizing n with
  | nil => exact .nil
  | cons c s ih =>
    simp only [escapedChars]
    split_ifs with quote more mark line
    · subst quote
      exact .quote more.2 (ih (by omega))
    · subst quote
      exact .other (.quotes (.escape quoteEscapes)) (ih (by omega))
    · subst mark
      exact .other (.quotes (.escape markEscapes)) (ih (by omega))
    · rw [line.2]
      exact .other .line (ih (by omega))
    · exact .other (.quotes (codeQuotes quote mark)) (ih (by omega))

end Basic

section Literal
variable {c : Char} {s text more rest : List Char} {fuel : Nat}

inductive BlockShows : List Char → Char → Prop where
  | plain {c : Char} (quote : c ≠ '\'') (shown : needsCode c = false) : BlockShows [c] c

theorem solidOfShown (shown : needsCode c = false) (other : c ≠ '\n') : isControl c = false := by
  simpa [needsCode, other] using shown

theorem literalBlockReader : BlockReader '\'' BlockShows literalBlock? where
  few {fuel k more} few stops := by
    have run := runLength (k + 1) stops
    rw [List.replicate_succ, List.cons_append] at run ⊢
    simp only [literalBlock?, run, closing?, if_pos few]
    simp [List.replicate_succ]
  ending {fuel k rest} few stops := by
    have run := runLength (k + 3) stops
    rw [List.replicate_succ, List.cons_append] at run ⊢
    have extra : min k 2 = k := by omega
    simp only [literalBlock?, run, closing?, if_neg (by omega : ¬ k + 3 < 3), Nat.add_sub_cancel, extra]
    simp
  next {fuel code c more} piece := by
    cases piece with
    | plain quote shown =>
      by_cases line : c = '\n'
      · subst line
        rw [literalBlock?.eq_def]
        rfl
      · have solid := solidOfShown shown line
        simp [literalBlock?, newLineNone solid, solid]
  starts piece := by
    cases piece with
    | plain quote => exact ⟨by simp, fun more => by simpa [Stops] using quote⟩
  onLine piece other more := by
    cases piece with
    | plain _ shown => exact newLineNone (solidOfShown shown other)
  solid := by decide

/-- The longest run of a character, where `r` tells the run just before and the longest one. -/
def longestFrom (c : Char) (r : Nat × Nat) (s : List Char) : Nat :=
  (s.foldl (fun r d => if d = c then (r.1 + 1, max r.2 (r.1 + 1)) else (0, r.2)) r).2

theorem longestSame (c : Char) (m n : Nat) (s : List Char) :
    longestFrom c (n, m) (c :: s) = longestFrom c (n + 1, max m (n + 1)) s := by
  rw [longestFrom, List.foldl_cons, if_pos rfl]
  rfl

theorem longestOther {d : Char} (other : d ≠ c) (m n : Nat) (s : List Char) :
    longestFrom c (n, m) (d :: s) = longestFrom c (0, m) s := by
  rw [longestFrom, List.foldl_cons, if_neg other]
  rfl

theorem longestKept (c : Char) (m n : Nat) (s : List Char) : m ≤ longestFrom c (n, m) s := by
  induction s generalizing m n with
  | nil => exact le_rfl
  | cons d s ih =>
    by_cases same : d = c
    · subst same
      rw [longestSame]
      exact (le_max_left ..).trans (ih ..)
    · rw [longestOther same]
      exact ih ..

theorem longestRunKept (c : Char) (m n : Nat) (s : List Char) :
    n + 1 ≤ longestFrom c (n, m) (c :: s) := by
  rw [longestSame]
  exact (le_max_right ..).trans (longestKept ..)

theorem longestPieces {m n : Nat} (few : longestFrom '\'' (n, m) s ≤ 2)
    (shown : ∀ c ∈ s, needsCode c = false) : Pieces '\'' BlockShows n s s := by
  induction s generalizing m n with
  | nil => exact .nil
  | cons c s ih =>
    obtain ⟨first, others⟩ := List.forall_mem_cons.mp shown
    by_cases quote : c = '\''
    · subst quote
      have run : n + 1 ≤ 2 := (longestRunKept ..).trans few
      rw [longestSame] at few
      exact .quote run (ih few others)
    · rw [longestOther quote] at few
      exact .other (.plain quote first) (ih few others)

theorem longestNone {m n : Nat} (absent : longestFrom c (n, m) s = 0) : c ∉ s := by
  induction s generalizing m n with
  | nil => exact List.not_mem_nil
  | cons d s ih =>
    by_cases same : d = c
    · subst same
      have run := longestRunKept d m n s
      omega
    · rw [longestOther same] at absent
      exact fun inside => (List.mem_cons.mp inside).elim (fun first => same first.symm) (ih absent)

theorem literalRead (quoteless : '\'' ∉ s) (solid : ∀ c ∈ s, isControl c = false) :
    literalString? (s ++ '\'' :: rest) = some (s, rest) := by
  have inside : ∀ c ∈ s, (c != '\'' && !isControl c) = true := fun c member => by
    have other : c ≠ '\'' := fun same => quoteless (same ▸ member)
    simp [other, solid c member]
  have taken : (s ++ '\'' :: rest).takeWhile (fun c => c != '\'' && !isControl c) = s := by
    rw [List.takeWhile_append_of_pos inside, List.takeWhile_cons_of_neg (by decide), List.append_nil]
  simp [literalString?, taken]

end Literal

section Forms
variable {q : Char} {s body cs rest : List Char}

theorem quotedApart (start : Stops q body) (stops : Stops q rest) (more : List Char) :
    body ++ q :: rest ≠ q :: q :: more := by
  intro same
  cases body with
  | nil =>
    rw [List.nil_append, List.cons.injEq] at same
    exact stops (by rw [same.2]; rfl)
  | cons c body =>
    rw [List.cons_append, List.cons.injEq] at same
    exact start (by rw [same.1]; rfl)

theorem basicOpened (apart : ∀ more, cs ≠ '"' :: '"' :: more) :
    string? ('"' :: cs) = basicString? cs := by
  unfold string?
  split
  case h_1 more same =>
    cases same
    exact absurd rfl (apart more)
  case h_2 same => simp at same
  case h_3 same =>
    cases same
    rfl
  case h_4 same => simp at same
  case h_5 other _ => exact absurd rfl (other cs)

theorem literalOpened (apart : ∀ more, cs ≠ '\'' :: '\'' :: more) :
    string? ('\'' :: cs) = literalString? cs := by
  unfold string?
  split
  case h_1 same => simp at same
  case h_2 more same =>
    cases same
    exact absurd rfl (apart more)
  case h_3 same => simp at same
  case h_4 same =>
    cases same
    rfl
  case h_5 other => exact absurd rfl (other cs)

theorem escapedStart (s : List Char) : Stops '"' (escapedChars false 0 s) := by
  cases s with
  | nil => simp [Stops, escapedChars]
  | cons c s =>
    obtain ⟨text, quotes, written⟩ := quotedNext c s
    rw [written]
    exact (quotesStart quotes).2 _

theorem basicForm (stops : Stops '"' rest) :
    string? (fenced ['"'] (escapedChars false 0 s) ++ rest) = some (s, rest) := by
  have written : fenced ['"'] (escapedChars false 0 s) ++ rest =
      '"' :: (escapedChars false 0 s ++ '"' :: rest) := by simp [fenced]
  rw [written, basicOpened (quotedApart (escapedStart s) stops), basicRead]

theorem literalForm (shown : ∀ c ∈ s, needsCode c = false) (quoteless : '\'' ∉ s) (line : '\n' ∉ s)
    (stops : Stops '\'' rest) : string? (fenced ['\''] s ++ rest) = some (s, rest) := by
  have written : fenced ['\''] s ++ rest = '\'' :: (s ++ '\'' :: rest) := by simp [fenced]
  have start : Stops '\'' s := fun first => quoteless (List.mem_of_head? first)
  have solid : ∀ c ∈ s, isControl c = false := fun c inside =>
    solidOfShown (shown c inside) fun same => line (same ▸ inside)
  rw [written, literalOpened (quotedApart start stops), literalRead quoteless solid]

theorem basicBlockForm (stops : Stops '"' rest) :
    string? (fenced ['"', '"', '"'] (opened s (escapedChars true 0 s)) ++ rest) = some (s, rest) := by
  simp only [fenced, List.append_assoc, List.cons_append, List.nil_append, string?]
  exact basicBlockReader.blockRead (escapedPieces s (by decide)) stops rfl

theorem literalBlockForm (shown : ∀ c ∈ s, needsCode c = false) (few : longestRun '\'' s ≤ 2)
    (stops : Stops '\'' rest) :
    string? (fenced ['\'', '\'', '\''] (opened s s) ++ rest) = some (s, rest) := by
  simp only [fenced, List.append_assoc, List.cons_append, List.nil_append, string?]
  exact literalBlockReader.blockRead (longestPieces few shown) stops rfl

theorem stringRead (double : Stops '"' rest) (single : Stops '\'' rest) :
    string? (stringForm s ++ rest) = some (s, rest) := by
  simp only [stringForm]
  split_ifs with quoted literal block literalBlock
  · exact basicForm double
  · exact literalForm (by simpa using literal.1) (longestNone literal.2.1) (by simpa using literal.2.2)
      single
  · exact basicBlockForm double
  · exact literalBlockForm (by simpa using literalBlock.1) literalBlock.2 single
  · exact basicBlockForm double
  · exact basicForm double

end Forms
end SchemaDrift.Toml
