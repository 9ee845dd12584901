import SchemaDrift.Text.Blank
import SchemaDrift.Text.Numeral
import SchemaDrift.Text.Utf8

/-! String lexemes of schema documents, quoted and block, and the texts they denote. `extent` gives
how many characters the lexeme has; a lexeme that never closes has none. -/
namespace SchemaDrift.Sdl
open Text

def quotedExtent (escaped : Bool) : List Char → Option Nat
  | [] => none
  | c :: cs =>
    if c = '\n' then none
    else if c = '"' ∧ !escaped then some 1
    else (quotedExtent (!escaped && c == '\\') cs).map (· + 1)

def escape? : List Char → Option (Char × List Char)
  | 'b' :: cs => some (Char.ofNat 0x10, cs)
  | 'f' :: cs => some (Char.ofNat 0x0C, cs)
  | 'n' :: cs => some ('\n', cs)
  | 'r' :: cs => some ('\r', cs)
  | 't' :: cs => some ('\t', cs)
  | 'u' :: a :: b :: c :: d :: cs => do
    let n ← readHex? (if a = '+' then [b, c, d] else [a, b, c, d])
    if n.isValidChar then some (Char.ofNat n, cs) else none
  | c :: cs => if c = '"' ∨ c = '\\' ∨ c = '/' then some (c, cs) else none
  | [] => none

theorem escapeShorter {cs rest : List Char} {c : Char} (h : escape? cs = some (c, rest)) :
    rest.length < cs.length := by
  unfold escape? at h
  split at h <;> try (simp only [Option.some.injEq, Prod.mk.injEq] at h; simp [h.2])
  · simp only [bind, Option.bind_eq_some_iff] at h
    obtain ⟨n, _, h⟩ := h
    split at h
    · simp only [Option.some.injEq, Prod.mk.injEq] at h; rw [← h.2]; simp only [List.length_cons]; omega
    · simp at h
  · split at h
    · simp only [Option.some.injEq, Prod.mk.injEq] at h; simp [h.2]
    · simp at h
  · simp at h

def unescape : List Char → Option (List Char)
  | [] => some []
  | c :: cs =>
    if c = '\\' then
      match _h : escape? cs with
      | some (value, rest) => (unescape rest).map (value :: ·)
      | none => none
    else (unescape cs).map (c :: ·)
termination_by cs => cs.length
decreasing_by
  · have := escapeShorter _h; simp only [List.length_cons]; omega
  · simp

/-- Characters up to and including the three quotes that close a block, after the opening ones.
Three quotes after a backslash belong to the block, all of them. -/
def blockExtent (previous : Char) : List Char → Option Nat
  | '"' :: '"' :: '"' :: cs =>
    if previous = '\\' then (blockExtent '"' cs).map (· + 3) else some 3
  | c :: cs => (blockExtent c cs).map (· + 1)
  | [] => none

/-- A carriage return before the line feed belongs to the line end; a final line end adds no
line. -/
def closeLines : List (List Char) → List (List Char)
  | [] => []
  | [last] => if last.isEmpty then [] else [last]
  | line :: rest => (if line.getLast? = some '\r' then line.dropLast else line) :: closeLines rest

def lines (cs : List Char) : List (List Char) := closeLines (cs.splitOn '\n')

def indent? (line : List Char) : Option Nat :=
  if line.all isBlank then none else some (octetLength (line.takeWhile isBlank))

def dropBlankLines (ls : List (List Char)) : List (List Char) := ls.dropWhile (·.all isBlank)

def unescapeBlock : List Char → List Char
  | '\\' :: '"' :: '"' :: '"' :: cs => '"' :: '"' :: '"' :: unescapeBlock cs
  | c :: cs => c :: unescapeBlock cs
  | [] => []

/-- The text of a block: the common indent of all lines but the first is dropped, then blank lines
at both ends. -/
def blockText (content : List Char) : List Char :=
  let all := lines content
  let common := (all.drop 1).filterMap indent?
  let strip (line : List Char) : List Char :=
    match common.min? with
    | some n => if n ≤ octetLength line then dropOctets n line else line
    | none => line
  let outdented := all.take 1 ++ (all.drop 1).map strip
  let trimmed := (dropBlankLines (dropBlankLines outdented).reverse).reverse
  ['\n'].intercalate (trimmed.map unescapeBlock)

end SchemaDrift.Sdl
