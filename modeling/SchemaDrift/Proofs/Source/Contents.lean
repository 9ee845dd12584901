import SchemaDrift.Proofs.Text.Base64
import SchemaDrift.Source.GitHub

/-! The text of a file on its way through the contents interface. Blanks may stand anywhere in base64,
inside a group or among the padding too, since no character of it is one; without them, what is
accepted is exactly the base64 of the text that is given back. -/
namespace SchemaDrift.GitHub
open Text

inductive Spaced : List Char → List Char → Prop where
  | done : Spaced [] []
  | keep (c : Char) {plain spaced : List Char} (rest : Spaced plain spaced) :
      Spaced (c :: plain) (c :: spaced)
  | blank {c : Char} (isBlank : isAsciiBlank c = true) {plain spaced : List Char}
      (rest : Spaced plain spaced) : Spaced plain (c :: spaced)

def unspaced (s : List Char) : List Char := s.filter (!isAsciiBlank ·)

theorem unspacedSpaced {plain spaced : List Char} (h : Spaced plain spaced)
    (solid : ∀ c ∈ plain, isAsciiBlank c = false) : unspaced spaced = plain := by
  unfold unspaced
  induction h with
  | done => rfl
  | keep c rest ih =>
    rw [List.forall_mem_cons] at solid
    rw [List.filter_cons_of_pos (by simp [solid.1]), ih solid.2]
  | blank isBlank rest ih => rw [List.filter_cons_of_neg (by simp [isBlank]), ih solid]

theorem encodedSolid (octets : List UInt8) : ∀ c ∈ encodeBase64 octets, isAsciiBlank c = false :=
  encodedMade (by decide) (by decide) octets

def octets (t : String) : List UInt8 := t.toUTF8.data.toList

theorem contentDecoded {content t : String} :
    decodeContent content = .ok t ↔ unspaced content.toList = encodeBase64 (octets t) := by
  unfold decodeContent
  rw [octets, ← octetsOfText, ← decodeBase64Iff, ← unspaced]
  constructor
  · intro decoded
    split at decoded
    case h_1 => contradiction
    case h_2 found =>
      split at decoded
      case h_1 read =>
        cases decoded
        rw [found, decodeUtf8Iff.mp read, String.toList_ofList]
      case h_2 => contradiction
  · intro found
    have read : decodeUtf8 (encodeUtf8 t.toList) = .ok t.toList := decodeUtf8Iff.mpr rfl
    simp only [found, read, String.ofList_toList]

theorem textOfBase64 {c : Contents} {a : Address} {t : String} (encoded : c.encoding = some "base64") :
    c.text a = .ok t ↔ (c.kind = none ∨ c.kind = some "file") ∧
      ∃ content, c.content = some content ∧ decodeContent content = .ok t := by
  obtain ⟨kind, content, encoding⟩ := c
  cases encoded
  have file : kind.filter (· ≠ "file") = none ↔ kind = none ∨ kind = some "file" := by
    cases kind <;> simp [Option.filter]
  rw [← file]
  cases other : kind.filter (· ≠ "file") with
  | some kind => simp only [Contents.text, other, reduceCtorEq, false_and]
  | none =>
    cases content with
    | none => simp only [Contents.text, other, reduceCtorEq, false_and, exists_false, and_false]
    | some content => simp only [Contents.text, other, Option.some.injEq, exists_eq_left', true_and]

theorem contentTransported :
    (∀ (t content : String) (kind : Option String) (a : Address),
      kind = none ∨ kind = some "file" → Spaced (encodeBase64 (octets t)) content.toList →
        Contents.text ⟨kind, some content, some "base64"⟩ a = .ok t) ∧
    ∀ (c : Contents) (a : Address) (t : String), c.encoding = some "base64" → c.text a = .ok t →
      ∃ content, c.content = some content ∧
        encodeBase64 (octets t) = unspaced content.toList := by
  constructor
  · intro t content kind a file spaced
    have decoded := contentDecoded.mpr (unspacedSpaced spaced (encodedSolid _))
    exact (textOfBase64 rfl).mpr ⟨file, content, rfl, decoded⟩
  · intro c a t encoded accepted
    obtain ⟨_, content, sent, decoded⟩ := (textOfBase64 encoded).mp accepted
    exact ⟨content, sent, (contentDecoded.mp decoded).symm⟩

theorem contentTransportedBroken :
    encodeBase64 (octets "é") = ['w', '6', 'k', '='] ∧
    Contents.text ⟨some "file", some "w6\nk\r\n =\n", some "base64"⟩ ⟨"schema.graphql", none⟩ = .ok "é" ∧
    ∃ content, some "w6\nk\r\n =\n" = some content ∧
      encodeBase64 (octets "é") = unspaced content.toList := by
  have written : encodeBase64 (octets "é") = ['w', '6', 'k', '='] := by
    rw [octets, ← octetsOfText]
    decide
  have spaced : Spaced (encodeBase64 (octets "é")) "w6\nk\r\n =\n".toList := by
    rw [written]
    exact .keep 'w' (.keep '6' (.blank (by decide) (.keep 'k' (.blank (by decide) (.blank (by decide)
      (.blank (by decide) (.keep '=' (.blank (by decide) .done))))))))
  have accepted := contentTransported.1 "é" _ (some "file") ⟨"schema.graphql", none⟩ (.inr rfl) spaced
  exact ⟨written, accepted, contentTransported.2 _ _ _ rfl accepted⟩

end SchemaDrift.GitHub
