import SchemaDrift.Proofs.Schema.Names

/-! The texts of type references. The marks at the end of a text are those of the wrappers, the
outermost one last, and a name has no marks; so a reference is read back from its text, and no two
references share one. -/
namespace SchemaDrift.TypeRef

/- What stands around a name: the marks of wrappers and, in messages, the ticks around a text. -/
def marks : List Char := ['[', ']', '!', '\x60']

def Unmarked (t : TypeRef) : Prop := ∀ c ∈ t.core.toList, c ∉ marks

instance : DecidablePred Unmarked := fun t => List.decidableBAll _ t.core.toList

theorem unmarkedOfName {t : TypeRef} (named : IsName t.core) : t.Unmarked := by
  intro c inside mark
  simp only [marks, List.mem_cons, List.not_mem_nil, or_false] at mark
  rcases mark with rfl | rfl | rfl | rfl <;> exact markNotInName named rfl inside

/- From the end of a text on. What opens a list tells nothing that its end has not told. -/
def ofReversed : List Char → TypeRef
  | '!' :: rest => .nonNull (ofReversed rest)
  | ']' :: rest => .list (ofReversed rest)
  | rest => .named (String.ofList (rest.takeWhile (· != '[')).reverse)

def ofText (s : String) : TypeRef := ofReversed s.toList.reverse

theorem namedOfReversed {cs : List Char} (unclosed : ∀ c ∈ cs, c ≠ '!' ∧ c ≠ ']') :
    ofReversed cs = .named (String.ofList (cs.takeWhile (· != '[')).reverse) := by
  unfold ofReversed
  split
  · exact absurd rfl (unclosed _ List.mem_cons_self).1
  · exact absurd rfl (unclosed _ List.mem_cons_self).2
  · rfl

theorem nameRead {name : String} (clean : (TypeRef.named name).Unmarked) (openings : Nat) :
    ofReversed (name.toList.reverse ++ List.replicate openings '[') = .named name := by
  have apart : ∀ c ∈ name.toList.reverse, c ≠ '[' ∧ c ≠ ']' ∧ c ≠ '!' ∧ c ≠ '\x60' := by
    intro c inside
    simpa [marks] using clean c (List.mem_reverse.mp inside)
  have unclosed : ∀ c ∈ name.toList.reverse ++ List.replicate openings '[', c ≠ '!' ∧ c ≠ ']' := by
    intro c inside
    rcases List.mem_append.mp inside with here | opening
    · exact ⟨(apart c here).2.2.1, (apart c here).2.1⟩
    · rw [List.eq_of_mem_replicate opening]
      decide
  have unopened : ∀ c ∈ name.toList.reverse, (c != '[') = true :=
    fun c inside => bne_iff_ne.mpr (apart c inside).1
  rw [namedOfReversed unclosed, List.takeWhile_append_of_pos unopened, List.takeWhile_replicate]
  simp

theorem reversedRead {t : TypeRef} (clean : t.Unmarked) (openings : Nat) :
    ofReversed (t.text.toList.reverse ++ List.replicate openings '[') = t := by
  induction t generalizing openings with
  | named name => exact nameRead clean openings
  | list item ih =>
    have closed : (TypeRef.list item).text.toList.reverse ++ List.replicate openings '[' =
        ']' :: (item.text.toList.reverse ++ List.replicate (openings + 1) '[') := by
      simp [text, List.replicate_succ]
    rw [closed, ofReversed, ih clean]
  | nonNull inner ih =>
    have closed : (TypeRef.nonNull inner).text.toList.reverse ++ List.replicate openings '[' =
        '!' :: (inner.text.toList.reverse ++ List.replicate openings '[') := by
      simp [text]
    rw [closed, ofReversed, ih clean]

theorem textRead {t : TypeRef} (clean : t.Unmarked) : ofText t.text = t := by
  have read := reversedRead clean 0
  rwa [List.replicate_zero, List.append_nil] at read

theorem textSame {a b : TypeRef} (left : a.Unmarked) (right : b.Unmarked) :
    a.text = b.text ↔ a = b := by
  refine ⟨fun same => ?_, congrArg text⟩
  calc
    a = ofText a.text := (textRead left).symm
    _ = ofText b.text := congrArg ofText same
    _ = b := textRead right

theorem tickNotInText {t : TypeRef} (clean : t.Unmarked) : '\x60' ∉ t.text.toList := by
  induction t with
  | named name => exact fun inside => clean _ inside (by decide)
  | list item ih => simpa [text] using ih clean
  | nonNull inner ih => simpa [text] using ih clean

end SchemaDrift.TypeRef
