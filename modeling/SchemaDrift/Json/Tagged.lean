import SchemaDrift.Json.Decode

/-! Values of several cases in JSON: an object that names the case under one key and holds what
belongs to it under another, in either order, or an array of the two. What stands before the name
has to be usable as a whole, since it is kept until the case is known. -/
namespace SchemaDrift.Json
variable {κ : Type}

structure TagKeys where
  tag : String
  content : String
  distinct : tag ≠ content := by decide

def TagKeys.write (k : TagKeys) (name : String) (content : Json) : Json :=
  .object [(k.tag, .string name), (k.content, content)]

def TagKeys.writeBare (k : TagKeys) (name : String) : Json := .object [(k.tag, .string name)]

def TagKeys.pair (k : TagKeys) (cases : List (String × κ)) (first second : String × Json) :
    Except DecodeError (κ × Option Json) :=
  if first.1 = second.1 then .error (.duplicateField first.1)
  else if first.1 = k.tag then (decodeCase cases first.2).map fun c => (c, some second.2)
  else if first.2.usable then (decodeCase cases second.2).map fun c => (c, some first.2)
  else .error (.wrongType first.2 "any value")

/-- The case that a value names, and what it holds. Other keys are passed over. -/
def TagKeys.read (k : TagKeys) (cases : List (String × κ)) : Decoder (κ × Option Json)
  | .object entries =>
    match entries.filter fun e => e.1 = k.tag ∨ e.1 = k.content with
    | [] => .error (.missingField k.tag)
    | [e] =>
      if e.1 = k.tag then (decodeCase cases e.2).map fun c => (c, none)
      else .error (.missingField k.tag)
    | [first, second] => k.pair cases first second
    | first :: _ => .error (.duplicateField first.1)
  | .array [name, content] => (decodeCase cases name).map fun c => (c, some content)
  | .array items => .error (.wrongLength items.length "a case and its content")
  | j => .error (.wrongType j "a case and its content")

theorem mapOk {α β : Type} {f : α → β} {r : Except DecodeError α} {b : β}
    (h : r.map f = .ok b) : ∃ a, b = f a := by
  cases r with
  | error e => simp [Except.map] at h
  | ok a => exact ⟨a, by simpa [Except.map] using h.symm⟩

theorem TagKeys.pairContent {k : TagKeys} {cases : List (String × κ)} {first second : String × Json}
    {c : κ} {j : Json} (h : k.pair cases first second = .ok (c, some j)) :
    j = first.2 ∨ j = second.2 := by
  unfold TagKeys.pair at h
  split at h
  · simp at h
  · split at h
    · obtain ⟨a, e⟩ := mapOk h
      simp only [Prod.mk.injEq, Option.some.injEq] at e
      exact .inr e.2
    · split at h
      · obtain ⟨a, e⟩ := mapOk h
        simp only [Prod.mk.injEq, Option.some.injEq] at e
        exact .inl e.2
      · simp at h

theorem entrySmaller {entries : List (String × Json)} {e : String × Json} (h : e ∈ entries) :
    sizeOf e.2 < sizeOf (Json.object entries) := by
  have := List.sizeOf_lt_of_mem h
  obtain ⟨key, j⟩ := e
  simp only [Prod.mk.sizeOf_spec, Json.object.sizeOf_spec] at this ⊢
  omega

theorem TagKeys.contentSmaller {k : TagKeys} {cases : List (String × κ)} {j content : Json} {c : κ}
    (h : k.read cases j = .ok (c, some content)) : sizeOf content < sizeOf j := by
  unfold TagKeys.read at h
  split at h
  · rename_i entries
    split at h
    · simp at h
    · split at h
      · obtain ⟨a, e⟩ := mapOk h; simp at e
      · simp at h
    · rename_i first second found
      have inFirst : first ∈ entries := (List.mem_filter.1 (found ▸ List.mem_cons_self)).1
      have inSecond : second ∈ entries :=
        (List.mem_filter.1 (found ▸ List.mem_cons_of_mem _ List.mem_cons_self)).1
      rcases TagKeys.pairContent h with e | e
      · exact e ▸ entrySmaller inFirst
      · exact e ▸ entrySmaller inSecond
    · simp at h
  · obtain ⟨a, e⟩ := mapOk h
    simp only [Prod.mk.injEq, Option.some.injEq] at e
    rw [e.2]
    simp only [Json.array.sizeOf_spec, List.cons.sizeOf_spec]
    omega
  · simp at h
  · simp at h

end SchemaDrift.Json
