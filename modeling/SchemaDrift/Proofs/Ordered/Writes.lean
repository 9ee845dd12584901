import SchemaDrift.Proofs.Ordered

/-! Stores under any run of insertions and edits. Keys stand in the order of first insertion, and under
each key is what was inserted there last, with the edits made since. One write adds at most the key
that it inserts, and is seen under its own key alone; for runs both follow by induction. -/
namespace SchemaDrift.Ordered
variable {α : Type} {key : String}

inductive Write (α : Type) where
  | insert (key : String) (value : α)
  | modify (key : String) (edit : α → α)

def write (s : Ordered α) : Write α → Ordered α
  | .insert key value => s.insert key value
  | .modify key edit => s.modify key edit

def written (writes : List (Write α)) : Ordered α := writes.foldl write empty

theorem writtenSnoc (writes : List (Write α)) (w : Write α) :
    written (writes ++ [w]) = (written writes).write w := List.foldl_append

theorem filterMapSnoc {β γ : Type} (f : β → Option γ) (xs : List β) (x : β) :
    (xs ++ [x]).filterMap f = xs.filterMap f ++ (f x).toList := by
  rw [List.filterMap_append, List.filterMap_cons, List.filterMap_nil]
  cases f x <;> rfl

section Keys

def Write.inserts? : Write α → Option String
  | .insert key _ => some key
  | .modify _ _ => none

def insertedKeys (writes : List (Write α)) : List String := writes.filterMap Write.inserts?

theorem insertedSnoc (writes : List (Write α)) (w : Write α) :
    insertedKeys (writes ++ [w]) = insertedKeys writes ++ w.inserts?.toList :=
  filterMapSnoc ..

theorem keysWritten (writes : List (Write α)) :
    (written writes).keys = (insertedKeys writes).eraseDups := by
  induction writes using List.reverseRecOn with
  | nil => simp [written, insertedKeys, empty, keys]
  | append_singleton writes w ih =>
    rw [writtenSnoc, insertedSnoc]
    cases w with
    | insert name value =>
      simp only [write, keysInsert, ih, Write.inserts?, Option.toList_some, eraseDupsSnoc,
        List.mem_eraseDups]
    | modify name edit =>
      simp only [write, keysModify, ih, Write.inserts?, Option.toList_none, List.append_nil]

end Keys

section Values

def Write.editAt (key : String) : Write α → α → α
  | .insert _ _ => id
  | .modify name edit => if key = name then edit else id

def edited (key : String) (value : α) (writes : List (Write α)) : α :=
  writes.foldl (fun value w => w.editAt key value) value

theorem editedSnoc (key : String) (value : α) (writes : List (Write α)) (w : Write α) :
    edited key value (writes ++ [w]) = w.editAt key (edited key value writes) := List.foldl_append

/-- What was inserted last under the key, with the edits made since. -/
inductive Latest (writes : List (Write α)) (key : String) : Option α → Prop
  | never (absent : key ∉ insertedKeys writes) : Latest writes key none
  | last {before since : List (Write α)} {value : α}
    (split : writes = before ++ .insert key value :: since) (untouched : key ∉ insertedKeys since) :
    Latest writes key (some (edited key value since))

variable {w : Write α} {found : Option α} {writes : List (Write α)}

theorem getEdited (s : Ordered α) (passed : w.inserts? ≠ some key) :
    (s.write w).get? key = (s.get? key).map (w.editAt key) := by
  cases w with
  | insert name value =>
    have apart : key ≠ name := fun same => passed (congrArg some same.symm)
    simp only [write, getInsert, if_neg apart, Write.editAt, Option.map_id_apply]
  | modify name edit =>
    simp only [write, getModify, Write.editAt]
    split
    · rfl
    · exact (Option.map_id_apply ..).symm

theorem latestEdited (latest : Latest writes key found) (passed : w.inserts? ≠ some key) :
    Latest (writes ++ [w]) key (found.map (w.editAt key)) := by
  have still : ∀ {others}, key ∉ insertedKeys others → key ∉ insertedKeys (others ++ [w]) := by
    intro others absent inside
    rw [insertedSnoc] at inside
    exact (List.mem_append.mp inside).elim absent fun last => passed (Option.mem_toList.mp last)
  cases latest with
  | never absent => exact .never (still absent)
  | @last before since value split untouched =>
    rw [Option.map_some, ← editedSnoc]
    exact .last (by rw [split, List.append_assoc, List.cons_append]) (still untouched)

theorem latestWritten (writes : List (Write α)) (key : String) :
    Latest writes key ((written writes).get? key) := by
  induction writes using List.reverseRecOn with
  | nil => exact .never List.not_mem_nil
  | append_singleton writes w ih =>
    rw [writtenSnoc]
    by_cases passed : w.inserts? = some key
    · cases w with
      | insert name value =>
        obtain rfl : name = key := Option.some.inj passed
        rw [write, getInsert, if_pos rfl]
        exact .last rfl List.not_mem_nil
      | modify name edit => contradiction
    · rw [getEdited _ passed]
      exact latestEdited ih passed

end Values

theorem everyWritten {P : String → α → Prop} {writes : List (Write α)}
    (inserted : ∀ key value, .insert key value ∈ writes → P key value)
    (kept : ∀ key edit value, .modify key edit ∈ writes → P key value → P key (edit value)) :
    ∀ e ∈ (written writes).entries, P e.1 e.2 := by
  induction writes using List.reverseRecOn with
  | nil => exact fun _ inside => by contradiction
  | append_singleton writes w ih =>
    have before := ih (fun key value inside => inserted key value (List.mem_append_left _ inside))
      fun key edit value inside => kept key edit value (List.mem_append_left _ inside)
    intro e inside
    rw [writtenSnoc] at inside
    cases w with
    | insert name value =>
      rcases memInsert inside with rfl | old
      · exact inserted name value List.mem_concat_self
      · exact before e old
    | modify name edit =>
      rcases memModify inside with ⟨old, present, rfl⟩ | other
      · exact kept name edit old List.mem_concat_self (before _ present)
      · exact before e other

end SchemaDrift.Ordered
