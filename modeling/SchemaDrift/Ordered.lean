/-! Insertion-ordered stores: entries under distinct keys, in the order in which the keys were first
inserted. Inserting under a present key replaces the value and keeps the place. -/
namespace SchemaDrift

structure Ordered (α : Type) where
  entries : List (String × α)
  distinct : (entries.map (·.1)).Nodup
  deriving Repr

namespace Ordered
variable {α : Type}

def empty : Ordered α := ⟨[], List.nodup_nil⟩

instance : Inhabited (Ordered α) := ⟨empty⟩

theorem ext {s t : Ordered α} (h : s.entries = t.entries) : s = t := by
  cases s; cases t; cases h; rfl

instance [DecidableEq α] : DecidableEq (Ordered α) := fun s t =>
  if h : s.entries = t.entries then isTrue (ext h) else isFalse fun e => h (e ▸ rfl)

def keys (s : Ordered α) : List String := s.entries.map (·.1)

def values (s : Ordered α) : List α := s.entries.map (·.2)

def size (s : Ordered α) : Nat := s.entries.length

def isEmpty (s : Ordered α) : Bool := s.entries.isEmpty

def get? (s : Ordered α) (key : String) : Option α := s.entries.lookup key

def contains (s : Ordered α) (key : String) : Bool := (s.get? key).isSome

def mapAt (key : String) (f : α → α) (entries : List (String × α)) : List (String × α) :=
  entries.map fun e => if e.1 = key then (e.1, f e.2) else e

theorem keysMapAt (key : String) (f : α → α) (entries : List (String × α)) :
    (mapAt key f entries).map (·.1) = entries.map (·.1) := by
  simp only [mapAt, List.map_map]
  apply List.map_congr_left
  intro e _
  simp only [Function.comp_apply]
  split <;> rfl

theorem containsIff (s : Ordered α) (key : String) : s.contains key = true ↔ key ∈ s.keys := by
  have lookupSome : ∀ entries : List (String × α),
      (entries.lookup key).isSome = true ↔ key ∈ entries.map (·.1) := by
    intro entries
    induction entries with
    | nil => simp
    | cons e rest ih =>
      rw [List.lookup_cons]
      by_cases h : key = e.1
      · simp [h]
      · have : (key == e.1) = false := by simpa using h
        simp only [this, ih, List.map_cons, List.mem_cons, h, false_or]
  exact lookupSome s.entries

def modify (s : Ordered α) (key : String) (f : α → α) : Ordered α :=
  ⟨mapAt key f s.entries, by rw [keysMapAt]; exact s.distinct⟩

def insert (s : Ordered α) (key : String) (value : α) : Ordered α :=
  if h : s.contains key = true then s.modify key fun _ => value
  else ⟨s.entries ++ [(key, value)], by
    have absent : key ∉ s.entries.map (·.1) := fun m => h ((containsIff s key).2 m)
    simp only [List.map_append, List.map_cons, List.map_nil]
    rw [List.nodup_append]
    refine ⟨s.distinct, by simp, ?_⟩
    intro a ha b hb
    simp only [List.mem_singleton] at hb
    subst hb
    exact fun e => absent (e ▸ ha)⟩

def ofList (entries : List (String × α)) : Ordered α :=
  entries.foldl (fun s e => s.insert e.1 e.2) empty

def map {β : Type} (f : α → β) (s : Ordered α) : Ordered β :=
  ⟨s.entries.map fun e => (e.1, f e.2), by simpa [Function.comp_def] using s.distinct⟩

theorem keysModify (s : Ordered α) (key : String) (f : α → α) :
    (s.modify key f).keys = s.keys := keysMapAt key f s.entries

theorem keysInsert (s : Ordered α) (key : String) (value : α) :
    (s.insert key value).keys = if key ∈ s.keys then s.keys else s.keys ++ [key] := by
  unfold insert
  by_cases h : s.contains key = true
  · simp only [h, dite_true, keysModify, (containsIff s key).1 h, if_true]
  · have absent : key ∉ s.keys := fun m => h ((containsIff s key).2 m)
    rw [if_neg absent]
    simp [h, keys]

section Sorting

/-- Puts a value under its key in ascending order of keys; a later value of a key replaces the
earlier one. -/
def insertSorted (key : String) (value : α) : List (String × α) → List (String × α)
  | [] => [(key, value)]
  | (k, v) :: rest =>
    if key < k then (key, value) :: (k, v) :: rest
    else if key = k then (key, value) :: rest
    else (k, v) :: insertSorted key value rest

theorem memInsertSorted {key : String} {value : α} {entries : List (String × α)} {e : String × α}
    (member : e ∈ insertSorted key value entries) : e = (key, value) ∨ e ∈ entries := by
  induction entries with
  | nil => simpa [insertSorted] using member
  | cons head rest ih =>
    obtain ⟨k, v⟩ := head
    simp only [insertSorted] at member
    split at member
    · simpa using member
    · split at member
      · rcases List.mem_cons.mp member with same | inside
        · exact .inl same
        · exact .inr (List.mem_cons_of_mem _ inside)
      · rcases List.mem_cons.mp member with same | inside
        · exact .inr (same ▸ List.mem_cons_self)
        · exact (ih inside).imp_right (List.mem_cons_of_mem _)

def Ascending (entries : List (String × α)) : Prop := entries.Pairwise fun e d => e.1 < d.1

theorem ascendingInsert {key : String} {value : α} {entries : List (String × α)}
    (ascending : Ascending entries) : Ascending (insertSorted key value entries) := by
  induction entries with
  | nil => exact List.pairwise_singleton ..
  | cons head rest ih =>
    obtain ⟨k, v⟩ := head
    obtain ⟨least, tail⟩ := List.pairwise_cons.mp ascending
    simp only [insertSorted]
    split
    case isTrue before =>
      refine List.pairwise_cons.mpr ⟨fun e member => ?_, ascending⟩
      rcases List.mem_cons.mp member with rfl | inside
      · exact before
      · exact String.lt_trans before (least e inside)
    case isFalse notBefore =>
      split
      case isTrue same => exact List.pairwise_cons.mpr ⟨by rw [same]; exact least, tail⟩
      case isFalse different =>
        have after : k < key := String.not_le.mp fun le =>
          different (String.le_antisymm le (String.not_lt.mp notBefore))
        refine List.pairwise_cons.mpr ⟨fun e member => ?_, ih tail⟩
        rcases memInsertSorted member with rfl | old
        · exact after
        · exact least e old

def sortEntries (entries : List (String × α)) : List (String × α) :=
  entries.foldl (fun sorted e => insertSorted e.1 e.2 sorted) []

theorem ascendingSort (entries : List (String × α)) : Ascending (sortEntries entries) := by
  have run : ∀ (entries sorted : List (String × α)), Ascending sorted →
      Ascending (entries.foldl (fun sorted e => insertSorted e.1 e.2 sorted) sorted) := by
    intro entries
    induction entries with
    | nil => exact fun _ ascending => ascending
    | cons e rest ih => exact fun _ ascending => ih _ (ascendingInsert ascending)
  exact run entries [] .nil

def sortedOfList (entries : List (String × α)) : Ordered α :=
  ⟨sortEntries entries, (ascendingSort entries).map _ fun _ _ => String.ne_of_lt⟩

end Sorting

end Ordered
end SchemaDrift
