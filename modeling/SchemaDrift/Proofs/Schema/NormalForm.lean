import Mathlib.Data.List.Perm.Subperm
import Mathlib.Data.List.Nodup
import SchemaDrift.Proofs.Schema.Literal

/-! Normal forms of literals: the entries of every object in ascending order of their keys. Constants
without floats are the same exactly where their normal forms are equal, so nothing but the order of
keys may differ between them. -/
namespace SchemaDrift.Literal

def FloatFree (v : Literal) : Prop := ∀ x, .float x ∉ v.scalars

def sortedByKey (entries : List (String × Literal)) : List (String × Literal) :=
  entries.mergeSort fun e d => decide (e.1 ≤ d.1)

mutual
def normal : Literal → Literal
  | .list items => .list (normalItems items)
  | .object entries => .object (sortedByKey (normalEntries entries))
  | v => v

def normalItems : List Literal → List Literal
  | [] => []
  | v :: rest => v.normal :: normalItems rest

def normalEntries : List (String × Literal) → List (String × Literal)
  | [] => []
  | (key, v) :: rest => (key, v.normal) :: normalEntries rest
end

theorem normalEntriesMap (entries : List (String × Literal)) :
    normalEntries entries = entries.map fun e => (e.1, e.2.normal) := by
  induction entries with
  | nil => rfl
  | cons e rest ih => rw [normalEntries, ih, List.map_cons]

theorem sortedIff {entries others : List (String × Literal)} (distinct : (entries.map (·.1)).Nodup) :
    sortedByKey entries = sortedByKey others ↔ entries.Perm others := by
  have perm : ∀ es : List (String × Literal), (sortedByKey es).Perm es :=
    fun es => List.mergeSort_perm es _
  have ascending : ∀ es : List (String × Literal), (sortedByKey es).Pairwise fun e d => e.1 ≤ d.1 := by
    intro es
    refine (List.pairwise_mergeSort ?_ ?_ es).imp of_decide_eq_true
    · simpa using fun _ _ _ => String.le_trans
    · simpa using String.le_total
  constructor
  · intro same
    exact (perm entries).symm.trans (same ▸ perm others)
  · intro moved
    refine List.Perm.eq_of_pairwise ?_ (ascending entries) (ascending others)
      ((perm entries).trans (moved.trans (perm others).symm))
    intro e d inside there before after
    have member : d ∈ entries := moved.mem_iff.mpr ((perm others).mem_iff.mp there)
    exact List.inj_on_of_nodup_map distinct ((perm entries).mem_iff.mp inside) member
      (String.le_antisymm before after)

theorem sameItemsNormal {xs ys : List Literal}
    (each : ∀ x ∈ xs, ∀ y ∈ ys, (x.same y = true ↔ x.normal = y.normal)) :
    sameItems xs ys = true ↔ normalItems xs = normalItems ys := by
  induction xs generalizing ys with
  | nil => cases ys <;> simp [sameItems, normalItems]
  | cons x xs ih =>
    cases ys with
    | nil => simp [sameItems, normalItems]
    | cons y ys =>
      have rest := ih fun v inside w there =>
        each v (List.mem_cons_of_mem _ inside) w (List.mem_cons_of_mem _ there)
      simp only [sameItems, normalItems, Bool.and_eq_true, List.cons.injEq, rest,
        each x List.mem_cons_self y List.mem_cons_self]

/- As many entries, each with a counterpart, under distinct keys: none is left over. -/
theorem sameEntriesNormal {entries others : List (String × Literal)}
    (distinct : (entries.map (·.1)).Nodup) (unique : (others.map (·.1)).Nodup)
    (each : ∀ e ∈ entries, ∀ d ∈ others, (e.2.same d.2 = true ↔ e.2.normal = d.2.normal)) :
    (object entries).same (.object others) = true ↔
      (normalEntries entries).Perm (normalEntries others) := by
  rw [sameObject, normalEntriesMap, normalEntriesMap]
  constructor
  · rintro ⟨size, found⟩
    have single : (entries.map fun e => (e.1, e.2.normal)).Nodup :=
      List.Nodup.of_map Prod.fst (by simpa [Function.comp_def] using distinct)
    refine (List.subperm_of_subset single fun d inside => ?_).perm_of_length_le (by simp [size])
    obtain ⟨e, member, rfl⟩ := List.mem_map.mp inside
    obtain ⟨y, there, same⟩ := found e member
    have other := Ordered.memOfLookup there
    exact List.mem_map.mpr ⟨_, other, Prod.ext rfl ((each e member _ other).mp same).symm⟩
  · intro moved
    refine ⟨by simpa using moved.length_eq, fun e inside => ?_⟩
    obtain ⟨d, there, same⟩ := List.mem_map.mp (moved.mem_iff.mp (List.mem_map_of_mem inside))
    obtain ⟨key, value⟩ := Prod.mk.inj same
    exact ⟨d.2, key ▸ Ordered.lookupOfMem unique there, (each e inside d there).mpr value.symm⟩

theorem sameIffNormal (a b : Constant) (left : a.literal.FloatFree) (right : b.literal.FloatFree) :
    a.literal.same b.literal = true ↔ a.literal.normal = b.literal.normal := by
  induction a using Constant.nestedInduction generalizing b with
  | float x => exact absurd List.mem_cons_self (left x)
  | integer i =>
    induction b using Constant.nestedInduction with
    | integer j => simp [same, normal]
    | float y => exact absurd List.mem_cons_self (right y)
    | _ => simp [same, normal]
  | list items ih =>
    induction b using Constant.nestedInduction with
    | list others _ =>
      rw [Constant.literalList, Constant.literalList, same, normal, normal, Literal.list.injEq]
      refine sameItemsNormal (List.forall_mem_map.mpr fun c inside => List.forall_mem_map.mpr fun d there => ?_)
      refine ih c inside d (fun z member => left z ?_) fun z member => right z ?_
      · exact memItemScalars.mpr ⟨_, List.mem_map_of_mem inside, member⟩
      · exact memItemScalars.mpr ⟨_, List.mem_map_of_mem there, member⟩
    | _ => simp [same, normal]
  | object s ih =>
    induction b using Constant.nestedInduction with
    | object t _ =>
      have keys : ((normalEntries (s.entries.map fun e => (e.1, e.2.literal))).map (·.1)).Nodup := by
        simpa [normalEntriesMap, Function.comp_def] using s.distinct
      rw [Constant.literalObject, Constant.literalObject, normal, normal, Literal.object.injEq, sortedIff keys]
      refine sameEntriesNormal (s.map (·.literal)).distinct (t.map (·.literal)).distinct
        (List.forall_mem_map.mpr fun e inside => List.forall_mem_map.mpr fun d there => ?_)
      refine ih e inside d.2 (fun z member => left z ?_) fun z member => right z ?_
      · exact memEntryScalars.mpr ⟨_, List.mem_map_of_mem inside, member⟩
      · exact memEntryScalars.mpr ⟨_, List.mem_map_of_mem there, member⟩
    | _ => simp [same, normal]
  | _ => induction b using Constant.nestedInduction <;> simp [same, normal]

section Examples

def filterLiteral : Constant := .object ⟨[
  ("tags", .list [.object ⟨[("b", .null), ("a", .integer 1)], by decide⟩]),
  ("order", .enumValue "ASC")], by decide⟩

def filterReordered : Constant := .object ⟨[("order", .enumValue "ASC"),
  ("tags", .list [.object ⟨[("a", .integer 1), ("b", .null)], by decide⟩])], by decide⟩

def filterQuoted : Constant := .object ⟨[("order", .string "ASC"),
  ("tags", .list [.object ⟨[("a", .integer 1), ("b", .null)], by decide⟩])], by decide⟩

theorem sameIffNormalReordered :
    filterLiteral.literal.normal = filterReordered.literal.normal ∧
    filterLiteral.literal.normal ≠ filterQuoted.literal.normal := by
  have floats : filterLiteral.literal.FloatFree ∧ filterReordered.literal.FloatFree ∧
      filterQuoted.literal.FloatFree := by
    simp [FloatFree, filterLiteral, filterReordered, filterQuoted, scalars, itemScalars, entryScalars]
  constructor
  · exact (sameIffNormal _ _ floats.1 floats.2.1).mp (by decide +kernel)
  · intro equal
    have same := (sameIffNormal _ _ floats.1 floats.2.2).mpr equal
    have different : filterLiteral.literal.same filterQuoted.literal = false := by decide +kernel
    rw [different] at same
    contradiction

end Examples

end SchemaDrift.Literal
