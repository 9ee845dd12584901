import Mathlib.Algebra.GroupWithZero.Nat
import Std.Data.HashMap.Lemmas
import SchemaDrift.Proofs.Change.Grouping

/-! Counts by category, taken in one pass and without groups: a map of counts beside the categories
met so far, where a category is new while its count is zero. Changes read so far are tallied, and one
more change keeps that, so every count is there when it is looked up in the end. The counts are the
sizes of the groups, in the same order. -/
namespace SchemaDrift
open SchemaDrift.Ordered

variable {changes : List Change}

def occurrences (changes : List Change) (k : Category) : Nat := changes.countP (·.category == k)

theorem occurrencesSnoc (changes : List Change) (c : Change) (k : Category) :
    occurrences (changes ++ [c]) k =
      if k = c.category then occurrences changes k + 1 else occurrences changes k := by
  unfold occurrences
  by_cases same : k = c.category
  · simp [same]
  · simp [same, Ne.symm same]

theorem occurrencesZero {k : Category} : occurrences changes k = 0 ↔ k ∉ categoriesSeen changes := by
  simp [occurrences, categoriesSeen]

theorem seenAfter {c : Change} {k : Category} :
    k ∈ categoriesSeen (changes ++ [c]) ↔ k ∈ categoriesSeen changes ∨ k = c.category := by
  simp [categoriesSeen]

structure Tallied (changes : List Change) (t : Tally) : Prop where
  order : t.order = categoriesSeen changes
  counts : ∀ k, t.counts[k]? =
    if k ∈ categoriesSeen changes then some (occurrences changes k) else none

namespace Tallied
variable {t : Tally}

theorem start : Tallied [] .empty := ⟨rfl, fun k => by simp [Tally.empty, categoriesSeen]⟩

theorem count (tallied : Tallied changes t) (k : Category) :
    t.counts.getD k 0 = occurrences changes k := by
  rw [Std.HashMap.getD_eq_getD_getElem?, tallied.counts]
  split
  case isTrue => rfl
  case isFalse unseen => exact (occurrencesZero.mpr unseen).symm

theorem add (tallied : Tallied changes t) (c : Change) : Tallied (changes ++ [c]) (t.add c) where
  order := by
    rw [Tally.add, tallied.count, seenSnoc, tallied.order]
    simp only [occurrencesZero, ite_not]
  counts k := by
    simp only [Tally.add, tallied.count, Std.HashMap.getElem?_insert, tallied.counts, seenAfter,
      occurrencesSnoc]
    by_cases same : k = c.category
    · simp [same]
    · simp [same, Ne.symm same]

theorem listed (tallied : Tallied changes t) :
    t.listed? = some ((categoriesSeen changes).map fun k => (k, occurrences changes k)) := by
  rw [Tally.listed?, tallied.order]
  refine mapMEach fun k seen => ?_
  rw [tallied.counts, if_pos seen]
  rfl

end Tallied

theorem changesTallied (changes : List Change) : Tallied changes (tally changes) := by
  induction changes using List.reverseRecOn with
  | nil => exact .start
  | append_singleton changes c ih =>
    rw [tally, List.foldl_append]
    exact ih.add c

theorem ofCategoryLength (changes : List Change) (k : Category) :
    (ofCategory changes k).length = occurrences changes k := by
  rw [ofCategory, occurrences, List.countP_eq_length_filter]
  rfl

structure Partitioned (changes : List Change) (groups : List (Category × List Change)) : Prop
    extends Grouped changes groups where
  occurring : ∀ k, k ∈ groups.map (·.1) ↔ k ∈ changes.map (·.category)
  ordered : (groups.map (·.1)).Pairwise fun j k =>
    (changes.map (·.category)).idxOf j < (changes.map (·.category)).idxOf k

theorem groupCategories (changes : List Change) :
    (groupByCategory changes).map (·.1) = categoriesSeen changes := by
  rw [groupsSeen, List.map_map]
  exact List.map_id _

theorem changesPartitioned (changes : List Change) : Partitioned changes (groupByCategory changes) where
  toGrouped := changesGrouped changes
  occurring k := by
    rw [groupCategories]
    exact List.mem_eraseDups
  ordered := by
    rw [groupCategories]
    exact eraseDupsFirst _

structure Counted (s : ChangeSet) (counts : List (Category × Nat)) : Prop where
  found : (tally s.toList).listed? = some counts
  sizes : counts = (groupByCategory s.toList).map fun g => (g.1, g.2.length)
  total : (counts.map (·.2)).sum = s.size

theorem countsOfGroups (s : ChangeSet) :
    categoryCounts s = (groupByCategory s.toList).map fun g => (g.1, g.2.length) := by
  rw [groupsSeen, List.map_map]
  exact List.map_congr_left fun k _ => congrArg (k, ·) (ofCategoryLength ..).symm

theorem countsTotal (s : ChangeSet) : ((categoryCounts s).map (·.2)).sum = s.size := by
  have lengths := (groupsPerm s.toList).length_eq
  rw [List.length_flatMap] at lengths
  rw [countsOfGroups, List.map_map]
  exact lengths.trans List.length_append

theorem changesCounted (s : ChangeSet) : Counted s (categoryCounts s) where
  found := (changesTallied s.toList).listed
  sizes := countsOfGroups s
  total := countsTotal s

theorem groupedAndCounted :
    (∀ changes, Partitioned changes (groupByCategory changes)) ∧
    ∀ s, Counted s (categoryCounts s) :=
  ⟨changesPartitioned, changesCounted⟩

end SchemaDrift
