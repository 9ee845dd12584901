import SchemaDrift.Change.Grouping
import SchemaDrift.Proofs.Ordered

/-! Groups by category. Adding a change keeps the groups what they are: one for each category seen so
far, in the order of first occurrence, that holds the changes of the category in order. -/
namespace SchemaDrift
open SchemaDrift.Ordered

variable {changes : List Change}

theorem groupsSnoc (changes : List Change) (c : Change) :
    groupByCategory (changes ++ [c]) = addToGroups (groupByCategory changes) c := by
  rw [groupByCategory, List.foldl_append]
  rfl

theorem seenSnoc (changes : List Change) (c : Change) :
    categoriesSeen (changes ++ [c]) =
      if c.category ∈ categoriesSeen changes then categoriesSeen changes
      else categoriesSeen changes ++ [c.category] := by
  simp only [categoriesSeen, List.map_append, List.map_cons, List.map_nil, eraseDupsSnoc,
    List.mem_eraseDups]

theorem seenNodup (changes : List Change) : (categoriesSeen changes).Nodup := eraseDupsNodup _

def ofCategory (changes : List Change) (k : Category) : List Change :=
  changes.filter fun c => c.category = k

theorem ofCategorySnoc (changes : List Change) (c : Change) (k : Category) :
    ofCategory (changes ++ [c]) k =
      if c.category = k then ofCategory changes k ++ [c] else ofCategory changes k := by
  unfold ofCategory
  rw [List.filter_append]
  split <;> simp [*]

theorem addedToGroups {categories : List Category} (distinct : categories.Nodup) {c : Change}
    (fresh : c.category ∉ categories → ofCategory changes c.category = []) :
    addToGroups (categories.map fun k => (k, ofCategory changes k)) c =
      (if c.category ∈ categories then categories else categories ++ [c.category]).map
        fun k => (k, ofCategory (changes ++ [c]) k) := by
  induction categories with
  | nil =>
    have nothing := fresh List.not_mem_nil
    simp [addToGroups, ofCategorySnoc, nothing]
  | cons k rest ih =>
    obtain ⟨absent, distinct⟩ := List.nodup_cons.mp distinct
    rw [List.map_cons, addToGroups]
    by_cases here : k = c.category
    · subst here
      have elsewhere : ∀ j ∈ rest, ofCategory (changes ++ [c]) j = ofCategory changes j :=
        fun j inside => by
          rw [ofCategorySnoc, if_neg fun same : c.category = j => absent (same ▸ inside)]
      rw [if_pos rfl, if_pos List.mem_cons_self, List.map_cons, ofCategorySnoc, if_pos rfl]
      exact congrArg _ (List.map_congr_left fun j inside => by rw [elsewhere j inside])
    · have later := ih distinct fun unseen => fresh (by simp [Ne.symm here, unseen])
      rw [if_neg here, later]
      by_cases seen : c.category ∈ rest <;> simp [seen, Ne.symm here, ofCategorySnoc]

theorem addedPerm (groups : List (Category × List Change)) (c : Change) :
    ((addToGroups groups c).flatMap (·.2)).Perm (groups.flatMap (·.2) ++ [c]) := by
  induction groups with
  | nil => rfl
  | cons g rest ih =>
    rw [addToGroups]
    split
    · simpa using (List.perm_append_singleton c _).symm.append_left g.2
    · simpa using ih.append_left g.2

theorem groupsSeen (changes : List Change) :
    groupByCategory changes = (categoriesSeen changes).map fun k => (k, ofCategory changes k) := by
  induction changes using List.reverseRecOn with
  | nil => rfl
  | append_singleton changes c ih =>
    have fresh : c.category ∉ categoriesSeen changes → ofCategory changes c.category = [] := by
      intro unseen
      refine List.filter_eq_nil_iff.mpr fun d inside same => unseen ?_
      exact List.mem_eraseDups.mpr (List.mem_map.mpr ⟨d, inside, of_decide_eq_true same⟩)
    rw [groupsSnoc, seenSnoc, ih, addedToGroups (seenNodup changes) fresh]

theorem groupsPerm (changes : List Change) : ((groupByCategory changes).flatMap (·.2)).Perm changes := by
  induction changes using List.reverseRecOn with
  | nil => rfl
  | append_singleton changes c ih =>
    rw [groupsSnoc]
    exact (addedPerm _ c).trans (ih.append_right _)

structure Grouped (changes : List Change) (groups : List (Category × List Change)) : Prop where
  categories : (groups.map (·.1)).Nodup
  members : ∀ g ∈ groups, g.2 = ofCategory changes g.1
  inhabited : ∀ g ∈ groups, g.2 ≠ []
  everyChange : (groups.flatMap (·.2)).Perm changes

theorem changesGrouped (changes : List Change) : Grouped changes (groupByCategory changes) where
  categories := by
    rw [groupsSeen, List.map_map]
    exact (List.map_id _).symm ▸ seenNodup changes
  members := by
    intro g inside
    rw [groupsSeen] at inside
    obtain ⟨k, _, rfl⟩ := List.mem_map.mp inside
    rfl
  inhabited := by
    intro g inside
    rw [groupsSeen] at inside
    obtain ⟨k, seen, rfl⟩ := List.mem_map.mp inside
    obtain ⟨c, member, rfl⟩ := List.mem_map.mp (List.mem_eraseDups.mp seen)
    exact List.ne_nil_of_mem (List.mem_filter.mpr ⟨member, decide_eq_true rfl⟩)
  everyChange := groupsPerm changes

theorem breakingGroupsFirst {breaking dangerous : List Change} (severe : ∀ c ∈ breaking, c.isBreaking = true)
    (mild : ∀ c ∈ dangerous, c.isBreaking = false) :
    (groupByCategory (breaking ++ dangerous)).Pairwise
      fun g h => h.1.isBreaking = true → g.1.isBreaking = true := by
  have ordered : ((breaking ++ dangerous).map (·.category)).Pairwise
      fun j k => k.isBreaking = true → j.isBreaking = true := by
    rw [List.pairwise_map, List.pairwise_append]
    exact ⟨List.pairwise_of_forall_mem_list fun c inside _ _ _ => severe c inside,
      List.pairwise_of_forall_mem_list fun _ _ d inside breaks =>
        absurd breaks (Bool.eq_false_iff.mp (mild d inside)),
      fun c inside _ _ _ => severe c inside⟩
  rw [groupsSeen, List.pairwise_map]
  exact ordered.sublist (eraseDupsSublist _)

end SchemaDrift
