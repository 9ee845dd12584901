import SchemaDrift.Proofs.Ordered

/-! Two lists merged into one that keeps the order of each. What is made of the merged list element by
element is merged of what is made of the two, so a merge passes through filters and concatenations;
a store that is merged of two is looked up in the one that may have the key. -/
namespace SchemaDrift

inductive Interleaved {α : Type} : List α → List α → List α → Prop
  | nil : Interleaved [] [] []
  | left {x : α} {xs ys zs : List α} (rest : Interleaved xs ys zs) : Interleaved (x :: xs) ys (x :: zs)
  | right {y : α} {xs ys zs : List α} (rest : Interleaved xs ys zs) :
    Interleaved xs (y :: ys) (y :: zs)

namespace Interleaved
variable {α β : Type} {xs ys zs us vs ws : List α}

theorem swap (merged : Interleaved xs ys zs) : Interleaved ys xs zs := by
  induction merged with
  | nil => exact .nil
  | left _ ih => exact .right ih
  | right _ ih => exact .left ih

theorem leftOnly (xs : List α) : Interleaved xs [] xs := by
  induction xs with
  | nil => exact .nil
  | cons x rest ih => exact .left ih

theorem rightOnly (ys : List α) : Interleaved [] ys ys := (leftOnly ys).swap

theorem append (first : Interleaved xs ys zs) (second : Interleaved us vs ws) :
    Interleaved (xs ++ us) (ys ++ vs) (zs ++ ws) := by
  induction first with
  | nil => exact second
  | left _ ih => exact .left ih
  | right _ ih => exact .right ih

theorem memIff (merged : Interleaved xs ys zs) {z : α} : z ∈ zs ↔ z ∈ xs ∨ z ∈ ys := by
  induction merged with
  | nil => simp
  | left _ ih => simp only [List.mem_cons, ih, or_assoc]
  | right _ ih => simp only [List.mem_cons, ih, or_left_comm]

theorem map (f : α → β) (merged : Interleaved xs ys zs) :
    Interleaved (xs.map f) (ys.map f) (zs.map f) := by
  induction merged with
  | nil => exact .nil
  | left _ ih => exact .left ih
  | right _ ih => exact .right ih

theorem flatMap {f g h : α → List β} (merged : Interleaved xs ys zs) (left : ∀ x ∈ xs, h x = f x)
    (right : ∀ y ∈ ys, h y = g y) :
    Interleaved (xs.flatMap f) (ys.flatMap g) (zs.flatMap h) := by
  induction merged with
  | nil => exact .nil
  | left _ ih =>
    obtain ⟨here, later⟩ := List.forall_mem_cons.mp left
    simp only [List.flatMap_cons, here]
    exact (leftOnly _).append (ih later right)
  | right _ ih =>
    obtain ⟨here, later⟩ := List.forall_mem_cons.mp right
    simp only [List.flatMap_cons, here]
    exact (rightOnly _).append (ih left later)

theorem filter (keep : α → Bool) (merged : Interleaved xs ys zs) :
    Interleaved (xs.filter keep) (ys.filter keep) (zs.filter keep) := by
  have single : ∀ l : List α, l.filter keep = l.flatMap fun x => [x].filter keep := by
    intro l
    rw [← List.filter_flatMap, List.flatMap_singleton']
  rw [single, single, single]
  exact merged.flatMap (fun _ _ => rfl) fun _ _ => rfl

theorem ofFilter (keep : α → Bool) (xs : List α) :
    Interleaved (xs.filter keep) (xs.filter fun x => !keep x) xs := by
  induction xs with
  | nil => exact .nil
  | cons x rest ih =>
    cases kept : keep x with
    | true =>
      rw [List.filter_cons_of_pos kept, List.filter_cons_of_neg (by simp [kept])]
      exact .left ih
    | false =>
      rw [List.filter_cons_of_neg (by simp [kept]), List.filter_cons_of_pos (by simp [kept])]
      exact .right ih

theorem concat {ι : Type} {f g h : ι → List α} {parts : List ι}
    (each : ∀ i ∈ parts, Interleaved (f i) (g i) (h i)) :
    Interleaved (parts.flatMap f) (parts.flatMap g) (parts.flatMap h) := by
  induction parts with
  | nil => exact .nil
  | cons i rest ih =>
    obtain ⟨here, later⟩ := List.forall_mem_cons.mp each
    simp only [List.flatMap_cons]
    exact here.append (ih later)

end Interleaved

namespace Ordered
variable {α : Type} {s t u : Ordered α} {key : String}

theorem getLeft (merged : Interleaved s.entries t.entries u.entries) (absent : key ∉ t.keys) :
    u.get? key = s.get? key := by
  refine Option.ext fun value => ?_
  rw [getIffMem, getIffMem, merged.memIff]
  exact or_iff_left fun inside => absent (List.mem_map_of_mem inside)

theorem getRight (merged : Interleaved s.entries t.entries u.entries) (absent : key ∉ s.keys) :
    u.get? key = t.get? key := getLeft merged.swap absent

end Ordered
end SchemaDrift
