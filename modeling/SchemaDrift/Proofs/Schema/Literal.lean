import Mathlib.Data.List.Forall2
import SchemaDrift.Proofs.Ordered
import SchemaDrift.Schema.Literal

/-! Literals by what they hold. Sameness goes into lists and objects item by item, which an induction
over all that a literal holds follows. For constants the induction is over the stores themselves, and
sameness is reflexive, NaN included. -/
namespace SchemaDrift.Literal

theorem nestedInduction {P : Literal → Prop} (null : P .null) (boolean : ∀ b, P (.boolean b))
    (integer : ∀ i, P (.integer i)) (float : ∀ x, P (.float x)) (string : ∀ s, P (.string s))
    (enumValue : ∀ name, P (.enumValue name))
    (list : ∀ items, (∀ v ∈ items, P v) → P (.list items))
    (object : ∀ entries : List (String × Literal), (∀ e ∈ entries, P e.2) → P (.object entries))
    (v : Literal) : P v :=
  @Literal.rec P (fun items => ∀ v ∈ items, P v) (fun entries => ∀ e ∈ entries, P e.2) (fun e => P e.2)
    null boolean integer float string enumValue list object
    (fun _ inside => by contradiction) (fun _ _ head tail => List.forall_mem_cons.mpr ⟨head, tail⟩)
    (fun _ inside => by contradiction) (fun _ _ head tail => List.forall_mem_cons.mpr ⟨head, tail⟩)
    (fun _ _ value => value) v

mutual
def scalars : Literal → List Literal
  | .list items => itemScalars items
  | .object entries => entryScalars entries
  | v => [v]

def itemScalars : List Literal → List Literal
  | [] => []
  | v :: rest => v.scalars ++ itemScalars rest

def entryScalars : List (String × Literal) → List Literal
  | [] => []
  | (_, v) :: rest => v.scalars ++ entryScalars rest
end

theorem memItemScalars {s : Literal} {items : List Literal} :
    s ∈ itemScalars items ↔ ∃ v ∈ items, s ∈ v.scalars := by
  induction items with
  | nil => simp [itemScalars]
  | cons v rest ih => simp [itemScalars, ih]

theorem memEntryScalars {s : Literal} {entries : List (String × Literal)} :
    s ∈ entryScalars entries ↔ ∃ e ∈ entries, s ∈ e.2.scalars := by
  induction entries with
  | nil => simp [entryScalars]
  | cons e rest ih => simp [entryScalars, ih]

theorem sameItemsIff {items others : List Literal} :
    sameItems items others = true ↔ List.Forall₂ (fun x y => x.same y = true) items others := by
  induction items generalizing others with
  | nil => cases others <;> simp [sameItems]
  | cons x rest ih => cases others <;> simp [sameItems, ih]

theorem sameWithinIff {entries others : List (String × Literal)} :
    sameWithin entries others = true ↔
      ∀ e ∈ entries, ∃ y, others.lookup e.1 = some y ∧ e.2.same y = true := by
  induction entries with
  | nil => simp [sameWithin]
  | cons e rest ih =>
    rw [sameWithin, Bool.and_eq_true, ih, List.forall_mem_cons]
    refine and_congr_left fun _ => ?_
    cases others.lookup e.1 <;> simp

theorem sameNull {b : Literal} (h : null.same b = true) : b = .null := by
  cases b with
  | null => rfl
  | _ => contradiction

theorem sameList {items : List Literal} {b : Literal} (h : (list items).same b = true) :
    ∃ others, b = .list others ∧ List.Forall₂ (fun x y => x.same y = true) items others := by
  cases b with
  | list others => exact ⟨others, rfl, sameItemsIff.mp h⟩
  | _ => contradiction

theorem sameObject {entries others : List (String × Literal)} :
    (object entries).same (.object others) = true ↔ entries.length = others.length ∧
      ∀ e ∈ entries, ∃ y, others.lookup e.1 = some y ∧ e.2.same y = true := by
  rw [same, Bool.and_eq_true, beq_iff_eq, sameWithinIff]

theorem sameOfObject {entries : List (String × Literal)} {b : Literal}
    (h : (object entries).same b = true) : ∃ others, b = .object others := by
  cases b with
  | object others => exact ⟨others, rfl⟩
  | _ => contradiction

theorem coerceDistinct (t : TypeRef) {v : Literal} (distinct : v.Distinct) :
    (v.coerce t).Distinct := by
  induction t generalizing v with
  | named name => exact distinct
  | nonNull inner ih => exact ih distinct
  | list item ih =>
    have single : ∀ {w : Literal}, w.Distinct → (Literal.list [w.coerce item]).Distinct :=
      fun h => ⟨ih h, trivial⟩
    cases v with
    | null => trivial
    | list items =>
      refine distinctItemsIff.mpr fun w member => ?_
      obtain ⟨x, inside, rfl⟩ := List.mem_map.mp member
      exact ih (distinctItemsIff.mp distinct x inside)
    | boolean b => exact single distinct
    | integer i => exact single distinct
    | float x => exact single distinct
    | string s => exact single distinct
    | enumValue name => exact single distinct
    | object entries => exact single distinct

end SchemaDrift.Literal

namespace SchemaDrift.Constant

theorem nestedInduction {P : Constant → Prop} (null : P .null) (boolean : ∀ b, P (.boolean b))
    (integer : ∀ i, P (.integer i)) (float : ∀ x, P (.float x)) (string : ∀ s, P (.string s))
    (enumValue : ∀ name, P (.enumValue name)) (list : ∀ items, (∀ c ∈ items, P c) → P (.list items))
    (object : ∀ s : Ordered Constant, (∀ e ∈ s.entries, P e.2) → P (.object s)) (c : Constant) :
    P c := by
  obtain ⟨v, distinct⟩ := c
  induction v using Literal.nestedInduction with
  | null => exact null
  | boolean b => exact boolean b
  | integer i => exact integer i
  | float x => exact float x
  | string s => exact string s
  | enumValue name => exact enumValue name
  | list items ih =>
    have each := Literal.distinctItemsIff.mp distinct
    have built : Constant.list (items.pmap Constant.mk each) = ⟨.list items, distinct⟩ :=
      ext (by simp [List.map_pmap])
    refine built ▸ list _ fun c inside => ?_
    obtain ⟨v, member, rfl⟩ := List.mem_pmap.mp inside
    exact ih v member (each v member)
  | object entries ih =>
    have each := Literal.distinctEntriesIff.mp distinct.2
    have keys : (entries.pmap (fun e h => (e.1, Constant.mk e.2 h)) each).map (·.1) =
        entries.map (·.1) := by
      simp [List.map_pmap]
    have built : Constant.object ⟨entries.pmap (fun e h => (e.1, ⟨e.2, h⟩)) each,
        keys ▸ distinct.1⟩ = ⟨.object entries, distinct⟩ :=
      ext (by simp [List.map_pmap])
    refine built ▸ object _ fun e inside => ?_
    obtain ⟨d, member, rfl⟩ := List.mem_pmap.mp inside
    exact ih d member (each d member)

theorem sameRefl (c : Constant) : c.literal.same c.literal = true := by
  induction c using nestedInduction with
  | null => rfl
  | boolean b => exact beq_self_eq_true b
  | integer i => exact beq_self_eq_true i
  | float x => exact Binary64.sameNumberRefl x
  | string s => exact beq_self_eq_true s
  | enumValue name => exact beq_self_eq_true name
  | list items ih =>
    refine Literal.sameItemsIff.mpr (List.forall₂_map_left_iff.mpr (List.forall₂_map_right_iff.mpr ?_))
    exact List.forall₂_same.mpr ih
  | object s ih =>
    refine Literal.sameObject.mpr ⟨rfl, fun e inside => ?_⟩
    have found := Ordered.lookupOfMem (s.map (·.literal)).distinct inside
    obtain ⟨d, member, rfl⟩ := List.mem_map.mp inside
    exact ⟨_, found, ih d member⟩

end SchemaDrift.Constant
