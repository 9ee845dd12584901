import Mathlib.Data.List.Induction
import Mathlib.Order.Defs.LinearOrder
import Mathlib.Data.List.Lex
import SchemaDrift.Sdl.DocumentModel

/-! Where a model mentions a type, and by what name. A place is a path of positions: among the types,
directives and roots, then down to the element. Places in their order are the order of a reader who goes
through the model from its first type to its roots. -/
namespace SchemaDrift

section Order
variable {α β : Type} {At Bt : List Nat → α → Prop} {xs ys : List α}

/- The list has what stands at some place, nothing else, in the order of places. -/
def InOrder (At : List Nat → α → Prop) (xs : List α) : Prop :=
  ∃ placed : List (List Nat × α), placed.map (·.2) = xs ∧ placed.Pairwise (fun a b => a.1 < b.1) ∧
    ∀ p x, At p x ↔ (p, x) ∈ placed

theorem orderedIff (ordered : InOrder At xs) (same : ∀ p x, Bt p x ↔ At p x) : InOrder Bt xs := by
  obtain ⟨placed, listed, sorted, every⟩ := ordered
  exact ⟨placed, listed, sorted, fun p x => (same p x).trans (every p x)⟩

theorem orderedNone (nothing : ∀ p x, ¬ At p x) : InOrder At [] :=
  ⟨[], rfl, .nil, fun p x => by simp [nothing]⟩

theorem orderedOne (x : α) : InOrder (fun p y => p = [] ∧ y = x) [x] :=
  ⟨[([], x)], rfl, List.pairwise_singleton _ _, fun p y => by simp⟩

theorem orderedUnder (k : Nat) (ordered : InOrder At xs) :
    InOrder (fun p x => ∃ q, p = k :: q ∧ At q x) xs := by
  obtain ⟨placed, rfl, sorted, every⟩ := ordered
  refine ⟨placed.map fun e => (k :: e.1, e.2), by simp, ?_, fun p x => ?_⟩
  · exact List.pairwise_map.mpr (sorted.imp fun less => List.cons_lt_cons_iff.mpr (.inr ⟨rfl, less⟩))
  · simp only [every, List.mem_map, Prod.mk.injEq, Prod.exists]
    grind

theorem laterPart {k l : Nat} (less : k < l) {p q : List Nat} : k :: p < l :: q :=
  List.cons_lt_cons_iff.mpr (.inl less)

theorem underApart {k l : Nat} (less : k < l) (p q : List Nat) (x y : α) :
    (∃ r, p = k :: r ∧ At r x) → (∃ r, q = l :: r ∧ Bt r y) → p < q := by
  rintro ⟨_, rfl, _⟩ ⟨_, rfl, _⟩
  exact laterPart less

theorem orderedAppend (left : InOrder At xs) (right : InOrder Bt ys)
    (apart : ∀ p q x y, At p x → Bt q y → p < q) :
    InOrder (fun p x => At p x ∨ Bt p x) (xs ++ ys) := by
  obtain ⟨first, rfl, sorted, every⟩ := left
  obtain ⟨second, rfl, next, each⟩ := right
  refine ⟨first ++ second, List.map_append, List.pairwise_append.mpr ⟨sorted, next, ?_⟩, fun p x => ?_⟩
  · exact fun a before b after => apart _ _ _ _ ((every _ _).mpr before) ((each _ _).mpr after)
  · exact (or_congr (every p x) (each p x)).trans List.mem_append.symm

theorem orderedEach {Ct : β → List Nat → α → Prop} {f : β → List α} (bs : List β)
    (each : ∀ b ∈ bs, InOrder (Ct b) (f b)) :
    InOrder (fun p x => ∃ i b q, bs[i]? = some b ∧ p = i :: q ∧ Ct b q x) (bs.flatMap f) := by
  induction bs using List.reverseRecOn with
  | nil => exact orderedNone fun p x => by simp
  | append_singleton bs b ih =>
    rw [List.forall_mem_append] at each
    have last := orderedUnder bs.length (each.2 b (List.mem_singleton_self b))
    rw [List.flatMap_append, List.flatMap_singleton]
    refine orderedIff (orderedAppend (ih each.1) last ?_) fun p x => ?_
    · rintro p q x y ⟨i, _, _, found, rfl, _⟩ ⟨_, rfl, _⟩
      exact laterPart (List.getElem?_eq_some_iff.mp found).1
    · constructor
      · rintro ⟨i, c, q, found, rfl, there⟩
        rw [List.getElem?_append] at found
        split at found
        · exact .inl ⟨i, c, q, found, rfl, there⟩
        · obtain ⟨here, rfl⟩ : i - bs.length = 0 ∧ b = c := by
            simpa [List.getElem?_singleton] using found
          have here : i = bs.length := by omega
          exact .inr ⟨q, here ▸ rfl, there⟩
      · rintro (⟨i, c, q, found, rfl, there⟩ | ⟨q, rfl, there⟩)
        · exact ⟨i, c, q, List.getElem?_append_left (List.getElem?_eq_some_iff.mp found).1 ▸ found, rfl, there⟩
        · exact ⟨bs.length, b, q, by simp, rfl, there⟩

theorem orderedMap (f : β → α) (bs : List β) :
    InOrder (fun p x => ∃ i b, bs[i]? = some b ∧ p = [i] ∧ x = f b) (bs.map f) := by
  rw [List.map_eq_flatMap]
  refine orderedIff (orderedEach bs fun b _ => orderedOne (f b)) fun p x => ?_
  constructor
  · rintro ⟨i, b, found, rfl, rfl⟩
    exact ⟨i, b, [], found, rfl, rfl, rfl⟩
  · rintro ⟨i, b, _, found, rfl, rfl, rfl⟩
    exact ⟨i, b, found, rfl, rfl⟩

theorem orderedFind (ordered : InOrder At xs) {P : α → Bool} {x : α} :
    xs.find? P = some x ↔ ∃ p, At p x ∧ P x = true ∧ ∀ q y, At q y → P y = true → p ≤ q := by
  obtain ⟨placed, rfl, sorted, every⟩ := ordered
  simp only [every]
  clear every
  induction placed with
  | nil => simp
  | cons e rest ih =>
    obtain ⟨before, sorted⟩ := List.pairwise_cons.mp sorted
    rw [List.map_cons, List.find?_cons]
    cases passed : P e.2 with
    | true =>
      constructor
      · rintro ⟨⟩
        refine ⟨e.1, List.mem_cons_self, passed, fun q y inside _ => ?_⟩
        rcases List.mem_cons.mp inside with rfl | later
        · exact le_refl q
        · exact (before _ later).le
      · rintro ⟨p, inside, _, least⟩
        rcases List.mem_cons.mp inside with same | later
        · rw [← same]
        · exact absurd (least e.1 e.2 List.mem_cons_self passed) (before _ later).not_ge
    | false =>
      have skipped (p : List Nat) {y : α} (passes : P y = true) :
          (p, y) ∈ e :: rest ↔ (p, y) ∈ rest := by
        refine List.mem_cons.trans (or_iff_right ?_)
        rintro rfl
        rw [passed] at passes
        contradiction
      refine (ih sorted).trans (exists_congr fun p => ?_)
      constructor
      · rintro ⟨inside, passes, least⟩
        exact ⟨(skipped p passes).mpr inside, passes,
          fun q y here passes => least q y ((skipped q passes).mp here) passes⟩
      · rintro ⟨inside, passes, least⟩
        exact ⟨(skipped p passes).mp inside, passes,
          fun q y here passes => least q y ((skipped q passes).mpr here) passes⟩

theorem orderedMem (ordered : InOrder At xs) {x : α} : x ∈ xs ↔ ∃ p, At p x := by
  obtain ⟨placed, rfl, _, every⟩ := ordered
  simp [every]

theorem firstsInOrder [BEq α] [LawfulBEq α] : ∀ placed : List (List Nat × α),
    placed.Pairwise (fun a b => a.1 < b.1) → (placed.map (·.2)).eraseDups.Pairwise fun x y =>
      ∃ p, (p, x) ∈ placed ∧ ∀ q, (q, y) ∈ placed → p < q
  | [], _ => .nil
  | (p, x) :: rest, sorted => by
    obtain ⟨first, sorted⟩ := List.pairwise_cons.mp sorted
    let others := rest.filter fun e => !e.2 == x
    have later := firstsInOrder others (sorted.filter _)
    have kept : (rest.map (·.2)).filter (fun y => !y == x) = others.map (·.2) := List.filter_map
    have other (q : List Nat) {y : α} (apart : y ≠ x) : (q, y) ∈ (p, x) :: rest ↔ (q, y) ∈ others := by
      simp [others, apart]
    rw [List.map_cons, List.eraseDups_cons, kept, List.pairwise_cons]
    have apart : ∀ y ∈ (others.map (·.2)).eraseDups, y ≠ x := by
      intro y inside
      obtain ⟨e, member, rfl⟩ := List.mem_map.mp (List.mem_eraseDups.mp inside)
      simpa using (List.mem_filter.mp member).2
    constructor
    · refine fun y inside => ⟨p, List.mem_cons_self, fun q there => ?_⟩
      exact first _ (List.mem_filter.mp ((other q (apart y inside)).mp there)).1
    · refine later.imp_of_mem fun {y z} here there ⟨q, met, before⟩ => ?_
      exact ⟨q, (other q (apart y here)).mpr met, fun r more => before r ((other r (apart z there)).mp more)⟩
termination_by placed => placed.length
decreasing_by exact Nat.lt_succ_of_le (List.length_filter_le ..)

end Order

namespace Sdl

/- Each with the element that the name is used by, as errors tell it. -/
inductive ArgumentMention (owner : String) (arguments : List Argument) : List Nat → Reference → Prop
  | type {i : Nat} {a : Argument} (declared : arguments[i]? = some a) :
    ArgumentMention owner arguments [i] ⟨a.type.core, owner ++ "(" ++ a.name ++ ":)"⟩

inductive ShapeMention (owner : String) (shape : ObjectShape) : List Nat → Reference → Prop
  | interface {i : Nat} {name : String} (listed : shape.interfaces[i]? = some name) :
    ShapeMention owner shape [0, i] ⟨name, owner⟩
  | field {i : Nat} {f : Field} (member : shape.fields.values[i]? = some f) :
    ShapeMention owner shape [1, i, 0] ⟨f.type.core, owner ++ "." ++ f.name⟩
  | argument {i : Nat} {f : Field} {p : List Nat} {r : Reference}
    (member : shape.fields.values[i]? = some f)
    (inside : ArgumentMention (owner ++ "." ++ f.name) f.arguments p r) :
    ShapeMention owner shape (1 :: i :: 1 :: p) r

inductive TypeMention (t : TypeDef) : List Nat → Reference → Prop
  | shape {shape : ObjectShape} {p : List Nat} {r : Reference} (shaped : t.shape? = some shape)
    (inside : ShapeMention t.name shape p r) : TypeMention t p r
  | member {members : List String} {i : Nat} {name : String} (body : t.body = .union members)
    (listed : members[i]? = some name) : TypeMention t [i] ⟨name, t.name⟩
  | inputField {fields : Ordered Argument} {i : Nat} {f : Argument} (body : t.body = .inputObject fields)
    (member : fields.values[i]? = some f) : TypeMention t [i] ⟨f.type.core, t.name ++ "." ++ f.name⟩

inductive Mention (m : Model) : List Nat → Reference → Prop
  | type {i : Nat} {t : TypeDef} {p : List Nat} {r : Reference} (member : m.typeList[i]? = some t)
    (inside : TypeMention t p r) : Mention m (0 :: i :: p) r
  | directive {i : Nat} {d : DirectiveDef} {p : List Nat} {r : Reference}
    (member : m.directiveList[i]? = some d) (inside : ArgumentMention ("@" ++ d.name) d.arguments p r) :
    Mention m (1 :: i :: p) r
  | root {i : Nat} {name : String} (named : m.roots.names[i]? = some name) :
    Mention m [2, i] ⟨name, "schema"⟩

theorem argumentsInOrder (owner : String) (arguments : List Argument) :
    InOrder (ArgumentMention owner arguments) (argumentReferences owner arguments) := by
  refine orderedIff (orderedMap _ arguments) fun p r => ⟨?_, ?_⟩
  · rintro ⟨declared⟩
    exact ⟨_, _, declared, rfl, rfl⟩
  · rintro ⟨i, a, declared, rfl, rfl⟩
    exact .type declared

theorem shapeInOrder (owner : String) (shape : ObjectShape) :
    InOrder (ShapeMention owner shape) (shapeReferences owner shape) := by
  have field (f : Field) := orderedAppend
    (orderedUnder 0 (orderedOne (⟨f.type.core, owner ++ "." ++ f.name⟩ : Reference)))
    (orderedUnder 1 (argumentsInOrder (owner ++ "." ++ f.name) f.arguments)) (underApart Nat.one_pos)
  have parts := orderedAppend
    (orderedUnder 0 (orderedMap (fun name => (⟨name, owner⟩ : Reference)) shape.interfaces))
    (orderedUnder 1 (orderedEach shape.fields.values fun f _ => field f)) (underApart Nat.one_pos)
  refine orderedIff parts fun p r => ⟨?_, ?_⟩
  · rintro (⟨listed⟩ | ⟨member⟩ | ⟨member, inside⟩)
    · exact .inl ⟨_, rfl, _, _, listed, rfl, rfl⟩
    · exact .inr ⟨_, rfl, _, _, _, member, rfl, .inl ⟨_, rfl, rfl, rfl⟩⟩
    · exact .inr ⟨_, rfl, _, _, _, member, rfl, .inr ⟨_, rfl, inside⟩⟩
  · rintro (⟨_, rfl, i, name, listed, rfl, rfl⟩ |
      ⟨_, rfl, i, f, _, member, rfl, ⟨_, rfl, rfl, rfl⟩ | ⟨_, rfl, inside⟩⟩)
    · exact .interface listed
    · exact .field member
    · exact .argument member inside

theorem typeInOrder (t : TypeDef) : InOrder (TypeMention t) (typeReferences t) := by
  unfold typeReferences
  have shapes : ∀ shape, t.shape? = some shape → InOrder (TypeMention t) (shapeReferences t.name shape) := by
    intro shape shaped
    refine orderedIff (shapeInOrder t.name shape) fun p r => ⟨?_, .shape shaped⟩
    rintro (⟨same, inside⟩ | ⟨body, _⟩ | ⟨body, _⟩)
    · rw [shaped] at same
      cases same
      exact inside
    all_goals simp [TypeDef.shape?, body] at shaped
  cases body : t.body with
  | object shape => exact shapes shape (by simp [TypeDef.shape?, body])
  | interface shape => exact shapes shape (by simp [TypeDef.shape?, body])
  | union members =>
    refine orderedIff (orderedMap _ members) fun p r => ⟨?_, ?_⟩
    · rintro (⟨shaped, _⟩ | ⟨same, listed⟩ | ⟨same, _⟩)
      · simp [TypeDef.shape?, body] at shaped
      · cases body.symm.trans same
        exact ⟨_, _, listed, rfl, rfl⟩
      · cases body.symm.trans same
    · rintro ⟨_, _, listed, rfl, rfl⟩
      exact .member body listed
  | inputObject fields =>
    refine orderedIff (orderedMap _ fields.values) fun p r => ⟨?_, ?_⟩
    · rintro (⟨shaped, _⟩ | ⟨same, _⟩ | ⟨same, member⟩)
      · simp [TypeDef.shape?, body] at shaped
      · cases body.symm.trans same
      · cases body.symm.trans same
        exact ⟨_, _, member, rfl, rfl⟩
    · rintro ⟨_, _, member, rfl, rfl⟩
      exact .inputField body member
  | _ =>
    refine orderedNone fun p r => ?_
    rintro (⟨shaped, _⟩ | ⟨same, _⟩ | ⟨same, _⟩)
    · simp [TypeDef.shape?, body] at shaped
    all_goals cases body.symm.trans same

theorem mentionsInOrder (m : Model) : InOrder (Mention m) (references m) := by
  have elements := orderedAppend (orderedUnder 0 (orderedEach m.typeList fun t _ => typeInOrder t))
    (orderedUnder 1 (orderedEach m.directiveList fun d _ => argumentsInOrder ("@" ++ d.name) d.arguments))
    (underApart Nat.one_pos)
  have parts := orderedAppend elements
    (orderedUnder 2 (orderedMap (fun name => (⟨name, "schema"⟩ : Reference)) m.roots.names))
    (by rintro _ _ _ _ (⟨_, rfl, _⟩ | ⟨_, rfl, _⟩) ⟨_, rfl, _⟩ <;> exact laterPart (by decide))
  refine orderedIff parts fun p r => ⟨?_, ?_⟩
  · rintro (⟨member, inside⟩ | ⟨member, inside⟩ | ⟨named⟩)
    · exact .inl (.inl ⟨_, rfl, _, _, _, member, rfl, inside⟩)
    · exact .inl (.inr ⟨_, rfl, _, _, _, member, rfl, inside⟩)
    · exact .inr ⟨_, rfl, _, _, named, rfl, rfl⟩
  · rintro ((⟨_, rfl, _, _, _, member, rfl, inside⟩ | ⟨_, rfl, _, _, _, member, rfl, inside⟩) |
      ⟨_, rfl, _, _, named, rfl, rfl⟩)
    · exact .type member inside
    · exact .directive member inside
    · exact .root named

end Sdl
end SchemaDrift
