import Mathlib.Data.List.Perm.Basic
import SchemaDrift.Proofs.Ordered
import SchemaDrift.Proofs.Schema.Model

/-! Models whose declarations stand in another order, at every level; each element keeps what it
says, its position included. What is found by a name stays the same, up to the order inside. -/
namespace SchemaDrift

def Shuffled {α β : Type} (R : α → β → Prop) (xs : List α) (ys : List β) : Prop :=
  ∃ zs, xs.Perm zs ∧ List.Forall₂ R zs ys

theorem Shuffled.flatMap {α β γ : Type} {R : α → β → Prop} {xs : List α} {ys : List β}
    (shuffled : Shuffled R xs ys) {f : α → List γ} {g : β → List γ}
    (each : ∀ x y, R x y → (f x).Perm (g y)) : (xs.flatMap f).Perm (ys.flatMap g) := by
  obtain ⟨zs, moved, matched⟩ := shuffled
  refine (moved.flatMap_right f).trans ?_
  clear moved
  induction matched with
  | nil => exact .nil
  | cons related _ ih =>
    rw [List.flatMap_cons, List.flatMap_cons]
    exact (each _ _ related).append ih

namespace Ordered
variable {α : Type}

def Shuffled (R : α → α → Prop) (s t : Ordered α) : Prop :=
  SchemaDrift.Shuffled (fun d e => d.1 = e.1 ∧ R d.2 e.2) s.entries t.entries

theorem getOfPerm {s t : Ordered α} (moved : s.entries.Perm t.entries) (key : String) :
    s.get? key = t.get? key := by
  refine Option.ext fun value => ?_
  rw [getIffMem, getIffMem, moved.mem_iff]

theorem getShuffled {R : α → α → Prop} {s t : Ordered α} (shuffled : Shuffled R s t)
    (key : String) :
    (s.get? key = none ∧ t.get? key = none) ∨
      ∃ a b, s.get? key = some a ∧ t.get? key = some b ∧ R a b := by
  obtain ⟨zs, moved, matched⟩ := shuffled
  have distinct : (zs.map (·.1)).Nodup := (moved.map (·.1)).nodup_iff.mp s.distinct
  have same : s.get? key = zs.lookup key := getOfPerm (t := ⟨zs, distinct⟩) moved key
  rw [same]
  clear moved distinct same
  unfold get?
  generalize t.entries = entries at matched ⊢
  induction matched with
  | nil => exact .inl ⟨rfl, rfl⟩
  | cons related _ ih =>
    rw [List.lookup_cons, List.lookup_cons, related.1]
    split
    · exact .inr ⟨_, _, rfl, rfl, related.2⟩
    · exact ih

end Ordered

section Arguments
variable {arguments others : List Argument}

theorem missingMoved (moved : arguments.Perm others) (name : String) :
    (argumentNamed? others name).isNone = (argumentNamed? arguments name).isNone := by
  rw [Bool.eq_iff_iff, argumentMissing, argumentMissing, (moved.map (·.name)).mem_iff]

theorem argumentMoved (distinct : (arguments.map (·.name)).Nodup) (moved : arguments.Perm others)
    (name : String) : argumentNamed? others name = argumentNamed? arguments name := by
  cases found : argumentNamed? arguments name with
  | none =>
    have missing := missingMoved moved name
    rwa [found, Option.isNone_none, Option.isNone_iff_eq_none] at missing
  | some a =>
    obtain rfl : a.name = name := by simpa using List.find?_some found
    exact argumentOfMem ((moved.map (·.name)).nodup_iff.mp distinct)
      (moved.mem_iff.mp (List.mem_of_find?_eq_some found))

end Arguments

inductive Field.Reordered (f : Field) : Field → Prop
  | mk {arguments : List Argument} (moved : f.arguments.Perm arguments) :
    f.Reordered { f with arguments }

inductive ObjectShape.Reordered (s : ObjectShape) : ObjectShape → Prop
  | mk {interfaces : List String} {fields : Ordered Field} (moved : s.interfaces.Perm interfaces)
    (shuffled : s.fields.Shuffled Field.Reordered fields) : s.Reordered ⟨interfaces, fields⟩

inductive TypeBody.Reordered : TypeBody → TypeBody → Prop
  | scalar : Reordered .scalar .scalar
  | object {before after : ObjectShape} (inside : before.Reordered after) :
    Reordered (.object before) (.object after)
  | interface {before after : ObjectShape} (inside : before.Reordered after) :
    Reordered (.interface before) (.interface after)
  | union {before after : List String} (moved : before.Perm after) :
    Reordered (.union before) (.union after)
  | enum {before after : List EnumValue} (moved : before.Perm after) :
    Reordered (.enum before) (.enum after)
  | inputObject {before after : Ordered Argument} (moved : before.entries.Perm after.entries) :
    Reordered (.inputObject before) (.inputObject after)

inductive TypeDef.Reordered (t : TypeDef) : TypeDef → Prop
  | mk {body : TypeBody} (inside : t.body.Reordered body) : t.Reordered { t with body }

theorem TypeDef.Reordered.name {t u : TypeDef} (moved : t.Reordered u) : u.name = t.name := by
  cases moved
  rfl

theorem TypeDef.Reordered.kind {t u : TypeDef} (moved : t.Reordered u) : u.kind = t.kind := by
  obtain ⟨inside⟩ := moved
  unfold TypeDef.kind
  cases t
  cases inside <;> rfl

inductive DirectiveDef.Reordered (d : DirectiveDef) : DirectiveDef → Prop
  | mk {arguments : List Argument} {sites : List String} (moved : d.arguments.Perm arguments)
    (sitesMoved : d.sites.Perm sites) : d.Reordered { d with arguments, sites }

theorem DirectiveDef.Reordered.name {d e : DirectiveDef} (moved : d.Reordered e) : e.name = d.name := by
  cases moved
  rfl

inductive Model.Reordered (m : Model) : Model → Prop
  | mk {types : Ordered TypeDef} {directives : Ordered DirectiveDef}
    (typesShuffled : m.types.Shuffled TypeDef.Reordered types)
    (directivesShuffled : m.directives.Shuffled DirectiveDef.Reordered directives) :
    m.Reordered { m with types, directives }

end SchemaDrift
