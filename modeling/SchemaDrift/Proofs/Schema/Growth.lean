import SchemaDrift.Proofs.Schema.Model

/-! Additive changes of a model: one element more, at any place, under a name that is free there.
Positions beyond the end are the end. Nothing that was there is lost or changed, which is what
`Extends` says at each level. -/
namespace SchemaDrift

def insertAt {α : Type} (i : Nat) (x : α) (xs : List α) : List α := xs.take i ++ x :: xs.drop i

def insertFresh? {α : Type} (name : α → String) (i : Nat) (x : α) (xs : List α) :
    Option (List α) :=
  if name x ∈ xs.map name then none else some (insertAt i x xs)

theorem insertAtPerm {α : Type} (i : Nat) (x : α) (xs : List α) : (insertAt i x xs).Perm (x :: xs) := by
  have middle : (insertAt i x xs).Perm (x :: (xs.take i ++ xs.drop i)) := List.perm_middle
  rwa [List.take_append_drop] at middle

theorem memInsertAt {α : Type} {i : Nat} {x y : α} {xs : List α} :
    y ∈ insertAt i x xs ↔ y = x ∨ y ∈ xs :=
  (insertAtPerm i x xs).mem_iff.trans List.mem_cons

theorem insertedFresh {α : Type} {name : α → String} {i : Nat} {x : α} {xs ys : List α}
    (ok : insertFresh? name i x xs = some ys) : name x ∉ xs.map name ∧ ys = insertAt i x xs := by
  unfold insertFresh? at ok
  split at ok
  · contradiction
  · rename_i fresh
    exact ⟨fresh, (Option.some.inj ok).symm⟩

namespace Ordered
variable {α : Type}

def insertAt? (s : Ordered α) (i : Nat) (key : String) (value : α) : Option (Ordered α) :=
  if fresh : key ∈ s.keys then none
  else some ⟨insertAt i (key, value) s.entries, by
    have names := (insertAtPerm i (key, value) s.entries).map (·.1)
    exact names.nodup_iff.mpr (List.nodup_cons.mpr ⟨fresh, s.distinct⟩)⟩

def update? (s : Ordered α) (key : String) (f : α → Option α) : Option (Ordered α) := do
  let value ← s.get? key
  let updated ← f value
  some (s.modify key fun _ => updated)

theorem insertedAt {s t : Ordered α} {i : Nat} {key : String} {value : α}
    (ok : s.insertAt? i key value = some t) :
    key ∉ s.keys ∧ t.entries = insertAt i (key, value) s.entries := by
  unfold insertAt? at ok
  split at ok
  · contradiction
  · rename_i fresh
    cases ok
    exact ⟨fresh, rfl⟩

theorem getInsertedAt {s t : Ordered α} {i : Nat} {key k : String} {value : α}
    (ok : s.insertAt? i key value = some t) (present : k ∈ s.keys) : t.get? k = s.get? k := by
  obtain ⟨fresh, entries⟩ := insertedAt ok
  obtain ⟨v, found⟩ := existsOfKey present
  rw [found]
  refine getIffMem.mpr ?_
  rw [entries]
  exact memInsertAt.mpr (.inr (getIffMem.mp found))

theorem updatedAt {s t : Ordered α} {key : String} {f : α → Option α} (ok : s.update? key f = some t) :
    ∃ before after, s.get? key = some before ∧ f before = some after ∧
      ∀ k, t.get? k = if k = key then some after else s.get? k := by
  simp only [update?, bind, Option.bind_eq_some_iff] at ok
  obtain ⟨before, found, after, updated, last⟩ := ok
  cases Option.some.inj last
  refine ⟨before, after, found, updated, fun k => ?_⟩
  rw [getModify]
  split
  case isTrue same => rw [same, found]; rfl
  case isFalse => rfl

end Ordered

inductive Growth where
  | field (i : Nat) (f : Field)
  | argument (field : String) (i : Nat) (a : Argument)
  | value (i : Nat) (v : EnumValue)
  | member (i : Nat) (name : String)
  | interface (i : Nat) (name : String)
  | inputField (i : Nat) (f : Argument)

inductive DirectiveGrowth where
  | argument (i : Nat) (a : Argument)
  | site (i : Nat) (name : String)

inductive Edit where
  | type (i : Nat) (t : TypeDef)
  | directive (i : Nat) (d : DirectiveDef)
  | inType (name : String) (g : Growth)
  | inDirective (name : String) (g : DirectiveGrowth)

def addOptional? (i : Nat) (a : Argument) (arguments : List Argument) : Option (List Argument) :=
  if a.isRequired then none else insertFresh? (·.name) i a arguments

def Field.grow? (f : Field) (i : Nat) (a : Argument) : Option Field :=
  (addOptional? i a f.arguments).map fun arguments => { f with arguments }

def ObjectShape.grow? (s : ObjectShape) : Growth → Option ObjectShape
  | .field i f => (s.fields.insertAt? i f.name f).map fun fields => { s with fields }
  | .argument name i a => (s.fields.update? name (·.grow? i a)).map fun fields => { s with fields }
  | .interface i name => (insertFresh? id i name s.interfaces).map fun interfaces => { s with interfaces }
  | _ => none

def TypeBody.grow? : TypeBody → Growth → Option TypeBody
  | .object shape, g => (shape.grow? g).map .object
  | .interface shape, g => (shape.grow? g).map .interface
  | .union members, .member i name => (insertFresh? id i name members).map .union
  | .enum values, .value i v => (insertFresh? (·.name) i v values).map .enum
  | .inputObject fields, .inputField i f =>
    if f.isRequired then none else (fields.insertAt? i f.name f).map .inputObject
  | _, _ => none

def TypeDef.grow? (t : TypeDef) (g : Growth) : Option TypeDef :=
  (t.body.grow? g).map fun body => { t with body }

def DirectiveDef.grow? (d : DirectiveDef) : DirectiveGrowth → Option DirectiveDef
  | .argument i a => (addOptional? i a d.arguments).map fun arguments => { d with arguments }
  | .site i name => (insertFresh? id i name d.sites).map fun sites => { d with sites }

def Model.grow? (m : Model) : Edit → Option Model
  | .type i t => (m.types.insertAt? i t.name t).map fun types => { m with types }
  | .directive i d => (m.directives.insertAt? i d.name d).map fun directives => { m with directives }
  | .inType name g => (m.types.update? name (·.grow? g)).map fun types => { m with types }
  | .inDirective name g =>
    (m.directives.update? name (·.grow? g)).map fun directives => { m with directives }

theorem addedOptional {i : Nat} {a : Argument} {xs ys : List Argument}
    (ok : addOptional? i a xs = some ys) :
    a.isRequired = false ∧ a.name ∉ xs.map (·.name) ∧ ys = insertAt i a xs := by
  unfold addOptional? at ok
  split at ok
  · contradiction
  · rename_i optional
    exact ⟨by simpa using optional, insertedFresh ok⟩

theorem namesGrow {α : Type} (name : α → String) (i : Nat) (x : α) (xs : List α) :
    xs.map name ⊆ (insertAt i x xs).map name := by
  intro n member
  obtain ⟨y, inside, rfl⟩ := List.mem_map.mp member
  exact List.mem_map_of_mem (memInsertAt.mpr (.inr inside))

theorem namedGrow {i : Nat} {a : Argument} {arguments : List Argument} {name : String}
    (different : a.name ≠ name) :
    argumentNamed? (insertAt i a arguments) name = argumentNamed? arguments name := by
  unfold argumentNamed? insertAt
  rw [List.find?_append, List.find?_cons_of_neg (by simpa using different), ← List.find?_append,
    List.take_append_drop]

inductive ObjectShape.Grown (s : ObjectShape) : Growth → ObjectShape → Prop
  | field {i : Nat} {f : Field} {fields : Ordered Field}
    (inserted : s.fields.insertAt? i f.name f = some fields) :
    ObjectShape.Grown s (.field i f) { s with fields }
  | argument {name : String} {i : Nat} {a : Argument} {f : Field} {fields : Ordered Field}
    (present : s.fields.get? name = some f) (optional : a.isRequired = false)
    (fresh : a.name ∉ f.arguments.map (·.name))
    (lookup : ∀ k, fields.get? k =
      if k = name then some { f with arguments := insertAt i a f.arguments } else s.fields.get? k) :
    ObjectShape.Grown s (.argument name i a) { s with fields }
  | interface {i : Nat} {name : String} (fresh : name ∉ s.interfaces) :
    ObjectShape.Grown s (.interface i name) { s with interfaces := insertAt i name s.interfaces }

inductive TypeBody.Grown : TypeBody → Growth → TypeBody → Prop
  | object {s t : ObjectShape} {g : Growth} (h : s.Grown g t) : TypeBody.Grown (.object s) g (.object t)
  | interface {s t : ObjectShape} {g : Growth} (h : s.Grown g t) :
    TypeBody.Grown (.interface s) g (.interface t)
  | union {members : List String} {i : Nat} {name : String} (fresh : name ∉ members) :
    TypeBody.Grown (.union members) (.member i name) (.union (insertAt i name members))
  | enum {values : List EnumValue} {i : Nat} {v : EnumValue}
    (fresh : v.name ∉ values.map (·.name)) :
    TypeBody.Grown (.enum values) (.value i v) (.enum (insertAt i v values))
  | inputObject {before after : Ordered Argument} {i : Nat} {f : Argument}
    (optional : f.isRequired = false) (inserted : before.insertAt? i f.name f = some after) :
    TypeBody.Grown (.inputObject before) (.inputField i f) (.inputObject after)

theorem shapeGrown {s t : ObjectShape} {g : Growth} (ok : s.grow? g = some t) : s.Grown g t := by
  cases g with
  | field i f =>
    obtain ⟨fields, inserted, rfl⟩ := Option.map_eq_some_iff.mp ok
    exact .field inserted
  | argument name i a =>
    obtain ⟨fields, updated, rfl⟩ := Option.map_eq_some_iff.mp ok
    obtain ⟨f, after, present, grown, lookup⟩ := Ordered.updatedAt updated
    obtain ⟨arguments, added, rfl⟩ := Option.map_eq_some_iff.mp grown
    obtain ⟨optional, fresh, rfl⟩ := addedOptional added
    exact .argument present optional fresh lookup
  | interface i name =>
    obtain ⟨interfaces, inserted, rfl⟩ := Option.map_eq_some_iff.mp ok
    obtain ⟨fresh, rfl⟩ := insertedFresh inserted
    exact .interface (by simpa using fresh)
  | _ => contradiction

theorem bodyGrown {b c : TypeBody} {g : Growth} (ok : b.grow? g = some c) : b.Grown g c := by
  unfold TypeBody.grow? at ok
  split at ok
  · obtain ⟨t, grown, rfl⟩ := Option.map_eq_some_iff.mp ok
    exact .object (shapeGrown grown)
  · obtain ⟨t, grown, rfl⟩ := Option.map_eq_some_iff.mp ok
    exact .interface (shapeGrown grown)
  · obtain ⟨after, inserted, rfl⟩ := Option.map_eq_some_iff.mp ok
    obtain ⟨fresh, rfl⟩ := insertedFresh inserted
    exact .union (by simpa using fresh)
  · obtain ⟨after, inserted, rfl⟩ := Option.map_eq_some_iff.mp ok
    obtain ⟨fresh, rfl⟩ := insertedFresh inserted
    exact .enum fresh
  · split at ok
    · contradiction
    · rename_i optional
      obtain ⟨after, inserted, rfl⟩ := Option.map_eq_some_iff.mp ok
      exact .inputObject (by simpa using optional) inserted
  · contradiction

/- Names and places stay, lists of names only grow: what further growth keeps, and all that the
comparison needs to know of what was there. -/
structure ObjectShape.Extends (before after : ObjectShape) : Prop where
  interfaces : before.interfaces ⊆ after.interfaces
  fields : ∀ name f, before.fields.get? name = some f → ∃ g, after.fields.get? name = some g ∧
    f.arguments.map (·.name) ⊆ g.arguments.map (·.name)

inductive TypeBody.Extends : TypeBody → TypeBody → Prop
  | scalar : TypeBody.Extends .scalar .scalar
  | object {s t : ObjectShape} (h : s.Extends t) : TypeBody.Extends (.object s) (.object t)
  | interface {s t : ObjectShape} (h : s.Extends t) : TypeBody.Extends (.interface s) (.interface t)
  | union {before after : List String} (h : before ⊆ after) :
    TypeBody.Extends (.union before) (.union after)
  | enum {before after : List EnumValue} (h : before.map (·.name) ⊆ after.map (·.name)) :
    TypeBody.Extends (.enum before) (.enum after)
  | inputObject {before after : Ordered Argument} (h : before.keys ⊆ after.keys) :
    TypeBody.Extends (.inputObject before) (.inputObject after)

structure TypeDef.Extends (before after : TypeDef) : Prop where
  name : after.name = before.name
  location : after.location = before.location
  body : before.body.Extends after.body

structure DirectiveDef.Extends (before after : DirectiveDef) : Prop where
  arguments : before.arguments.map (·.name) ⊆ after.arguments.map (·.name)
  optional : ∀ a ∈ after.arguments, a.isRequired = true → a ∈ before.arguments
  sites : before.sites ⊆ after.sites

structure Model.Extends (before after : Model) : Prop where
  types : ∀ name t, before.type? name = some t → ∃ u, after.type? name = some u ∧ t.Extends u
  directives : ∀ name d, before.directive? name = some d →
    ∃ e, after.directive? name = some e ∧ d.Extends e

namespace ObjectShape

theorem extendsRefl (s : ObjectShape) : s.Extends s :=
  ⟨List.Subset.refl _, fun _ f found => ⟨f, found, List.Subset.refl _⟩⟩

theorem Extends.trans {a b c : ObjectShape} (first : a.Extends b) (second : b.Extends c) :
    a.Extends c where
  interfaces := List.Subset.trans first.interfaces second.interfaces
  fields name f found := by
    obtain ⟨g, inside, kept⟩ := first.fields name f found
    obtain ⟨h, last, more⟩ := second.fields name g inside
    exact ⟨h, last, List.Subset.trans kept more⟩

theorem Grown.extends {s t : ObjectShape} {g : Growth} (grown : s.Grown g t) : s.Extends t := by
  cases grown with
  | field inserted =>
    refine ⟨List.Subset.refl _, fun name g found => ⟨g, ?_, List.Subset.refl _⟩⟩
    rw [Ordered.getInsertedAt inserted (Ordered.keyOfGet found), found]
  | @argument field i a f fields present optional fresh lookup =>
    refine ⟨List.Subset.refl _, fun name g found => ?_⟩
    by_cases here : name = field
    · subst here
      rw [present] at found
      cases Option.some.inj found
      exact ⟨_, (lookup name).trans (if_pos rfl), namesGrow _ i a _⟩
    · exact ⟨g, ((lookup name).trans (if_neg here)).trans found, List.Subset.refl _⟩
  | interface fresh =>
    exact ⟨fun n member => memInsertAt.mpr (.inr member), (extendsRefl s).fields⟩

end ObjectShape

namespace TypeBody

theorem extendsRefl (b : TypeBody) : b.Extends b := by
  cases b with
  | scalar => exact .scalar
  | object shape => exact .object shape.extendsRefl
  | interface shape => exact .interface shape.extendsRefl
  | union members => exact .union (List.Subset.refl _)
  | enum values => exact .enum (List.Subset.refl _)
  | inputObject fields => exact .inputObject (List.Subset.refl _)

theorem Extends.trans {a b c : TypeBody} (first : a.Extends b) (second : b.Extends c) :
    a.Extends c := by
  cases first with
  | scalar => exact second
  | object h => cases second with | object more => exact .object (h.trans more)
  | interface h => cases second with | interface more => exact .interface (h.trans more)
  | union h => cases second with | union more => exact .union (List.Subset.trans h more)
  | enum h => cases second with | enum more => exact .enum (List.Subset.trans h more)
  | inputObject h => cases second with | inputObject more => exact .inputObject (List.Subset.trans h more)

theorem Grown.extends {b c : TypeBody} {g : Growth} (grown : b.Grown g c) : b.Extends c := by
  cases grown with
  | object h => exact .object h.extends
  | interface h => exact .interface h.extends
  | union fresh => exact .union fun n member => memInsertAt.mpr (.inr member)
  | enum fresh => exact .enum (namesGrow _ _ _ _)
  | inputObject optional inserted =>
    refine .inputObject fun key member => ?_
    obtain ⟨value, found⟩ := Ordered.existsOfKey member
    exact Ordered.keyOfGet ((Ordered.getInsertedAt inserted member).trans found)

end TypeBody

namespace TypeDef

theorem extendsRefl (t : TypeDef) : t.Extends t := ⟨rfl, rfl, t.body.extendsRefl⟩

theorem Extends.trans {a b c : TypeDef} (first : a.Extends b) (second : b.Extends c) :
    a.Extends c :=
  ⟨second.name.trans first.name, second.location.trans first.location,
    first.body.trans second.body⟩

theorem grownExtends {t u : TypeDef} {g : Growth} (ok : t.grow? g = some u) : t.Extends u := by
  obtain ⟨body, grown, rfl⟩ := Option.map_eq_some_iff.mp ok
  exact ⟨rfl, rfl, (bodyGrown grown).extends⟩

end TypeDef

namespace DirectiveDef

theorem extendsRefl (d : DirectiveDef) : d.Extends d :=
  ⟨List.Subset.refl _, fun _ member _ => member, List.Subset.refl _⟩

theorem Extends.trans {a b c : DirectiveDef} (first : a.Extends b) (second : b.Extends c) :
    a.Extends c where
  arguments := List.Subset.trans first.arguments second.arguments
  optional x member required := first.optional x (second.optional x member required) required
  sites := List.Subset.trans first.sites second.sites

theorem grownExtends {d e : DirectiveDef} {g : DirectiveGrowth} (ok : d.grow? g = some e) :
    d.Extends e := by
  cases g with
  | argument i a =>
    obtain ⟨arguments, added, rfl⟩ := Option.map_eq_some_iff.mp ok
    obtain ⟨optional, fresh, rfl⟩ := addedOptional added
    refine ⟨namesGrow _ i a _, fun x member required => ?_, List.Subset.refl _⟩
    rcases memInsertAt.mp member with rfl | old
    · rw [optional] at required
      contradiction
    · exact old
  | site i name =>
    obtain ⟨sites, inserted, rfl⟩ := Option.map_eq_some_iff.mp ok
    obtain ⟨fresh, rfl⟩ := insertedFresh inserted
    exact ⟨List.Subset.refl _, fun _ member _ => member, fun n member => memInsertAt.mpr (.inr member)⟩

end DirectiveDef

namespace Model

theorem extendsRefl (m : Model) : m.Extends m :=
  ⟨fun _ t found => ⟨t, found, t.extendsRefl⟩, fun _ d found => ⟨d, found, d.extendsRefl⟩⟩

theorem Extends.trans {a b c : Model} (first : a.Extends b) (second : b.Extends c) :
    a.Extends c where
  types name t found := by
    obtain ⟨u, inside, kept⟩ := first.types name t found
    obtain ⟨v, last, more⟩ := second.types name u inside
    exact ⟨v, last, kept.trans more⟩
  directives name d found := by
    obtain ⟨e, inside, kept⟩ := first.directives name d found
    obtain ⟨f, last, more⟩ := second.directives name e inside
    exact ⟨f, last, kept.trans more⟩

theorem grownExtends {m n : Model} {e : Edit} (ok : m.grow? e = some n) : m.Extends n := by
  cases e with
  | type i t =>
    obtain ⟨types, inserted, rfl⟩ := Option.map_eq_some_iff.mp ok
    refine ⟨fun name u found => ⟨u, ?_, u.extendsRefl⟩, (extendsRefl m).directives⟩
    exact (Ordered.getInsertedAt inserted (Ordered.keyOfGet found)).trans found
  | directive i d =>
    obtain ⟨directives, inserted, rfl⟩ := Option.map_eq_some_iff.mp ok
    refine ⟨(extendsRefl m).types, fun name e found => ⟨e, ?_, e.extendsRefl⟩⟩
    exact (Ordered.getInsertedAt inserted (Ordered.keyOfGet found)).trans found
  | inType name g =>
    obtain ⟨types, updated, rfl⟩ := Option.map_eq_some_iff.mp ok
    obtain ⟨t, u, present, grown, lookup⟩ := Ordered.updatedAt updated
    refine ⟨fun k v found => ?_, (extendsRefl m).directives⟩
    by_cases here : k = name
    · subst here
      cases Option.some.inj (present.symm.trans found)
      exact ⟨u, (lookup k).trans (if_pos rfl), TypeDef.grownExtends grown⟩
    · exact ⟨v, ((lookup k).trans (if_neg here)).trans found, v.extendsRefl⟩
  | inDirective name g =>
    obtain ⟨directives, updated, rfl⟩ := Option.map_eq_some_iff.mp ok
    obtain ⟨d, e, present, grown, lookup⟩ := Ordered.updatedAt updated
    refine ⟨(extendsRefl m).types, fun k v found => ?_⟩
    by_cases here : k = name
    · subst here
      cases Option.some.inj (present.symm.trans found)
      exact ⟨e, (lookup k).trans (if_pos rfl), DirectiveDef.grownExtends grown⟩
    · exact ⟨v, ((lookup k).trans (if_neg here)).trans found, v.extendsRefl⟩

end Model
end SchemaDrift
