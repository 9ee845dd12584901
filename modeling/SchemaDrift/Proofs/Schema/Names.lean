import SchemaDrift.Proofs.Schema.Model
import SchemaDrift.Sdl.Token

/-! The names of a model's elements. In schema documents they are made of letters, digits and
underscores, so a mark that is none of these tells where a name ends. -/
namespace SchemaDrift

/- Made of the characters of names; in models from elsewhere it may be empty. -/
def IsName (s : String) : Prop := ∀ c ∈ s.toList, Sdl.isNameRest c = true

instance : DecidablePred IsName := fun s => List.decidableBAll _ s.toList

theorem markNotInName {s : String} (named : IsName s) {mark : Char}
    (other : Sdl.isNameRest mark = false) : mark ∉ s.toList := by
  intro inside
  have counted := named mark inside
  rw [other] at counted
  contradiction

theorem sameUpToMark {α : Type} {mark : α} {xs ys us vs : List α} (left : mark ∉ xs)
    (right : mark ∉ ys) (same : xs ++ mark :: us = ys ++ mark :: vs) : xs = ys ∧ us = vs := by
  induction xs generalizing ys with
  | nil =>
    cases ys with
    | nil => exact ⟨rfl, (List.cons.inj same).2⟩
    | cons y rest => exact absurd ((List.cons.inj same).1 ▸ List.mem_cons_self) right
  | cons x xs ih =>
    cases ys with
    | nil => exact absurd ((List.cons.inj same).1 ▸ List.mem_cons_self) left
    | cons y ys =>
      obtain ⟨rfl, rest⟩ := List.cons.inj same
      obtain ⟨rfl, tails⟩ := ih (fun inside => left (List.mem_cons_of_mem _ inside))
        (fun inside => right (List.mem_cons_of_mem _ inside)) rest
      exact ⟨rfl, tails⟩

def Field.names (f : Field) : List String := f.name :: f.arguments.map (·.name)

def ObjectShape.names (s : ObjectShape) : List String :=
  s.interfaces ++ s.fields.entries.flatMap fun e => e.1 :: e.2.names

def TypeBody.names : TypeBody → List String
  | .scalar => []
  | .object shape => shape.names
  | .interface shape => shape.names
  | .union members => members
  | .enum values => values.map (·.name)
  | .inputObject fields => fields.entries.flatMap fun e => [e.1, e.2.name]

def TypeDef.names (t : TypeDef) : List String := t.name :: t.body.names

def DirectiveDef.names (d : DirectiveDef) : List String :=
  d.name :: (d.arguments.map (·.name) ++ d.sites)

def ObjectShape.Named (s : ObjectShape) : Prop := ∀ n ∈ s.names, IsName n

section Shapes
variable {s : ObjectShape} (named : s.Named)
include named

theorem interfaceNamed {i : String} (inside : i ∈ s.interfaces) : IsName i :=
  named i (List.mem_append_left _ inside)

theorem entryNamed {e : String × Field} (member : e ∈ s.fields.entries) :
    ∀ n ∈ e.1 :: e.2.names, IsName n :=
  fun n inside => named n (List.mem_append_right _ (List.mem_flatMap.mpr ⟨e, member, inside⟩))

theorem argumentNamed {e : String × Field} (member : e ∈ s.fields.entries) {a : Argument}
    (declared : a ∈ e.2.arguments) : IsName a.name :=
  entryNamed named member _
    (List.mem_cons_of_mem _ (List.mem_cons_of_mem _ (List.mem_map_of_mem declared)))

end Shapes

namespace TypeDef
variable {t : TypeDef}

def Named (t : TypeDef) : Prop := ∀ n ∈ t.names, IsName n

theorem selfNamed (named : t.Named) : IsName t.name := named _ List.mem_cons_self

theorem bodyNamed (named : t.Named) {body : TypeBody} (same : t.body = body) :
    ∀ n ∈ body.names, IsName n :=
  fun n inside => named n (List.mem_cons_of_mem _ (same ▸ inside))

theorem shapeNamed (named : t.Named) {shape : ObjectShape} (shaped : t.shape? = some shape) :
    shape.Named := by
  rcases bodyOfShape shaped with body | body
  · exact bodyNamed named body
  · exact bodyNamed named body

theorem valueNamed (named : t.Named) {values : List EnumValue} (body : t.body = .enum values)
    {v : EnumValue} (member : v ∈ values) : IsName v.name :=
  bodyNamed named body _ (List.mem_map_of_mem member)

theorem inputFieldNamed (named : t.Named) {fields : Ordered Argument}
    (body : t.body = .inputObject fields) {e : String × Argument} (member : e ∈ fields.entries) :
    IsName e.1 :=
  bodyNamed named body _ (List.mem_flatMap.mpr ⟨e, member, List.mem_cons_self⟩)

end TypeDef

namespace DirectiveDef
variable {d : DirectiveDef}

def Named (d : DirectiveDef) : Prop := ∀ n ∈ d.names, IsName n

theorem selfNamed (named : d.Named) : IsName d.name := named _ List.mem_cons_self

theorem argumentNamed (named : d.Named) {a : Argument} (declared : a ∈ d.arguments) : IsName a.name :=
  named _ (List.mem_cons_of_mem _ (List.mem_append_left _ (List.mem_map_of_mem declared)))

theorem siteNamed (named : d.Named) {site : String} (listed : site ∈ d.sites) : IsName site :=
  named _ (List.mem_cons_of_mem _ (List.mem_append_right _ listed))

end DirectiveDef

namespace Model
variable {m : Model}

def names (m : Model) : List String :=
  m.typeList.flatMap TypeDef.names ++ m.directiveList.flatMap DirectiveDef.names

def Named (m : Model) : Prop := ∀ n ∈ m.names, IsName n

instance (m : Model) : Decidable m.Named := inferInstanceAs (Decidable (∀ n ∈ m.names, IsName n))

theorem membersNamed (named : m.Named) {t : TypeDef} (member : t ∈ m.typeList) : t.Named :=
  fun n inside => named n (List.mem_append_left _ (List.mem_flatMap.mpr ⟨t, member, inside⟩))

theorem directiveNamed (named : m.Named) {d : DirectiveDef} (member : d ∈ m.directiveList) : d.Named :=
  fun n inside => named n (List.mem_append_right _ (List.mem_flatMap.mpr ⟨d, member, inside⟩))

theorem typeNamed (named : m.Named) {t : TypeDef} (member : t ∈ m.typeList) : IsName t.name :=
  TypeDef.selfNamed (membersNamed named member)

theorem fieldNamed (named : m.Named) {t : TypeDef} (member : t ∈ m.typeList) {shape : ObjectShape}
    (shaped : t.shape? = some shape) {e : String × Field} (inside : e ∈ shape.fields.entries) :
    IsName e.1 :=
  entryNamed (TypeDef.shapeNamed (membersNamed named member) shaped) inside e.1 List.mem_cons_self

end Model
end SchemaDrift
