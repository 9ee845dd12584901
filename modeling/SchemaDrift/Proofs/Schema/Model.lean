import SchemaDrift.Proofs.Schema.Literal
import SchemaDrift.Schema.Model

/-! Types and arguments by name. In a model whose keys are names, a type of the model is what its
name finds; among arguments of distinct names, so is each argument. -/
namespace SchemaDrift

theorem argumentFound {arguments : List Argument} {name : String} :
    (argumentNamed? arguments name).isSome = true ↔ name ∈ arguments.map (·.name) := by
  simp [argumentNamed?, List.find?_isSome]

theorem argumentMissing {arguments : List Argument} {name : String} :
    (argumentNamed? arguments name).isNone = true ↔ name ∉ arguments.map (·.name) := by
  rw [← argumentFound]
  cases argumentNamed? arguments name <;> simp

theorem allFound {arguments others : List Argument}
    (named : ∀ a ∈ arguments, a.name ∈ others.map (·.name)) :
    (arguments.filter fun a => (argumentNamed? others a.name).isNone) = [] :=
  List.filter_eq_nil_iff.mpr fun a member missing => argumentMissing.mp missing (named a member)

theorem foundOfMem {α : Type} {name : α → String} {xs : List α} (distinct : (xs.map name).Nodup) {x : α}
    (member : x ∈ xs) : xs.find? (name · == name x) = some x := by
  induction xs with
  | nil => contradiction
  | cons y rest ih =>
    obtain ⟨absent, distinct⟩ := List.nodup_cons.mp distinct
    rcases List.mem_cons.mp member with rfl | inside
    · exact List.find?_cons_of_pos (beq_self_eq_true (name x))
    · have different : name y ≠ name x :=
        fun same => absent (List.mem_map.mpr ⟨x, inside, same.symm⟩)
      rw [List.find?_cons_of_neg (by simpa using different)]
      exact ih distinct inside

theorem argumentOfMem {arguments : List Argument} (distinct : (arguments.map (·.name)).Nodup)
    {a : Argument} (member : a ∈ arguments) : argumentNamed? arguments a.name = some a :=
  foundOfMem distinct member

namespace Field

def DistinctArguments (f : Field) : Prop := (f.arguments.map (·.name)).Nodup

instance : DecidablePred DistinctArguments :=
  fun f => inferInstanceAs (Decidable (f.arguments.map (·.name)).Nodup)

end Field

def TypeDef.inputFields? (t : TypeDef) : Option (Ordered Argument) :=
  match t.body with
  | .inputObject fields => some fields
  | _ => none

inductive TypeBody.Alike : TypeBody → TypeBody → Prop
  | scalar : Alike .scalar .scalar
  | object (before after : ObjectShape) : Alike (.object before) (.object after)
  | interface (before after : ObjectShape) : Alike (.interface before) (.interface after)
  | union (before after : List String) : Alike (.union before) (.union after)
  | enum (before after : List EnumValue) : Alike (.enum before) (.enum after)
  | inputObject (before after : Ordered Argument) : Alike (.inputObject before) (.inputObject after)

theorem TypeBody.alikeOfKind {b c : TypeBody} (same : c.kind = b.kind) : b.Alike c := by
  cases b <;> cases c <;> first | contradiction | constructor

theorem TypeDef.bodyOfScalar {t : TypeDef} (scalar : t.kind = .scalar) : t.body = .scalar := by
  unfold kind at scalar
  cases body : t.body <;> rw [body] at scalar <;> trivial

theorem TypeDef.bodyOfShape {t : TypeDef} {shape : ObjectShape} (shaped : t.shape? = some shape) :
    t.body = .object shape ∨ t.body = .interface shape := by
  unfold shape? at shaped
  cases body : t.body <;> simp_all

theorem TypeDef.inputFieldsIff {t : TypeDef} {fields : Ordered Argument} :
    t.inputFields? = some fields ↔ t.body = .inputObject fields := by
  unfold inputFields?
  cases t.body <;> simp

namespace Model
variable {m : Model}

def field? (m : Model) (type name : String) : Option Field :=
  ((m.type? type).bind TypeDef.shape?).bind fun shape => shape.fields.get? name

def inputFields? (m : Model) (type : String) : Option (Ordered Argument) :=
  (m.type? type).bind TypeDef.inputFields?

def EveryField (m : Model) (P : Field → Prop) : Prop :=
  ∀ t ∈ m.typeList, ∀ shape ∈ t.shape?, ∀ e ∈ shape.fields.entries, P e.2

instance (m : Model) (P : Field → Prop) [DecidablePred P] : Decidable (m.EveryField P) :=
  inferInstanceAs (Decidable (∀ t ∈ m.typeList, ∀ shape ∈ t.shape?, ∀ e ∈ shape.fields.entries, P e.2))

theorem memTypeList {t : TypeDef} : t ∈ m.typeList ↔ ∃ key, (key, t) ∈ m.types.entries := by
  simp [typeList, Ordered.values]

theorem memDirectiveList {d : DirectiveDef} :
    d ∈ m.directiveList ↔ ∃ key, (key, d) ∈ m.directives.entries := by
  simp [directiveList, Ordered.values]

theorem typeMem {name : String} {t : TypeDef} (found : m.type? name = some t) : t ∈ m.typeList :=
  memTypeList.mpr ⟨name, Ordered.getIffMem.mp found⟩

theorem directiveMem {name : String} {d : DirectiveDef} (found : m.directive? name = some d) :
    d ∈ m.directiveList :=
  memDirectiveList.mpr ⟨name, Ordered.getIffMem.mp found⟩

theorem typeName (keyed : m.Keyed) {name : String} {t : TypeDef} (found : m.type? name = some t) :
    t.name = name :=
  (keyed.types _ (Ordered.getIffMem.mp found)).symm

theorem fieldSource {type name : String} {f : Field} (found : m.field? type name = some f) :
    ∃ t shape, m.type? type = some t ∧ t.shape? = some shape ∧ shape.fields.get? name = some f := by
  obtain ⟨shape, shaped, inside⟩ := Option.bind_eq_some_iff.mp found
  obtain ⟨t, typed, same⟩ := Option.bind_eq_some_iff.mp shaped
  exact ⟨t, shape, typed, same, inside⟩

theorem inputSource {type : String} {fields : Ordered Argument}
    (found : m.inputFields? type = some fields) :
    ∃ t, m.type? type = some t ∧ t.body = .inputObject fields := by
  obtain ⟨t, typed, input⟩ := Option.bind_eq_some_iff.mp found
  exact ⟨t, typed, TypeDef.inputFieldsIff.mp input⟩

theorem typeOfMem (keyed : m.Keyed) {t : TypeDef} (member : t ∈ m.typeList) :
    m.type? t.name = some t := by
  obtain ⟨key, entry⟩ := memTypeList.mp member
  have same : key = t.name := keyed.types _ entry
  exact Ordered.getIffMem.mpr (same ▸ entry)

theorem directiveOfMem (keyed : m.Keyed) {d : DirectiveDef} (member : d ∈ m.directiveList) :
    m.directive? d.name = some d := by
  obtain ⟨key, entry⟩ := memDirectiveList.mp member
  have same : key = d.name := keyed.directives _ entry
  exact Ordered.getIffMem.mpr (same ▸ entry)

instance (m : Model) : Decidable m.Keyed :=
  decidable_of_iff ((∀ e ∈ m.types.entries, e.1 = e.2.name) ∧
      (∀ e ∈ m.directives.entries, e.1 = e.2.name) ∧
      ∀ t ∈ m.typeList, (∀ shape ∈ t.shape?, ∀ e ∈ shape.fields.entries, e.1 = e.2.name) ∧
        ∀ fields ∈ t.inputFields?, ∀ e ∈ fields.entries, e.1 = e.2.name)
    ⟨fun ⟨types, directives, members⟩ => ⟨types, directives, fun t member => (members t member).1,
        fun t member fields body => (members t member).2 fields (TypeDef.inputFieldsIff.mpr body)⟩,
      fun keyed => ⟨keyed.types, keyed.directives, fun t member => ⟨keyed.fields t member,
        fun fields input => keyed.inputFields t member fields (TypeDef.inputFieldsIff.mp input)⟩⟩⟩

end Model
end SchemaDrift
