import SchemaDrift.Proofs.Compare.Told
import SchemaDrift.Proofs.Sdl.Resolution
import SchemaDrift.Proofs.Text.Lines

/-! Messages of one line. Beside its own words a message has names, paths of names and texts of type
references, and in models whose names are names none of these has a line feed. -/
namespace SchemaDrift.Compare
open Text (Unbroken)

section Words
variable {s owner member : String}

theorem unbrokenName (named : IsName s) : Unbroken s := markNotInName named rfl

@[simp] theorem unbrokenTicks : Unbroken (inTicks s) ↔ Unbroken s := by
  simp +decide [inTicks]

@[simp] theorem unbrokenPath : Unbroken (qualified owner member) ↔ Unbroken owner ∧ Unbroken member := by
  simp +decide [qualified]

theorem unbrokenType {t : TypeRef} (named : IsName t.core) : Unbroken t.text := by
  induction t with
  | named name => exact unbrokenName named
  | list item ih => simp +decide [TypeRef.text, ih named]
  | nonNull inner ih => simp +decide [TypeRef.text, ih named]

@[simp] theorem unbrokenPhrase (k : TypeKind) : Unbroken k.phrase := by
  cases k <;> decide

end Words

structure Spelled (m : Model) : Prop where
  names : m.Named
  types : m.EveryTypeRef fun t => IsName t.core

namespace Spelled
variable {m : Model} (spelled : Spelled m) {t : TypeDef} (member : t ∈ m.typeList)
include spelled member

theorem type : Unbroken t.name := unbrokenName (Model.typeNamed spelled.names member)

section Shapes
variable {shape : ObjectShape} (shaped : t.shape? = some shape)
include shaped

theorem interface {i : String} (listed : i ∈ shape.interfaces) : Unbroken i :=
  unbrokenName (interfaceNamed (TypeDef.shapeNamed (Model.membersNamed spelled.names member) shaped) listed)

variable {e : String × Field} (inside : e ∈ shape.fields.entries)
include inside

theorem field : Unbroken e.1 := unbrokenName (Model.fieldNamed spelled.names member shaped inside)

theorem fieldType : Unbroken e.2.type.text :=
  unbrokenType (spelled.types.fields t member shape shaped e inside).1

theorem argument {a : Argument} (declared : a ∈ e.2.arguments) :
    Unbroken a.name ∧ Unbroken a.type.text :=
  ⟨unbrokenName (argumentNamed (TypeDef.shapeNamed (Model.membersNamed spelled.names member) shaped)
      inside declared),
    unbrokenType ((spelled.types.fields t member shape shaped e inside).2 a declared)⟩

end Shapes

theorem unionMember {members : List String} (body : t.body = .union members) {name : String}
    (listed : name ∈ members) : Unbroken name :=
  unbrokenName (TypeDef.bodyNamed (Model.membersNamed spelled.names member) body name listed)

theorem value {values : List EnumValue} (body : t.body = .enum values) {v : EnumValue}
    (listed : v ∈ values) : Unbroken v.name :=
  unbrokenName (TypeDef.valueNamed (Model.membersNamed spelled.names member) body listed)

theorem inputField {fields : Ordered Argument} (body : t.body = .inputObject fields)
    {e : String × Argument} (inside : e ∈ fields.entries) : Unbroken e.1 ∧ Unbroken e.2.type.text :=
  ⟨unbrokenName (TypeDef.inputFieldNamed (Model.membersNamed spelled.names member) body inside),
    unbrokenType (spelled.types.inputFields t member fields body e inside)⟩

end Spelled

section Pairs
variable {old new : Model} {options : Options} {o n : TypeDef} {c : Change}
  (before : Spelled old) (after : Spelled new) (left : o ∈ old.typeList) (right : n ∈ new.typeList)
include before after left right

theorem fieldUnbroken (told : FieldTold options o n c) : Unbroken c.message := by
  have owner := before.type left
  cases told with
  | gone shapes member =>
    simp +decide [fieldRemoved, owner, before.field left (shapesOfPair shapes).1 member]
  | retyped shapes member found =>
    obtain ⟨first, second⟩ := shapesOfPair shapes
    simp +decide [fieldRetyped, owner, before.field left first member, before.fieldType left first member,
      after.fieldType right second (Ordered.getIffMem.mp found)]

theorem argumentUnbroken {shape next : ObjectShape} (shapes : shapes? o n = some (shape, next))
    {name : String} {f g : Field} (member : (name, f) ∈ shape.fields.entries)
    (found : next.fields.get? name = some g)
    (told : ArgumentTold options (qualified o.name name) name f g c) : Unbroken c.message := by
  obtain ⟨first, second⟩ := shapesOfPair shapes
  have owner := before.type left
  have field := before.field left first member
  have kept := Ordered.getIffMem.mp found
  cases told with
  | gone declared =>
    simp +decide [argumentRemoved, argumentText, owner, field, before.argument left first member declared]
  | retyped declared counterpart =>
    simp +decide [argumentRetyped, argumentText, owner, field, before.argument left first member declared,
      after.argument right second kept (List.mem_of_find?_eq_some counterpart)]
  | moved declared =>
    simp +decide [defaultChanged, argumentText, owner, field, before.argument left first member declared]
  | @added b declared =>
    have name := after.argument right second kept declared
    cases required : b.isRequired <;> simp +decide [argumentAdded, required, owner, field, name]

theorem memberUnbroken (told : MemberTold o n c) : Unbroken c.message := by
  cases told with
  | gone body listed =>
    simp +decide [memberRemoved, changeAt, before.type left, before.unionMember left body listed]
  | added body listed =>
    simp +decide [memberAdded, changeAt, after.type right, after.unionMember right body listed]

theorem interfaceUnbroken (told : InterfaceTold o n c) : Unbroken c.message := by
  cases told with
  | gone shaped listed =>
    simp +decide [interfaceRemoved, changeAt, before.type left, before.interface left shaped listed]
  | added shaped listed =>
    simp +decide [interfaceAdded, changeAt, after.type right, after.interface right shaped listed]

theorem inputFieldUnbroken (told : InputFieldTold options o n c) : Unbroken c.message := by
  have owner := before.type left
  cases told with
  | gone body _ member =>
    simp +decide [fieldRemoved, owner, before.inputField left body member]
  | retyped body next member found =>
    simp +decide [fieldRetyped, owner, before.inputField left body member,
      after.inputField right next (Ordered.getIffMem.mp found)]
  | added e body member =>
    have name := after.inputField right body member
    cases required : e.2.isRequired <;>
      simp +decide [inputFieldAdded, required, after.type right, name]

theorem pairUnbroken {pass : TypeDef → TypeDef → List Change} (listed : pass ∈ pairPasses options)
    (inside : c ∈ pass o n) : Unbroken c.message := by
  rcases pairPassCases listed with (rfl | rfl | rfl | rfl) | rfl | rfl | rfl | rfl
  · unfold kindChanged at inside
    split at inside
    · rw [List.mem_singleton.mp inside]
      simp +decide [kindChange, before.type left]
    · contradiction
  · exact fieldUnbroken before after left right (fieldTold inside)
  · obtain ⟨_, _, _, _, _, shapes, member, found, told⟩ := argumentsTold inside
    exact argumentUnbroken before after left right shapes member found told
  · obtain ⟨_, _, body, member, rfl⟩ := valueGoneTold inside
    simp +decide [valueRemoved, before.type left, before.value left body member]
  · exact memberUnbroken before after left right (memberTold inside)
  · obtain ⟨_, _, body, member, rfl⟩ := valueAddedTold inside
    simp +decide [valueAdded, after.type right, after.value right body member]
  · exact interfaceUnbroken before after left right (interfaceTold inside)
  · exact inputFieldUnbroken before after left right (inputFieldTold inside)

end Pairs

section Models
variable {old new : Model} {options : Options} {c : Change} (before : Spelled old) (after : Spelled new)
include before

theorem typeRemovedUnbroken {t : TypeDef} (member : t ∈ old.typeList) :
    Unbroken (typeRemoved options t).message := by
  simp +decide [typeRemoved, before.type member]

include after

theorem directiveUnbroken (inside : c ∈ directivePass old new options) : Unbroken c.message := by
  obtain ⟨d, member, told⟩ := directiveTold inside
  have named := Model.directiveNamed before.names member
  have owner := unbrokenName (DirectiveDef.selfNamed named)
  cases told with
  | gone => simp +decide [directiveRemoved, owner]
  | argumentGone _ declared =>
    have argument := unbrokenName (DirectiveDef.argumentNamed named declared)
    simp +decide [directiveArgumentRemoved, droppedFrom, owner, argument]
  | @argumentAdded e b found declared =>
    have kept := Model.directiveNamed after.names (Model.directiveMem found)
    have argument := unbrokenName (DirectiveDef.argumentNamed kept declared)
    simp +decide [directiveArgumentAdded, owner, argument]
  | siteGone _ listed =>
    have site := unbrokenName (DirectiveDef.siteNamed named listed)
    simp +decide [siteRemoved, droppedFrom, owner, site]

theorem messagesUnbroken (inside : c ∈ changes old new options) : Unbroken c.message := by
  cases memChanges.mp inside with
  | removed member _ _ same => exact same ▸ typeRemovedUnbroken before member
  | pair member found listed inside =>
    exact pairUnbroken before after member (Model.typeMem found) listed inside
  | directive inside => exact directiveUnbroken before after inside

end Models

end SchemaDrift.Compare
