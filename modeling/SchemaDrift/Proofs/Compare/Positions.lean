import SchemaDrift.Proofs.Compare.Categories
import SchemaDrift.Proofs.Sdl.DocumentModel

/-! Where changes point. Only a field that is gone has a position in the old model alone; every other
change that has a position points to an element of the new model. -/
namespace SchemaDrift

def argumentPositions (owner : Option Location) (arguments : List Argument) : List Location :=
  owner.toList ++ arguments.filterMap (·.location)

def Field.positions (f : Field) : List Location := argumentPositions f.location f.arguments

def ObjectShape.positions (s : ObjectShape) : List Location := s.fields.values.flatMap Field.positions

def TypeBody.positions : TypeBody → List Location
  | .object shape => shape.positions
  | .interface shape => shape.positions
  | .enum values => values.filterMap (·.location)
  | .inputObject fields => fields.values.filterMap (·.location)
  | _ => []

def TypeDef.positions (t : TypeDef) : List Location := t.location.toList ++ t.body.positions

def DirectiveDef.positions (d : DirectiveDef) : List Location :=
  argumentPositions d.location d.arguments

def Model.positions (m : Model) : List Location :=
  m.typeList.flatMap TypeDef.positions ++ m.directiveList.flatMap DirectiveDef.positions

section Positions
variable {l : Location}

theorem positionOfOwner {owner : Option Location} {arguments : List Argument}
    (here : owner = some l) : l ∈ argumentPositions owner arguments :=
  List.mem_append_left _ (Option.mem_toList.mpr here)

theorem positionOfArgument {owner : Option Location} {arguments : List Argument} {a : Argument}
    (member : a ∈ arguments) (here : a.location = some l) : l ∈ argumentPositions owner arguments :=
  List.mem_append_right _ (List.mem_filterMap.mpr ⟨a, member, here⟩)

theorem positionOfType {t : TypeDef} (here : t.location = some l) : l ∈ t.positions :=
  List.mem_append_left _ (Option.mem_toList.mpr here)

theorem positionInShape {t : TypeDef} {shape : ObjectShape} (shaped : t.shape? = some shape)
    {name : String} {f : Field} (found : shape.fields.get? name = some f) (inside : l ∈ f.positions) :
    l ∈ t.positions := by
  have positions : l ∈ shape.positions :=
    List.mem_flatMap.mpr ⟨f, List.mem_map_of_mem (Ordered.getIffMem.mp found), inside⟩
  refine List.mem_append_right _ ?_
  unfold TypeDef.shape? at shaped
  split at shaped
  · rename_i object
    cases shaped
    exact object ▸ positions
  · rename_i interface
    cases shaped
    exact interface ▸ positions
  · contradiction

theorem positionOfValue {t : TypeDef} {values : List EnumValue} (enum : t.body = .enum values)
    {v : EnumValue} (member : v ∈ values) (here : v.location = some l) : l ∈ t.positions := by
  refine List.mem_append_right _ ?_
  rw [enum]
  exact List.mem_filterMap.mpr ⟨v, member, here⟩

theorem positionOfInputField {t : TypeDef} {fields : Ordered Argument}
    (input : t.body = .inputObject fields) {e : String × Argument} (member : e ∈ fields.entries)
    (here : e.2.location = some l) : l ∈ t.positions := by
  refine List.mem_append_right _ ?_
  rw [input]
  exact List.mem_filterMap.mpr ⟨e.2, List.mem_map_of_mem member, here⟩

end Positions

namespace Compare
variable {options : Options} {o n : TypeDef} {c : Change}

inductive LostField (o n : TypeDef) (resource : String) (location : Option Location) : Prop
  | field {before after : ObjectShape} {name : String} {f : Field}
    (shapes : shapes? o n = some (before, after)) (member : (name, f) ∈ before.fields.entries)
    (absent : after.fields.get? name = none) (named : resource = qualified o.name name)
    (here : location = f.location)
  | inputField {before after : Ordered Argument} {name : String} {f : Argument}
    (old : o.body = .inputObject before) (new : n.body = .inputObject after)
    (member : (name, f) ∈ before.entries) (absent : after.get? name = none)
    (named : resource = qualified o.name name) (here : location = f.location)

/- Of a field that is gone, or of anything else and then pointing to one of some positions. -/
inductive Points (o n : TypeDef) (c : Change) : Prop
  | old (gone : c.category = .fieldRemoved) (field : LostField o n c.resource c.location)
  | new (kept : c.category ≠ .fieldRemoved) (inside : ∀ l, c.location = some l → l ∈ n.positions)

theorem pointsToType {categories : List Category} (category : c.category ∈ categories)
    (other : .fieldRemoved ∉ categories) (here : c.location = n.location) : Points o n c :=
  .new (fun same => other (same ▸ category)) fun _ position => positionOfType (here ▸ position)

theorem fieldPoints (told : c ∈ fieldsChanged options o n) : Points o n c := by
  cases fieldTold told with
  | gone shapes member absent => exact .old rfl (.field shapes member absent rfl rfl)
  | retyped shapes member found =>
    refine .new (by simp [fieldRetyped]) fun l here => ?_
    exact positionInShape (shapesOfPair shapes).2 found (positionOfOwner here)

theorem argumentPoints (told : c ∈ argumentsChanged options o n) : Points o n c := by
  obtain ⟨before, after, name, f, g, shapes, _, found, change⟩ := argumentsTold told
  have other : c.category ≠ .fieldRemoved := fun same => by
    simpa [same] using argumentsCategory c told
  refine .new other fun l here => positionInShape (shapesOfPair shapes).2 found ?_
  cases change with
  | gone => exact positionOfOwner here
  | retyped declared kept => exact positionOfArgument (List.mem_of_find?_eq_some kept) here
  | moved declared kept => exact positionOfArgument (List.mem_of_find?_eq_some kept) here
  | added declared => exact positionOfArgument declared here

theorem inputFieldPoints (told : c ∈ inputFieldsChanged options o n) : Points o n c := by
  cases inputFieldTold told with
  | gone old new member absent => exact .old rfl (.inputField old new member absent rfl rfl)
  | retyped _ new _ found =>
    refine .new (by simp [fieldRetyped]) fun l here => ?_
    exact positionOfInputField new (Ordered.getIffMem.mp found) here
  | added e new member =>
    have other : (inputFieldAdded n.name e).category ≠ .fieldRemoved := by
      cases required : e.2.isRequired <;> simp [inputFieldAdded, required]
    exact .new other fun l here => positionOfInputField new member here

theorem valueAddedPoints (told : c ∈ valuesAdded o n) : Points o n c := by
  obtain ⟨v, after, enum, member, rfl⟩ := valueAddedTold told
  exact .new (by simp [valueAdded]) fun l here => positionOfValue enum member here

theorem pairPoints {pass : TypeDef → TypeDef → List Change} (listed : pass ∈ pairPasses options)
    (told : c ∈ pass o n) : Points o n c := by
  rcases pairPassCases listed with (rfl | rfl | rfl | rfl) | rfl | rfl | rfl | rfl
  · refine pointsToType (kindsCategory c told) (by simp) ?_
    unfold kindChanged at told
    split at told
    · rw [List.mem_singleton.mp told]
      rfl
    · contradiction
  · exact fieldPoints told
  · exact argumentPoints told
  · refine pointsToType (valuesRemovedCategory c told) (by simp) ?_
    obtain ⟨_, _, _, _, rfl⟩ := valueGoneTold told
    rfl
  · refine pointsToType (membersCategory c told) (by simp) ?_
    cases memberTold told <;> rfl
  · exact valueAddedPoints told
  · refine pointsToType (interfacesCategory c told) (by simp) ?_
    cases interfaceTold told <;> rfl
  · exact inputFieldPoints told

section Models
variable {old new : Model}

theorem directivePoints (told : c ∈ directivePass old new options) {l : Location}
    (here : c.location = some l) : l ∈ new.positions := by
  obtain ⟨d, _, change⟩ := directiveTold told
  have inside : ∀ e, new.directive? d.name = some e → l ∈ e.positions → l ∈ new.positions := by
    intro e found position
    exact List.mem_append_right _ (List.mem_flatMap.mpr ⟨e, Model.directiveMem found, position⟩)
  cases change with
  | gone => contradiction
  | argumentGone found _ => exact inside _ found (positionOfOwner here)
  | argumentAdded found declared => exact inside _ found (positionOfArgument declared here)
  | siteGone found _ => exact inside _ found (positionOfOwner here)

end Models

/- For any two models. A change of a field that is gone points to the field, which only the old model
has. -/
theorem changesPointIntoNew (old new : Model) (options : Options) (c : Change)
    (told : c ∈ (compare old new options).toList) :
    (c.category ≠ .fieldRemoved → ∀ l, c.location = some l → l ∈ new.positions) ∧
    (c.category = .fieldRemoved → ∃ t ∈ old.typeList, ∃ u, new.type? t.name = some u ∧
      LostField t u c.resource c.location) := by
  rcases memChanges.mp (toldPerm.mem_iff.mp told) with
    ⟨_, _, _, rfl⟩ | ⟨member, found, listed, inside⟩ | inside
  · exact ⟨fun _ l here => by contradiction, fun same => by contradiction⟩
  · rename_i t u pass
    cases pairPoints listed inside with
    | old gone field => exact ⟨fun other => absurd gone other, fun _ => ⟨t, member, u, found, field⟩⟩
    | new kept position =>
      refine ⟨fun _ l here => ?_, fun gone => absurd gone kept⟩
      exact List.mem_append_left _ (List.mem_flatMap.mpr ⟨u, Model.typeMem found, position l here⟩)
  · refine ⟨fun _ l here => directivePoints inside here, fun gone => ?_⟩
    have about := directiveSubject inside
    rw [gone] at about
    contradiction

section Examples

def fieldGone : Change :=
  ⟨.fieldRemoved, "`Query.b` removed from schema", "Query.b", some ⟨2, 2⟩, false, none⟩

def argumentGone : Change :=
  ⟨.argRemoved, "`Query.a` arg `x` removed from schema", "a.x", some ⟨1, 14⟩, false, none⟩

theorem changesPointIntoNewOfArgument : ∃ old new,
    Sdl.readSchema "type Query \x7b a(x: Int): Int\n b: Int \x7d" = .ok old ∧
    Sdl.readSchema "type Query \x7b a: Int \x7d" = .ok new ∧
    argumentGone ∈ (compare old new .standard).toList ∧ ⟨1, 14⟩ ∈ new.positions ∧
    fieldGone ∈ (compare old new .standard).toList ∧ ∃ t ∈ old.typeList, ∃ u,
      new.type? t.name = some u ∧ LostField t u "Query.b" (some ⟨2, 2⟩) := by
  obtain ⟨old, new, readOld, readNew, told⟩ := Sdl.modelsRead
    "type Query \x7b a(x: Int): Int\n b: Int \x7d" "type Query \x7b a: Int \x7d"
    (fun old new => decide (argumentGone ∈ (compare old new .standard).toList ∧
      fieldGone ∈ (compare old new .standard).toList)) (by decide +kernel)
  obtain ⟨argument, field⟩ := of_decide_eq_true told
  have kept := (changesPointIntoNew old new .standard argumentGone argument).1 (by decide)
  have lost := (changesPointIntoNew old new .standard fieldGone field).2 rfl
  exact ⟨old, new, readOld, readNew, argument, kept ⟨1, 14⟩ rfl, field, lost⟩

theorem removedFieldElsewhere : ¬ ∀ before after old new options,
    Sdl.readSchema before = .ok old → Sdl.readSchema after = .ok new →
    ∀ c ∈ (compare old new options).toList, ∀ l, c.location = some l → l ∈ new.positions := by
  intro inNew
  obtain ⟨old, new, readOld, readNew, told⟩ := Sdl.modelsRead "type Query \x7b a: Int\n b: Int \x7d"
    "type Query \x7b a: Int \x7d" (fun old new => decide
      (fieldGone ∈ (compare old new .standard).toList ∧ ⟨2, 2⟩ ∉ new.positions)) (by decide +kernel)
  obtain ⟨field, elsewhere⟩ := of_decide_eq_true told
  exact elsewhere (inNew _ _ old new .standard readOld readNew fieldGone field ⟨2, 2⟩ rfl)

end Examples

end Compare
end SchemaDrift
