import SchemaDrift.Proofs.Compare.Passes
import SchemaDrift.Proofs.Schema.Model
import SchemaDrift.Proofs.Schema.Stripped

/-! What a comparison decides is not decided by annotations: every pass says of two models what it
says of them stripped, but for positions and for whether a mark is set. -/
namespace SchemaDrift

namespace Change

structure Agrees (c d : Change) : Prop where
  category : c.category = d.category
  message : c.message = d.message
  resource : c.resource = d.resource
  marked : c.wasRequired.isSome = d.wasRequired.isSome

def stripped (c : Change) : Change :=
  { c with location := none, wasDeprecated := false
           wasRequired := c.wasRequired.map fun _ => false }

theorem agreesOfStripped {c d : Change} (same : c.stripped = d.stripped) : c.Agrees d := by
  obtain ⟨category, message, resource, _, _, marked⟩ := (Change.mk.injEq ..).mp same
  refine ⟨category, message, resource, ?_⟩
  simpa using congrArg Option.isSome marked

end Change

namespace Compare

/- A pass that agrees with another one on stripped types, and overlooks the types that stripping
leaves out. -/
structure Strips (pass plain : TypeDef → TypeDef → List Change) : Prop where
  same : ∀ t u, (pass t u).map Change.stripped = plain t.stripped u.stripped
  silent : ∀ t u, isBuiltInType t.name = true → t.body = .scalar ∨ u.body = .scalar → pass t u = []

section Pairs
variable (options plain : Options)

theorem kindsStrip : Strips (kindChanged options) (kindChanged plain) where
  same t u := by
    have change : (kindChange options t u).stripped = kindChange plain t.stripped u.stripped := by
      simp only [kindChange, TypeDef.kindStripped]
      rfl
    simp only [kindChanged, TypeDef.nameStripped, TypeDef.kindStripped, ← change]
    split <;> rfl
  silent t u builtIn _ := by simp [kindChanged, builtIn]

theorem shapesStripped (t u : TypeDef) : shapes? t.stripped u.stripped =
    (shapes? t u).map fun s => (s.1.stripped, s.2.stripped) := by
  unfold shapes? TypeDef.stripped
  cases t.body <;> cases u.body <;> rfl

theorem onShapesStrip {each bare : TypeDef → TypeDef → ObjectShape → ObjectShape → List Change}
    (strip : ∀ t u before after, (each t u before after).map Change.stripped =
      bare t.stripped u.stripped before.stripped after.stripped) :
    Strips (onShapes each) (onShapes bare) where
  same t u := by
    unfold onShapes
    rw [shapesStripped]
    cases shapes? t u with
    | none => rfl
    | some shapes => exact strip t u shapes.1 shapes.2
  silent t u _ scalar := by
    unfold onShapes shapes?
    rcases scalar with body | body <;> simp [body]

theorem onEnumsStrip {each bare : TypeDef → TypeDef → List EnumValue → List EnumValue → List Change}
    (strip : ∀ t u before after, (each t u before after).map Change.stripped =
      bare t.stripped u.stripped (before.map EnumValue.stripped) (after.map EnumValue.stripped)) :
    Strips (onEnums each) (onEnums bare) where
  same t u := by
    unfold onEnums TypeDef.stripped
    cases old : t.body <;> cases new : u.body <;> first | rfl | skip
    simpa only [TypeBody.stripped, TypeDef.stripped, old, new] using strip t u _ _
  silent t u _ scalar := by
    unfold onEnums
    rcases scalar with body | body <;> simp [body]

theorem fieldChangeStripped (owner : String) (fields : Ordered Field) (e : String × Field) :
    (fieldChange options owner fields e).map Change.stripped =
      fieldChange plain owner (fields.map Field.stripped) (e.1, e.2.stripped) := by
  simp only [fieldChange, Ordered.getMap]
  cases fields.get? e.1 with
  | none => rfl
  | some g =>
    simp only [Option.map_some, apply_ite (List.map Change.stripped)]
    rfl

theorem fieldsStrip : Strips (fieldsChanged options) (fieldsChanged plain) :=
  onShapesStrip fun t u before after => by
    simp only [List.map_flatMap, fieldChangeStripped options plain, ObjectShape.stripped,
      Ordered.entriesMap, List.flatMap_map, TypeDef.nameStripped]

theorem argumentChangeStripped (path name : String) (g : Field) (a : Argument) :
    (argumentChange options path name g a).map Change.stripped =
      argumentChange plain path name g.stripped a.stripped := by
  simp only [argumentChange, Field.argumentsStripped, Argument.nameStripped, argumentStripped]
  cases argumentNamed? g.arguments a.name with
  | none => rfl
  | some b =>
    simp only [Option.map_some, apply_ite (List.map Change.stripped)]
    rfl

theorem addedArgumentsStripped (path : String) (f g : Field) :
    (addedArguments path f g).map Change.stripped = addedArguments path f.stripped g.stripped := by
  simp only [addedArguments, Field.argumentsStripped, argumentStripped, List.filter_map,
    List.map_map, Function.comp_def, Argument.nameStripped, Option.isNone_map]
  rfl

theorem fieldArgumentsStripped (owner : String) (fields : Ordered Field) (e : String × Field) :
    (fieldArgumentChanges options owner fields e).map Change.stripped =
      fieldArgumentChanges plain owner (fields.map Field.stripped) (e.1, e.2.stripped) := by
  simp only [fieldArgumentChanges, Ordered.getMap]
  cases fields.get? e.1 with
  | none => rfl
  | some g =>
    simp only [Option.map_some, List.map_append, addedArgumentsStripped, List.map_flatMap,
      argumentChangeStripped options plain, Field.argumentsStripped, List.flatMap_map]

theorem argumentsStrip : Strips (argumentsChanged options) (argumentsChanged plain) :=
  onShapesStrip fun t u before after => by
    simp only [List.map_flatMap, fieldArgumentsStripped options plain, ObjectShape.stripped,
      Ordered.entriesMap, List.flatMap_map, TypeDef.nameStripped]

theorem valuesRemovedStrip : Strips (valuesRemoved options) (valuesRemoved plain) :=
  onEnumsStrip fun t u before after => by
    simp only [List.filter_map, List.map_map, Function.comp_def, List.any_map, EnumValue.nameStripped]
    rfl

theorem valuesAddedStrip : Strips valuesAdded valuesAdded :=
  onEnumsStrip fun t u before after => by
    simp only [List.filter_map, List.map_map, Function.comp_def, enumValueStripped,
      EnumValue.nameStripped, Option.isNone_map]
    rfl

theorem interfacesStrip : Strips interfacesChanged interfacesChanged :=
  onShapesStrip fun t u before after => by
    simp only [List.map_append, List.map_map]
    rfl

theorem membersStrip : Strips membersChanged membersChanged where
  same t u := by
    unfold membersChanged TypeDef.stripped
    cases old : t.body <;> cases new : u.body <;> first | rfl | skip
    simp only [TypeBody.stripped, List.map_append, List.map_map]
    rfl
  silent t u _ scalar := by
    unfold membersChanged
    rcases scalar with body | body <;> simp [body]

theorem inputFieldChangeStripped (owner : String) (fields : Ordered Argument)
    (e : String × Argument) :
    (inputFieldChange options owner fields e).map Change.stripped =
      inputFieldChange plain owner (fields.map Argument.stripped) (e.1, e.2.stripped) := by
  simp only [inputFieldChange, Ordered.getMap]
  cases fields.get? e.1 with
  | none => rfl
  | some g =>
    simp only [Option.map_some, apply_ite (List.map Change.stripped)]
    rfl

theorem inputFieldsStrip : Strips (inputFieldsChanged options) (inputFieldsChanged plain) where
  same t u := by
    unfold inputFieldsChanged TypeDef.stripped
    cases old : t.body <;> cases new : u.body <;> first | rfl | skip
    simp only [TypeBody.stripped, List.map_append, List.map_flatMap,
      inputFieldChangeStripped options plain, Ordered.entriesMap, Ordered.containsMap,
      List.flatMap_map, List.filter_map, List.map_map, Function.comp_def]
    rfl
  silent t u _ scalar := by
    unfold inputFieldsChanged
    rcases scalar with body | body <;> simp [body]

theorem directivePairStripped (resource : String) (d e : DirectiveDef) :
    (directivePairChanges options resource d e).map Change.stripped =
      directivePairChanges plain resource d.stripped e.stripped := by
  simp only [directivePairChanges, DirectiveDef.stripped, argumentStripped, List.map_append,
    List.map_map, List.filter_map, Function.comp_def, Option.isNone_map, Argument.nameStripped,
    Argument.requiredStripped]
  rfl

theorem directiveChangeStripped (new : Model) (d : DirectiveDef) :
    (directiveChange options new d).map Change.stripped =
      directiveChange plain new.stripped d.stripped := by
  simp only [directiveChange, DirectiveDef.nameStripped, Model.directiveStripped]
  cases isBuiltInDirective d.name with
  | true => rfl
  | false =>
    cases new.directive? d.name with
    | none => rfl
    | some e => exact directivePairStripped options plain _ d e

end Pairs

def StripsOver (pass plain : TypePass) : Prop :=
  ∀ t found, (∀ u ∈ found, u.name = t.name) → (pass t found).map Change.stripped =
    if t.isBuiltInScalar then []
    else plain t.stripped ((found.filter fun u => !u.isBuiltInScalar).map TypeDef.stripped)

section Models
variable {options plain : Options} {old new : Model}

theorem removalStrips : StripsOver (removal options) (removal plain) := by
  intro t found names
  cases builtIn : isBuiltInType t.name with
  | true =>
    have nothing : ∀ other, removal plain t.stripped other = [] := by
      intro other
      cases other <;> simp [removal, builtIn]
    rw [nothing]
    cases found <;> simp [removal, builtIn]
  | false =>
    have declared : t.isBuiltInScalar = false := by simp [TypeDef.isBuiltInScalar, builtIn]
    cases found with
    | none =>
      rw [declared]
      simp only [removal, Option.filter_none, Option.map_none, TypeDef.nameStripped, builtIn]
      rfl
    | some u =>
      have kept : u.isBuiltInScalar = false := by
        simp [TypeDef.isBuiltInScalar, names u rfl, builtIn]
      rw [declared, Option.filter_some_pos (by simp [kept])]
      rfl

theorem onPairStrips {pass bare : TypeDef → TypeDef → List Change} (strips : Strips pass bare) :
    StripsOver (onPair pass) (onPair bare) := by
  intro t found names
  cases found with
  | none => simp [onPair]
  | some u =>
    cases here : t.isBuiltInScalar with
    | true =>
      obtain ⟨builtIn, scalar⟩ := Bool.and_eq_true_iff.mp here
      simp [onPair, strips.silent t u builtIn (.inl (TypeDef.bodyOfScalar (beq_iff_eq.mp scalar)))]
    | false =>
      cases there : u.isBuiltInScalar with
      | true =>
        obtain ⟨builtIn, scalar⟩ := Bool.and_eq_true_iff.mp there
        rw [names u rfl] at builtIn
        rw [Option.filter_some_neg (by simp [there])]
        exact congrArg _ (strips.silent t u builtIn (.inr (TypeDef.bodyOfScalar (beq_iff_eq.mp scalar))))
      | false =>
        rw [Option.filter_some_pos (by simp [there])]
        exact strips.same t u

theorem matchedFlatMap {α β γ : Type} {R : α → β → Prop} {xs : List α} {ys : List β}
    (pairs : List.Forall₂ R xs ys) {f : α → List γ} {g : β → List γ}
    (each : ∀ x y, R x y → f x = g y) : xs.flatMap f = ys.flatMap g := by
  induction pairs with
  | nil => rfl
  | cons related _ ih => rw [List.flatMap_cons, List.flatMap_cons, ih, each _ _ related]

theorem overTypesStripped (after : new.Keyed) {pass bare : TypePass}
    (strips : StripsOver pass bare) :
    (overTypes old new pass).map Change.stripped = overTypes old.stripped new.stripped bare := by
  have each : ∀ t, (pass t (new.type? t.name)).map Change.stripped =
      if t.isBuiltInScalar then [] else bare t.stripped (new.stripped.type? t.name) := by
    intro t
    rw [Model.typeStripped]
    exact strips t _ fun u found => Model.typeName after found
  unfold overTypes
  rw [Model.typesStripped, List.map_flatMap, List.flatMap_map]
  simp only [each, TypeDef.nameStripped]
  induction old.typeList with
  | nil => rfl
  | cons t rest ih =>
    rw [List.flatMap_cons, List.filter_cons, ih]
    cases t.isBuiltInScalar <;> rfl

theorem passesStrip (same : options.extended = plain.extended) :
    List.Forall₂ StripsOver (typePasses options) (typePasses plain) := by
  have pairs : List.Forall₂ Strips (pairPasses options) (pairPasses plain) := by
    unfold pairPasses
    rw [same]
    have core : List.Forall₂ Strips (corePairPasses options) (corePairPasses plain) :=
      .cons (kindsStrip options plain) <| .cons (fieldsStrip options plain) <|
        .cons (argumentsStrip options plain) <| .cons (valuesRemovedStrip options plain) .nil
    have further : List.Forall₂ Strips (extendedPairPasses options) (extendedPairPasses plain) :=
      .cons membersStrip <| .cons valuesAddedStrip <| .cons interfacesStrip <|
        .cons (inputFieldsStrip options plain) .nil
    cases plain.extended with
    | false => exact List.rel_append core .nil
    | true => exact List.rel_append core further
  refine .cons removalStrips ?_
  rw [List.forall₂_map_left_iff, List.forall₂_map_right_iff]
  exact pairs.imp fun _ _ strips => onPairStrips strips

theorem directivesStripped (same : options.extended = plain.extended) :
    (directivePass old new options).map Change.stripped =
      directivePass old.stripped new.stripped plain := by
  unfold directivePass
  rw [same]
  cases plain.extended with
  | false => rfl
  | true =>
    simp only [if_pos, directiveChanges, List.map_flatMap, directiveChangeStripped options plain,
      Model.directivesStripped, List.flatMap_map]

theorem changesStripped (after : new.Keyed) (same : options.extended = plain.extended) :
    (changes old new options).map Change.stripped = changes old.stripped new.stripped plain := by
  rw [changesByPass, changesByPass, List.map_append, directivesStripped same, List.map_flatMap]
  rw [matchedFlatMap (passesStrip same) fun pass bare strips => overTypesStripped after strips]

end Models

theorem agreeing {xs ys : List Change} {keep : Change → Bool}
    (blind : ∀ c : Change, keep c.stripped = keep c)
    (same : xs.map Change.stripped = ys.map Change.stripped) :
    List.Forall₂ Change.Agrees (xs.filter keep) (ys.filter keep) := by
  have kept : (xs.filter keep).map Change.stripped = (ys.filter keep).map Change.stripped := by
    have filtered := congrArg (List.filter keep) same
    simpa only [List.filter_map, Function.comp_def, blind] using filtered
  rw [← List.forall₂_eq_eq_eq, List.forall₂_map_left_iff, List.forall₂_map_right_iff] at kept
  exact kept.imp fun _ _ => Change.agreesOfStripped

section Sample

def sampleType (line : UInt64) (marks : List AppliedDirective) (first : TypeRef) (value : Int64) :
    TypeDef :=
  ⟨"Q", some ⟨line, 1⟩, marks, .object ⟨[], ⟨[("f", ⟨"f", .named "Q",
    [⟨"a", first, none, some ⟨line, 12⟩, marks⟩, ⟨"b", .named "Int", some (.integer value), none, []⟩],
    some ⟨line, 10⟩, marks⟩)], by simp⟩⟩⟩

def sampleDirective (line : UInt64) (repeatable : Bool) : DirectiveDef :=
  ⟨"d", some ⟨line, 1⟩, [], ["FIELD"], repeatable⟩

def sampleOld : Model :=
  ⟨⟨[("Q", sampleType 1 [.bare "required"] (.named "Int") 1)], by decide⟩,
    ⟨[("d", sampleDirective 2 false)], by decide⟩, .unset⟩

def sampleNew : Model :=
  ⟨⟨[("Q", sampleType 1 [] (.nonNull (.named "Int")) 2)], by decide⟩,
    ⟨[("d", sampleDirective 2 true)], by decide⟩, .unset⟩

def annotatedOld : Model :=
  ⟨⟨[("Int", .implicitScalar "Int"), ("Q", sampleType 4 [.bare "deprecated"] (.named "Int") 1)],
      by decide⟩, ⟨[("d", sampleDirective 9 true)], by decide⟩, ⟨some "Q", none, none⟩⟩

def annotatedNew : Model :=
  ⟨⟨[("Q", sampleType 7 [] (.nonNull (.named "Int")) 2), ("__Time", .implicitScalar "__Time")],
      by decide⟩, ⟨[("d", sampleDirective 5 false)], by decide⟩, .unset⟩

end Sample

theorem annotationsUndecisive {old old' new new' : Model} {options options' : Options}
    (after : new.Keyed) (after' : new'.Keyed) (oldSame : old.stripped = old'.stripped)
    (newSame : new.stripped = new'.stripped) (checks : options.extended = options'.extended) :
    List.Forall₂ Change.Agrees (compare old new options).breaking
        (compare old' new' options').breaking ∧
      List.Forall₂ Change.Agrees (compare old new options).dangerous
        (compare old' new' options').dangerous := by
  have same : (changes old new options).map Change.stripped =
      (changes old' new' options').map Change.stripped := by
    rw [changesStripped after checks, changesStripped after' rfl, oldSame, newSame]
  exact ⟨agreeing (fun _ => rfl) same, agreeing (fun _ => rfl) same⟩

theorem annotationsUndecisiveOfMarks :
    (compare sampleOld sampleNew ⟨true, "deprecated", "required"⟩).breaking.map (·.wasRequired) =
      [some true] ∧
    (compare annotatedOld annotatedNew ⟨true, "gone", "internal"⟩).breaking.map (·.wasRequired) =
      [some false] ∧
    List.Forall₂ Change.Agrees
      (compare sampleOld sampleNew ⟨true, "deprecated", "required"⟩).breaking
      (compare annotatedOld annotatedNew ⟨true, "gone", "internal"⟩).breaking ∧
    List.Forall₂ Change.Agrees
      (compare sampleOld sampleNew ⟨true, "deprecated", "required"⟩).dangerous
      (compare annotatedOld annotatedNew ⟨true, "gone", "internal"⟩).dangerous :=
  ⟨by decide +kernel, by decide +kernel,
    annotationsUndecisive (by decide +kernel) (by decide +kernel) rfl rfl rfl⟩

end Compare
end SchemaDrift
