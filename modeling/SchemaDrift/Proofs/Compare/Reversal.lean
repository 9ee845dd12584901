import SchemaDrift.Proofs.Compare.Categories
import SchemaDrift.Proofs.Sdl.DocumentModel

/-! Comparisons the other way round. Both directions look at the same pairs of types and of fields,
each in the order of its own old version; what one direction tells as added, the other one tells as
removed. -/
namespace SchemaDrift.Compare

def resources (categories : List Category) (changes : List Change) : List String :=
  (under categories changes).map (·.resource)

section Pairs
variable {old new : Model}

theorem pairsShared (before : old.Keyed) (new : Model) :
    typePairs old new = (old.types.shared new.types).map (·.2) := by
  unfold typePairs Ordered.shared Model.typeList Ordered.values
  rw [List.filterMap_map, List.map_filterMap]
  refine List.filterMap_congr fun e member => ?_
  rw [Function.comp_apply, Model.type?, ← before.types e member, Option.map_map]
  rfl

theorem pairsReversed (before : old.Keyed) (after : new.Keyed) :
    (typePairs old new).Perm ((typePairs new old).map Prod.swap) := by
  rw [pairsShared before, pairsShared after, List.map_map]
  refine ((Ordered.sharedReversed old.types new.types).map _).trans (.of_eq ?_)
  rw [List.map_map]
  rfl

theorem pairNames (after : new.Keyed) {p : TypeDef × TypeDef} (member : p ∈ typePairs old new) :
    p.2.name = p.1.name := by
  obtain ⟨t, _, found⟩ := List.mem_filterMap.mp member
  obtain ⟨u, there, rfl⟩ := Option.map_eq_some_iff.mp found
  exact Model.typeName after there

theorem overPairsReversed {α : Type} (before : old.Keyed) (after : new.Keyed)
    {forth back : TypeDef → TypeDef → List α}
    (each : ∀ t u, u.name = t.name → (forth t u).Perm (back u t)) :
    (overPairs old new forth).Perm (overPairs new old back) := by
  have pairwise : (overPairs old new forth).Perm
      ((typePairs old new).flatMap fun p => back p.2 p.1) :=
    List.Perm.flatMap_left _ fun p member => each p.1 p.2 (pairNames after member)
  refine pairwise.trans (((pairsReversed before after).flatMap_right _).trans (.of_eq ?_))
  rw [List.flatMap_map]
  rfl

theorem resourcesOverPairs (categories : List Category) (pass : TypeDef → TypeDef → List Change) :
    resources categories (overPairs old new pass) =
      overPairs old new fun t u => resources categories (pass t u) := by
  unfold resources
  rw [underPairs]
  exact List.map_flatMap

theorem resourcesReversed {options : Options} (before : old.Keyed) (after : new.Keyed)
    {gains losses : List Category}
    (members : ∀ k ∈ gains ++ losses, k ≠ .typeRemoved ∧ subject k ≠ .directive)
    (each : ∀ t u, u.name = t.name → resources gains (pairReport options t u) =
      resources losses (pairReport options u t)) :
    (resources gains (compare old new options).toList).Perm
      (resources losses (compare new old options).toList) := by
  have told : ∀ {a b : Model} {categories : List Category},
      (∀ k ∈ categories, k ≠ .typeRemoved ∧ subject k ≠ .directive) →
      (resources categories (compare a b options).toList).Perm
        (overPairs a b fun t u => resources categories (pairReport options t u)) := by
    intro a b categories apart
    refine ((toldUnder (fun listed => (apart _ listed).1 rfl)
      fun k listed => (apart k listed).2).map _).trans (.of_eq ?_)
    simp only [overPairs, List.map_flatMap, resources]
  have swapped := overPairsReversed before after fun t u name => .of_eq (each t u name)
  exact (told fun k listed => members k (List.mem_append_left _ listed)).trans
    (swapped.trans (told fun k listed => members k (List.mem_append_right _ listed)).symm)

end Pairs

section Reports
variable {options : Options} {t u : TypeDef}

theorem membersReversed : resources [.typeAddedToUnion] (membersChanged t u) =
    resources [.typeRemovedFromUnion] (membersChanged u t) := by
  unfold membersChanged
  cases t.body <;> cases u.body <;> first | rfl | skip
  rename_i before after
  simp [resources, under, List.filter_map, Function.comp_def, memberAdded, memberRemoved, changeAt]

theorem valuesReversed : (valuesAdded t u).map (·.resource) =
    (valuesRemoved options u t).map (·.resource) := by
  unfold valuesAdded valuesRemoved onEnums
  cases t.body <;> cases u.body <;> first | rfl | skip
  rename_i before after
  have absent : ∀ v : EnumValue, (enumValueNamed? before v.name).isNone =
      !before.any (·.name == v.name) := by
    intro v
    rw [Bool.eq_iff_iff, Option.isNone_iff_eq_none]
    simp [enumValueNamed?]
  simp only [absent, List.map_map, Function.comp_def, valueAdded, valueRemoved]

theorem shapesReversed (t u : TypeDef) : shapes? u t = (shapes? t u).map Prod.swap := by
  unfold shapes?
  cases t.body <;> cases u.body <;> rfl

theorem interfacesReversed : resources [.interfaceAddedToObject] (interfacesChanged t u) =
    resources [.interfaceRemovedFromObject] (interfacesChanged u t) := by
  unfold interfacesChanged onShapes
  rw [shapesReversed t u]
  cases shapes? t u with
  | none => rfl
  | some shapes =>
    simp [resources, under, List.filter_map, Function.comp_def, interfaceAdded, interfaceRemoved,
      changeAt]

theorem kindsReversed (name : u.name = t.name) : (kindChanged options t u).map (·.resource) =
    (kindChanged options u t).map (·.resource) := by
  have apart : (t.kind != u.kind) = (u.kind != t.kind) := bne_comm
  simp only [kindChanged, name, apart]
  split
  · simp [kindChange, name]
  · rfl

end Reports

structure Place where
  type : String
  field : String
  argument : Argument

namespace Place

def path (p : Place) : String := qualified p.type p.field

def isRequired (p : Place) : Bool := p.argument.isRequired

def addition (p : Place) : Category × String × String :=
  (if p.isRequired then .requiredArgAdded else .optionalArgAdded, p.path,
    (if p.isRequired then "A required" else "An optional") ++ " arg " ++ inTicks p.argument.name ++
      " on " ++ inTicks p.path ++ " was added")

def removal (p : Place) : Category × String × String :=
  (.argRemoved, qualified p.field p.argument.name,
    inTicks p.path ++ " arg " ++ inTicks p.argument.name ++ " removed from schema")

end Place

def said (c : Change) : Category × String × String := (c.category, c.resource, c.message)

/-- The place is in the new version and not in the old one, which has its field as well. -/
def Gained (old new : Model) (p : Place) : Prop :=
  ∃ t u before after f g, old.type? p.type = some t ∧ new.type? p.type = some u ∧
    shapes? t u = some (before, after) ∧ before.fields.get? p.field = some f ∧
    after.fields.get? p.field = some g ∧ p.argument ∈ g.arguments ∧
    argumentNamed? f.arguments p.argument.name = none

def missingArguments (f g : Field) : List Argument :=
  g.arguments.filter fun a => (argumentNamed? f.arguments a.name).isNone

def places (pick : Field → Field → List Argument) : TypeDef → TypeDef → List Place :=
  onShapes fun t _ before after => (before.fields.shared after.fields).flatMap fun e =>
    (pick e.2.1 e.2.2).map (⟨t.name, e.1, ·⟩)

def gains : TypeDef → TypeDef → List Place := places missingArguments

def losses : TypeDef → TypeDef → List Place := places fun f g => missingArguments g f

section Places
variable {options : Options} {t u : TypeDef}

theorem placesReversed (name : u.name = t.name) : (gains t u).Perm (losses u t) := by
  unfold gains losses places onShapes
  rw [shapesReversed t u]
  cases shapes? t u with
  | none => exact .nil
  | some shapes =>
    obtain ⟨before, after⟩ := shapes
    simp only [Option.map_some, Prod.swap_prod_mk, name]
    refine ((Ordered.sharedReversed before.fields after.fields).flatMap_right _).trans (.of_eq ?_)
    rw [List.flatMap_map]

theorem argumentsOfShared {before after : ObjectShape} (shapes : shapes? t u = some (before, after)) :
    argumentsChanged options t u = (before.fields.shared after.fields).flatMap fun e =>
      e.2.1.arguments.flatMap (argumentChange options (qualified t.name e.1) e.1 e.2.2) ++
        addedArguments (qualified t.name e.1) e.2.1 e.2.2 := by
  rw [argumentsOfShapes shapes, ← Ordered.flatMapShared before.fields after.fields
    fun name f g => f.arguments.flatMap (argumentChange options (qualified t.name name) name g) ++
      addedArguments (qualified t.name name) f g]
  refine List.flatMap_congr fun e _ => ?_
  simp only [fieldArgumentChanges]
  cases after.fields.get? e.1 <;> rfl

theorem additionsSaid : (under [.requiredArgAdded, .optionalArgAdded] (argumentsChanged options t u)).map
    said = (gains t u).map Place.addition := by
  cases shapes : shapes? t u with
  | none => simp [argumentsChanged, gains, places, onShapes, shapes, under]
  | some pair =>
    obtain ⟨before, after⟩ := pair
    rw [argumentsOfShared shapes]
    simp only [gains, places, onShapes, shapes, under, List.filter_flatMap, List.map_flatMap]
    refine List.flatMap_congr fun e _ => ?_
    change (under _ _).map said = _
    have kept : ∀ path name : String, under [.requiredArgAdded, .optionalArgAdded]
        (e.2.1.arguments.flatMap (argumentChange options path name e.2.2)) = [] := fun path name =>
      underNone (flatMapCategory fun _ => argumentCategory) (by decide)
    rw [underAppend, kept, underAll newArgumentCategory, List.nil_append, addedArguments, List.map_map,
      List.map_map]
    rfl

theorem removalOfArgument (path name : String) (g : Field) (a : Argument) :
    under [.argRemoved] (argumentChange options path name g a) =
      if (argumentNamed? g.arguments a.name).isNone then [argumentRemoved options path name a g]
      else [] := by
  unfold argumentChange
  cases argumentNamed? g.arguments a.name with
  | none => rfl
  | some kept =>
    have retyped : (argumentRetyped options path name a kept).category ≠ .argRemoved := by
      unfold argumentRetyped
      split <;> simp
    simp only [Option.isNone_some, Bool.false_eq_true, if_false]
    split
    · simpa [under] using retyped
    · split <;> simp [under, defaultChanged]

theorem removalsSaid :
    (under [.argRemoved] (argumentsChanged options t u)).map said = (losses t u).map Place.removal := by
  cases shapes : shapes? t u with
  | none => simp [argumentsChanged, losses, places, onShapes, shapes, under]
  | some pair =>
    obtain ⟨before, after⟩ := pair
    rw [argumentsOfShared shapes]
    simp only [losses, places, onShapes, shapes, under, List.filter_flatMap, List.map_flatMap]
    refine List.flatMap_congr fun e _ => ?_
    change (under _ _).map said = _
    rw [underAppend, underFlatMap (removalOfArgument _ _ _), underNone newArgumentCategory (by decide),
      List.append_nil, List.map_map, missingArguments, List.map_map]
    rfl

theorem removalOfInputField (owner : String) (fields : Ordered Argument) (e : String × Argument) :
    under [.fieldRemoved] (inputFieldChange options owner fields e) =
      if !fields.contains e.1 then
        [fieldRemoved (qualified owner e.1) e.2.location (options.isDeprecated e.2.directives)]
      else [] := by
  cases found : fields.get? e.1 with
  | none => simp [inputFieldChange, Ordered.contains, found, under, fieldRemoved]
  | some kept =>
    simp only [inputFieldChange, Ordered.contains, found, Option.isSome_some, Bool.not_true,
      Bool.false_eq_true, if_false]
    split <;> simp [under, fieldRetyped]

theorem inputFieldsReversed :
    resources [.requiredInputFieldAdded, .optionalInputFieldAdded] (inputFieldsChanged options t u) =
      resources [.fieldRemoved] (inputFieldsChanged options u t) := by
  unfold inputFieldsChanged
  cases t.body <;> cases u.body <;> first | rfl | skip
  rename_i before after
  have kept : under [.requiredInputFieldAdded, .optionalInputFieldAdded]
      (before.entries.flatMap (inputFieldChange options t.name after)) = [] :=
    underNone (flatMapCategory fun _ => inputFieldCategory) (by decide)
  unfold resources
  rw [underAppend, kept, underAll newInputFieldCategory, List.nil_append, underAppend,
    underFlatMap (removalOfInputField u.name before), underNone newInputFieldCategory (by decide),
    List.append_nil, List.map_map, List.map_map]
  rfl

end Places

section Models
variable {old new : Model}

theorem gainedIff (before : old.Keyed) (p : Place) :
    p ∈ overPairs old new gains ↔ Gained old new p := by
  unfold gains places
  rw [memOverShapes]
  simp only [List.mem_flatMap, List.mem_map]
  constructor
  · rintro ⟨t, u, b, a, member, there, shapes, ⟨name, f, g⟩, common, x, missing, rfl⟩
    obtain ⟨declared, absent⟩ := List.mem_filter.mp missing
    obtain ⟨left, right⟩ := Ordered.memShared.mp common
    exact ⟨t, u, b, a, f, g, Model.typeOfMem before member, there, shapes, left, right, declared,
      Option.isNone_iff_eq_none.mp absent⟩
  · rintro ⟨t, u, b, a, f, g, typed, there, shapes, left, right, declared, absent⟩
    have name := Model.typeName before typed
    have missing : p.argument ∈ missingArguments f g :=
      List.mem_filter.mpr ⟨declared, Option.isNone_iff_eq_none.mpr absent⟩
    exact ⟨t, u, b, a, Model.typeMem typed, by rw [name, there], shapes, (p.field, f, g),
      Ordered.memShared.mpr ⟨left, right⟩, p.argument, missing, by rw [name]⟩

theorem argumentsReversed {options : Options} (before : old.Keyed) (after : new.Keyed)
    (extended : options.extended = true) :
    ∃ places : List Place, (∀ p, p ∈ places ↔ Gained old new p) ∧
      ((under [.requiredArgAdded, .optionalArgAdded] (compare old new options).toList).map said).Perm
        (places.map Place.addition) ∧
      ((under [.argRemoved] (compare new old options).toList).map said).Perm
        (places.map Place.removal) := by
  have forth : ∀ t u, (under [.requiredArgAdded, .optionalArgAdded] (pairReport options t u)).map said =
      (gains t u).map Place.addition := fun t u => by
    simpa (disch := decide) [underReport extended] using additionsSaid
  have back : ∀ t u, (under [.argRemoved] (pairReport options t u)).map said =
      (losses t u).map Place.removal := fun t u => by
    simpa (disch := decide) [underReport extended] using removalsSaid
  refine ⟨overPairs old new gains, gainedIff before, ?_, ?_⟩
  · refine ((toldUnder (by decide) (by decide)).map said).trans (.of_eq ?_)
    simp only [overPairs, List.map_flatMap, forth]
  · have swapped := (overPairsReversed before after fun t u => placesReversed).symm.map Place.removal
    refine ((toldUnder (by decide) (by decide)).map said).trans (.trans (.of_eq ?_) swapped)
    simp only [overPairs, List.map_flatMap, back]

end Models

structure Reversed (old new : Model) (options : Options) : Prop where
  members : (resources [.typeAddedToUnion] (compare old new options).toList).Perm
    (resources [.typeRemovedFromUnion] (compare new old options).toList)
  values : (resources [.valueAddedToEnum] (compare old new options).toList).Perm
    (resources [.valueRemovedFromEnum] (compare new old options).toList)
  interfaces : (resources [.interfaceAddedToObject] (compare old new options).toList).Perm
    (resources [.interfaceRemovedFromObject] (compare new old options).toList)
  arguments : ∃ places : List Place, (∀ p, p ∈ places ↔ Gained old new p) ∧
    ((under [.requiredArgAdded, .optionalArgAdded] (compare old new options).toList).map said).Perm
      (places.map Place.addition) ∧
    ((under [.argRemoved] (compare new old options).toList).map said).Perm (places.map Place.removal)
  inputFields : (resources [.requiredInputFieldAdded, .optionalInputFieldAdded]
      (inputFieldChanges old new options)).Perm
    (resources [.fieldRemoved] (inputFieldChanges new old options))
  kinds : (resources [.typeChangedKind] (compare old new options).toList).Perm
    (resources [.typeChangedKind] (compare new old options).toList)

def textForth : String :=
  "type Q implements N & M \x7b f(a: Int, b: Int): Q g(c: Int): Q \x7d interface N \x7b f: Q \x7d " ++
    "interface M \x7b g: Q \x7d union U = Q enum E \x7b A B \x7d input I \x7b k: Int \x7d scalar S"

def textBack : String :=
  "type S \x7b y: Int \x7d type Q implements N \x7b g: Q f(b: Int, d: Int!, e: Int): Q \x7d " ++
    "interface N \x7b f: Q \x7d interface M \x7b g: Q \x7d union U = S | N | Q enum E \x7b B C \x7d " ++
    "input I \x7b l: Int! m: Int \x7d"

theorem additionsReversed {old new : Model} {options : Options} (before : old.Keyed)
    (after : new.Keyed) (extended : options.extended = true) : Reversed old new options where
  members := by
    refine resourcesReversed before after (by decide) fun t u _ => ?_
    simpa (disch := decide) [resources, underReport extended] using membersReversed
  values := by
    refine resourcesReversed before after (by decide) fun t u _ => ?_
    simpa (disch := decide) [resources, underReport extended, underAll valuesAddedCategory,
      underAll valuesRemovedCategory] using valuesReversed
  interfaces := by
    refine resourcesReversed before after (by decide) fun t u _ => ?_
    simpa (disch := decide) [resources, underReport extended] using interfacesReversed
  arguments := argumentsReversed before after extended
  inputFields := by
    rw [inputFieldChanges, inputFieldChanges, resourcesOverPairs, resourcesOverPairs]
    exact overPairsReversed before after fun t u _ => .of_eq inputFieldsReversed
  kinds := by
    refine resourcesReversed before after (by decide) fun t u name => ?_
    simpa (disch := decide) [resources, underReport extended, underAll kindsCategory]
      using kindsReversed name

theorem additionsReversedOfEachKind : ∃ old new, Sdl.readSchema textForth = .ok old ∧
    Sdl.readSchema textBack = .ok new ∧
    (compare old new ⟨true, "deprecated", "required"⟩).toList.map (·.resource) =
      ["S", "f.a", "Q.f", "g.c", "E.A", "Q", "I.k", "I.l", "Q.f", "U.S", "U.N", "E.C", "I.m"] ∧
    (compare new old ⟨true, "deprecated", "required"⟩).toList.map (·.resource) =
      ["S", "f.d", "f.e", "E.C", "U.S", "U.N", "I.l", "I.m", "Q.g", "Q.f", "E.A", "Q", "I.k"] ∧
    Reversed old new ⟨true, "deprecated", "required"⟩ := by
  obtain ⟨old, new, readOld, readNew, told⟩ := Sdl.modelsRead textForth textBack
    (fun (old new : Model) =>
      (compare old new ⟨true, "deprecated", "required"⟩).toList.map (·.resource) ==
        ["S", "f.a", "Q.f", "g.c", "E.A", "Q", "I.k", "I.l", "Q.f", "U.S", "U.N", "E.C", "I.m"] &&
      (compare new old ⟨true, "deprecated", "required"⟩).toList.map (·.resource) ==
        ["S", "f.d", "f.e", "E.C", "U.S", "U.N", "I.l", "I.m", "Q.g", "Q.f", "E.A", "Q", "I.k"])
    (by decide +kernel)
  obtain ⟨forth, back⟩ := Bool.and_eq_true_iff.mp told
  exact ⟨old, new, readOld, readNew, beq_iff_eq.mp forth, beq_iff_eq.mp back,
    additionsReversed (Sdl.readKeyed readOld) (Sdl.readKeyed readNew) rfl⟩

end SchemaDrift.Compare
