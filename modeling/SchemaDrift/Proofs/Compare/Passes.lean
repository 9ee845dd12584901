import Mathlib.Data.List.Perm.Basic
import SchemaDrift.Compare.Passes

/-! The comparison pass by pass. Every pass over types goes through the old types in their order and
looks at one of them and at the new type of its name, at nothing else; so a statement about all
changes comes down to one about a type and its counterpart. -/
namespace SchemaDrift.Compare

abbrev TypePass := TypeDef → Option TypeDef → List Change

def onPair (changes : TypeDef → TypeDef → List Change) : TypePass
  | _, none => []
  | old, some new => changes old new

def removal (options : Options) : TypePass
  | old, none => if isBuiltInType old.name then [] else [typeRemoved options old]
  | _, some _ => []

def corePairPasses (options : Options) : List (TypeDef → TypeDef → List Change) :=
  [kindChanged options, fieldsChanged options, argumentsChanged options, valuesRemoved options]

def extendedPairPasses (options : Options) : List (TypeDef → TypeDef → List Change) :=
  [membersChanged, valuesAdded, interfacesChanged, inputFieldsChanged options]

def pairPasses (options : Options) : List (TypeDef → TypeDef → List Change) :=
  corePairPasses options ++ if options.extended then extendedPairPasses options else []

theorem kindsListed (options : Options) : kindChanged options ∈ pairPasses options := by
  simp [pairPasses, corePairPasses]

theorem fieldsListed (options : Options) : fieldsChanged options ∈ pairPasses options := by
  simp [pairPasses, corePairPasses]

theorem argumentsListed (options : Options) : argumentsChanged options ∈ pairPasses options := by
  simp [pairPasses, corePairPasses]

theorem valuesListed (options : Options) : valuesRemoved options ∈ pairPasses options := by
  simp [pairPasses, corePairPasses]

theorem inputFieldsListed {options : Options} (extended : options.extended = true) :
    inputFieldsChanged options ∈ pairPasses options := by
  simp [pairPasses, extended, extendedPairPasses]

theorem pairPassCases {options : Options} {pass : TypeDef → TypeDef → List Change}
    (listed : pass ∈ pairPasses options) :
    (pass = kindChanged options ∨ pass = fieldsChanged options ∨ pass = argumentsChanged options ∨
        pass = valuesRemoved options) ∨
      pass = membersChanged ∨ pass = valuesAdded ∨ pass = interfacesChanged ∨
        pass = inputFieldsChanged options := by
  rcases List.mem_append.mp listed with core | extended
  · simp only [corePairPasses, List.mem_cons, List.not_mem_nil, or_false] at core
    exact .inl core
  · split at extended
    · simp only [extendedPairPasses, List.mem_cons, List.not_mem_nil, or_false] at extended
      exact .inr extended
    · contradiction

def typePasses (options : Options) : List TypePass :=
  removal options :: (pairPasses options).map onPair

def overTypes (old new : Model) (pass : TypePass) : List Change :=
  old.typeList.flatMap fun t => pass t (new.type? t.name)

def directivePass (old new : Model) (options : Options) : List Change :=
  if options.extended then directiveChanges old new options else []

theorem memTypePairs {old new : Model} {t u : TypeDef} :
    (t, u) ∈ typePairs old new ↔ t ∈ old.typeList ∧ new.type? t.name = some u := by
  simp only [typePairs, List.mem_filterMap, Option.map_eq_some_iff]
  constructor
  · rintro ⟨_, member, _, found, same⟩
    cases same
    exact ⟨member, found⟩
  · rintro ⟨member, found⟩
    exact ⟨t, member, u, found, rfl⟩

theorem memOverShapes {α : Type} {old new : Model} {x : α}
    {each : TypeDef → TypeDef → ObjectShape → ObjectShape → List α} :
    x ∈ overPairs old new (onShapes each) ↔ ∃ t u before after, t ∈ old.typeList ∧
      new.type? t.name = some u ∧ shapes? t u = some (before, after) ∧ x ∈ each t u before after := by
  constructor
  · intro listed
    obtain ⟨⟨t, u⟩, pair, inside⟩ := List.mem_flatMap.mp listed
    obtain ⟨member, found⟩ := memTypePairs.mp pair
    simp only [onShapes] at inside
    split at inside
    · rename_i before after shapes
      exact ⟨t, u, before, after, member, found, shapes, inside⟩
    · contradiction
  · rintro ⟨t, u, before, after, member, found, shapes, inside⟩
    refine List.mem_flatMap.mpr ⟨(t, u), memTypePairs.mpr ⟨member, found⟩, ?_⟩
    simp only [onShapes, shapes]
    exact inside

theorem pairsByType (old new : Model) (changes : TypeDef → TypeDef → List Change) :
    overPairs old new changes = overTypes old new (onPair changes) := by
  unfold overPairs typePairs overTypes
  induction old.typeList with
  | nil => rfl
  | cons t rest ih =>
    rw [List.filterMap_cons, List.flatMap_cons, ← ih]
    cases new.type? t.name <;> rfl

theorem removedByType (old new : Model) (options : Options) :
    removedTypes old new options = overTypes old new (removal options) := by
  unfold removedTypes overTypes
  induction old.typeList with
  | nil => rfl
  | cons t rest ih =>
    rw [List.flatMap_cons, ← ih, List.filter_cons]
    have present : new.hasType t.name = (new.type? t.name).isSome := rfl
    cases found : new.type? t.name <;> cases builtIn : isBuiltInType t.name <;>
      simp [present, found, builtIn, removal]

theorem coreByPass (old new : Model) (options : Options) :
    coreChanges old new options =
      overTypes old new (removal options) ++ (corePairPasses options).flatMap (overPairs old new) := by
  rw [← removedByType]
  simp only [coreChanges, corePairPasses, changedKinds, fieldChanges, argumentChanges,
    removedValues, List.flatMap_cons, List.flatMap_nil, List.append_nil, List.append_assoc]

theorem extendedByPass (old new : Model) (options : Options) :
    extendedChanges old new options =
      (extendedPairPasses options).flatMap (overPairs old new) ++
        directiveChanges old new options := by
  simp only [extendedChanges, extendedPairPasses, unionChanges, addedValues, interfaceChanges,
    inputFieldChanges, List.flatMap_cons, List.flatMap_nil, List.append_nil, List.append_assoc]

theorem changesByPass (old new : Model) (options : Options) :
    changes old new options =
      (typePasses options).flatMap (overTypes old new) ++ directivePass old new options := by
  have pairs : ((pairPasses options).map onPair).flatMap (overTypes old new) =
      (pairPasses options).flatMap (overPairs old new) := by
    simp only [List.flatMap_map, ← pairsByType]
  rw [typePasses, List.flatMap_cons, pairs, changes, coreByPass, pairPasses, directivePass]
  cases options.extended with
  | false => simp
  | true => simp [extendedByPass]

inductive Reported (old new : Model) (options : Options) (c : Change) : Prop where
  | removed {t : TypeDef} (member : t ∈ old.typeList) (absent : new.type? t.name = none)
      (declared : isBuiltInType t.name = false) (same : c = typeRemoved options t)
  | pair {t u : TypeDef} (member : t ∈ old.typeList) (found : new.type? t.name = some u)
      {pass : TypeDef → TypeDef → List Change} (listed : pass ∈ pairPasses options)
      (inside : c ∈ pass t u)
  | directive (inside : c ∈ directivePass old new options)

theorem memChanges {old new : Model} {options : Options} {c : Change} :
    c ∈ changes old new options ↔ Reported old new options c := by
  rw [changesByPass, List.mem_append, List.mem_flatMap]
  simp only [overTypes, List.mem_flatMap, typePasses, List.mem_cons, List.mem_map]
  constructor
  · rintro (⟨pass, rfl | ⟨pair, listed, rfl⟩, t, member, inside⟩ | inside)
    · cases found : new.type? t.name with
      | some u => simp [removal, found] at inside
      | none =>
        cases builtIn : isBuiltInType t.name with
        | true => simp [removal, found, builtIn] at inside
        | false => exact .removed member found builtIn (by simpa [removal, found, builtIn] using inside)
    · cases found : new.type? t.name with
      | none => simp [onPair, found] at inside
      | some u => exact .pair member found listed (by rw [found] at inside; exact inside)
    · exact .directive inside
  · rintro (⟨member, absent, declared, rfl⟩ | ⟨member, found, listed, inside⟩ | inside)
    · exact .inl ⟨_, .inl rfl, _, member, by simp [removal, absent, declared]⟩
    · exact .inl ⟨_, .inr ⟨_, listed, rfl⟩, _, member, by rw [found]; exact inside⟩
    · exact .inr inside

def pairReport (options : Options) (old new : TypeDef) : List Change :=
  (pairPasses options).flatMap fun pass => pass old new

theorem reportByPass (options : Options) (o n : TypeDef) :
    pairReport options o n =
      kindChanged options o n ++ fieldsChanged options o n ++ argumentsChanged options o n ++
        valuesRemoved options o n ++
        if options.extended then
          membersChanged o n ++ valuesAdded o n ++ interfacesChanged o n ++
            inputFieldsChanged options o n
        else [] := by
  unfold pairReport pairPasses
  cases options.extended <;> simp [corePairPasses, extendedPairPasses]

theorem sameKindSilent {o n : TypeDef} (options : Options) (same : o.kind = n.kind) :
    kindChanged options o n = [] := by
  simp [kindChanged, same]

theorem shapesCases {o n : TypeDef} {before after : ObjectShape}
    (shapes : shapes? o n = some (before, after)) :
    (o.body = .object before ∧ n.body = .object after) ∨
      (o.body = .interface before ∧ n.body = .interface after) := by
  unfold shapes? at shapes
  split at shapes
  · rename_i old new
    cases shapes
    exact .inl ⟨old, new⟩
  · rename_i old new
    cases shapes
    exact .inr ⟨old, new⟩
  · contradiction

theorem shapesOfPair {o n : TypeDef} {before after : ObjectShape}
    (shapes : shapes? o n = some (before, after)) :
    o.shape? = some before ∧ n.shape? = some after := by
  rcases shapesCases shapes with ⟨old, new⟩ | ⟨old, new⟩ <;> simp [TypeDef.shape?, old, new]

theorem fieldsOfShapes {options : Options} {o n : TypeDef} {before after : ObjectShape}
    (shapes : shapes? o n = some (before, after)) :
    fieldsChanged options o n =
      before.fields.entries.flatMap (fieldChange options o.name after.fields) := by
  simp only [fieldsChanged, onShapes, shapes]

theorem argumentsOfShapes {options : Options} {o n : TypeDef} {before after : ObjectShape}
    (shapes : shapes? o n = some (before, after)) :
    argumentsChanged options o n =
      before.fields.entries.flatMap (fieldArgumentChanges options o.name after.fields) := by
  simp only [argumentsChanged, onShapes, shapes]

theorem reportOfShapes {options : Options} {o n : TypeDef} {before after : ObjectShape}
    (shapes : shapes? o n = some (before, after)) :
    pairReport options o n = fieldsChanged options o n ++ argumentsChanged options o n ++
      if options.extended then interfacesChanged o n else [] := by
  rw [reportByPass]
  rcases shapesCases shapes with ⟨old, new⟩ | ⟨old, new⟩
  all_goals
    have kinds : o.kind = n.kind := by simp [TypeDef.kind, TypeBody.kind, old, new]
    simp [sameKindSilent options kinds, valuesRemoved, valuesAdded, onEnums, membersChanged,
      inputFieldsChanged, old, new]

theorem reportOfUnion {options : Options} {o n : TypeDef} {before after : List String}
    (old : o.body = .union before) (new : n.body = .union after) :
    pairReport options o n = if options.extended then membersChanged o n else [] := by
  have kinds : o.kind = n.kind := by simp [TypeDef.kind, TypeBody.kind, old, new]
  rw [reportByPass, sameKindSilent options kinds]
  simp [fieldsChanged, argumentsChanged, interfacesChanged, onShapes, shapes?, valuesRemoved,
    valuesAdded, onEnums, inputFieldsChanged, old, new]

theorem reportOfEnum {options : Options} {o n : TypeDef} {before after : List EnumValue}
    (old : o.body = .enum before) (new : n.body = .enum after) :
    pairReport options o n =
      valuesRemoved options o n ++ if options.extended then valuesAdded o n else [] := by
  have kinds : o.kind = n.kind := by simp [TypeDef.kind, TypeBody.kind, old, new]
  rw [reportByPass, sameKindSilent options kinds]
  simp [fieldsChanged, argumentsChanged, interfacesChanged, onShapes, shapes?, membersChanged,
    inputFieldsChanged, old, new]

theorem reportOfInput {options : Options} {o n : TypeDef} {before after : Ordered Argument}
    (old : o.body = .inputObject before) (new : n.body = .inputObject after) :
    pairReport options o n = if options.extended then inputFieldsChanged options o n else [] := by
  have kinds : o.kind = n.kind := by simp [TypeDef.kind, TypeBody.kind, old, new]
  rw [reportByPass, sameKindSilent options kinds]
  simp [fieldsChanged, argumentsChanged, interfacesChanged, onShapes, shapes?, valuesRemoved,
    valuesAdded, onEnums, membersChanged, old, new]

theorem reportOfKinds {options : Options} {o n : TypeDef}
    (apart : o.body = .scalar ∨ o.kind ≠ n.kind) :
    pairReport options o n = kindChanged options o n := by
  have silent : shapes? o n = none ∧ (∀ changes, onEnums changes o n = []) ∧
      membersChanged o n = [] ∧ inputFieldsChanged options o n = [] := by
    unfold TypeDef.kind at apart
    unfold shapes? onEnums membersChanged inputFieldsChanged
    cases old : o.body <;> cases new : n.body <;> simp_all [TypeBody.kind]
  obtain ⟨shapes, enums, members, inputs⟩ := silent
  rw [reportByPass]
  simp [fieldsChanged, argumentsChanged, interfacesChanged, valuesRemoved, valuesAdded, onShapes,
    shapes, enums, members, inputs]

def typeReport (options : Options) (o : TypeDef) (n : Option TypeDef) : List Change :=
  (typePasses options).flatMap fun pass => pass o n

theorem typeReportOfPair (options : Options) (o n : TypeDef) :
    typeReport options o (some n) = pairReport options o n := by
  simp [typeReport, typePasses, removal, pairReport, List.flatMap_map, onPair]

theorem typeReportOfNone (options : Options) (o : TypeDef) :
    typeReport options o none = if isBuiltInType o.name then [] else [typeRemoved options o] := by
  simp [typeReport, typePasses, removal, List.flatMap_map, onPair]

theorem flatMapSwap {α β γ : Type} (xs : List α) (ys : List β) (f : α → β → List γ) :
    (xs.flatMap fun x => ys.flatMap (f x)).Perm (ys.flatMap fun y => xs.flatMap fun x => f x y) := by
  induction xs with
  | nil => simp
  | cons x rest ih =>
    simp only [List.flatMap_cons]
    exact (ih.append_left _).trans (List.flatMap_append_perm ys _ _)

theorem changesByType (keyed : old.Keyed) (options : Options) (new : Model) :
    (changes old new options).Perm
      ((old.types.entries.flatMap fun e => typeReport options e.2 (new.type? e.1)) ++
        directivePass old new options) := by
  have byType : (old.types.entries.flatMap fun e => typeReport options e.2 (new.type? e.1)) =
      old.typeList.flatMap fun t => (typePasses options).flatMap fun pass => pass t (new.type? t.name) := by
    simp only [Model.typeList, Ordered.values, List.flatMap_map, typeReport]
    exact List.flatMap_congr fun e member => by rw [keyed.types e member]
  rw [changesByPass, byType]
  exact (flatMapSwap _ _ _).append_right _

end SchemaDrift.Compare
