import Mathlib.Data.Set.Insert
import SchemaDrift.Proofs.Compare.Passes
import SchemaDrift.Proofs.Sdl.DocumentModel

/-! What clients may send across a comparison without breaking changes. A call names the arguments
it gives, an input object the fields; the new version knows the same names and requires no others,
but for an argument whose default is gone: that is reported as dangerous on fields, and not at all
on input objects. -/
namespace SchemaDrift.Compare
variable {old new : Model} {options : Options}

structure Accepted (declared : List Argument) (given : Set String) : Prop where
  known : ∀ name ∈ given, name ∈ declared.map (·.name)
  required : ∀ a ∈ declared, a.isRequired = true → a.name ∈ given

theorem oneAccepted {declared : List Argument} {name : String}
    (single : declared.map (·.name) = [name]) : Accepted declared {name} := by
  refine ⟨fun n same => ?_, fun a member _ => ?_⟩
  · rw [single, Set.mem_singleton_iff.mp same]
    exact List.mem_cons_self
  · have inside : a.name ∈ declared.map (·.name) := List.mem_map_of_mem member
    rw [single] at inside
    exact List.mem_singleton.mp inside

theorem nothingAccepted {declared : List Argument} (optional : declared.all (!·.isRequired) = true) :
    Accepted declared ∅ := by
  refine ⟨fun n given => absurd given (Set.notMem_empty n), fun a member required => ?_⟩
  have unset := List.all_eq_true.mp optional a member
  rw [required] at unset
  contradiction

theorem nothingRejected {declared : List Argument} (required : declared.any (·.isRequired) = true) :
    ¬ Accepted declared ∅ := by
  obtain ⟨a, member, needed⟩ := List.any_eq_true.mp required
  exact fun accepted => absurd (accepted.required a member needed) (Set.notMem_empty a.name)

def DefaultDropped (old new : Argument) : Prop :=
  old.type.isNonNull = true ∧ old.default.isSome = true ∧ new.default = none

def NoBreaking (changes : List Change) : Prop := ∀ c ∈ changes, c.isBreaking = false

theorem noBreakingIff : (compare old new options).breaking = [] ↔ NoBreaking (changes old new options) := by
  simp [compare, ChangeSet.ofList, NoBreaking, List.filter_eq_nil_iff]

theorem singleBreaking {c : Change} (breaking : c.isBreaking = true) : ¬ NoBreaking [c] := by
  intro quiet
  have mild := quiet c List.mem_cons_self
  rw [breaking] at mild
  contradiction

theorem passQuiet (quiet : NoBreaking (changes old new options)) {t u : TypeDef}
    (member : t ∈ old.typeList) (found : new.type? t.name = some u)
    {pass : TypeDef → TypeDef → List Change} (listed : pass ∈ pairPasses options) :
    NoBreaking (pass t u) :=
  fun c inside => quiet c (memChanges.mpr (.pair member found listed inside))

theorem typeKept (quiet : NoBreaking (changes old new options)) {t : TypeDef}
    (member : t ∈ old.typeList) (declared : isBuiltInType t.name = false) :
    ∃ u, new.type? t.name = some u ∧ u.kind = t.kind := by
  cases found : new.type? t.name with
  | none =>
    have reported : typeRemoved options t ∈ changes old new options :=
      memChanges.mpr (.removed member found declared rfl)
    have breaking : (typeRemoved options t).isBreaking = true := rfl
    rw [quiet _ reported] at breaking
    contradiction
  | some u =>
    have silent := passQuiet quiet member found (kindsListed options)
    refine ⟨u, rfl, Decidable.byContradiction fun different => ?_⟩
    have reported : kindChanged options t u = [kindChange options t u] := by
      simp [kindChanged, declared, Ne.symm different]
    rw [reported] at silent
    exact singleBreaking rfl silent

theorem shapesOfKind {t u : TypeDef} {before : ObjectShape} (same : u.kind = t.kind)
    (shaped : t.shape? = some before) :
    ∃ after, u.shape? = some after ∧ shapes? t u = some (before, after) := by
  obtain ⟨name, location, directives, body⟩ := t
  obtain ⟨name', location', directives', body'⟩ := u
  cases body <;> cases shaped <;> cases body' <;> first | contradiction | exact ⟨_, rfl, rfl⟩

theorem inputOfKind {t u : TypeDef} {before : Ordered Argument} (same : u.kind = t.kind)
    (input : t.body = .inputObject before) : ∃ after, u.body = .inputObject after := by
  have alike := TypeBody.alikeOfKind same
  rw [input] at alike
  generalize u.body = body at alike
  cases alike with
  | inputObject _ after => exact ⟨after, rfl⟩

theorem nonNullOfSafe {before after : TypeRef} (safe : inputSafe before after = true)
    (nonNull : after.isNonNull = true) : before.isNonNull = true := by
  cases before with
  | nonNull inner => rfl
  | named name => cases after <;> contradiction
  | list item => cases after <;> contradiction

theorem fieldKept {t u : TypeDef} {before after : ObjectShape}
    (shapes : shapes? t u = some (before, after)) (quiet : NoBreaking (fieldsChanged options t u))
    {name : String} {f : Field} (member : (name, f) ∈ before.fields.entries) :
    ∃ g, after.fields.get? name = some g := by
  cases found : after.fields.get? name with
  | some g => exact ⟨g, rfl⟩
  | none =>
    have reported : fieldRemoved (qualified t.name name) f.location
        (options.isDeprecated f.directives) ∈ fieldsChanged options t u := by
      simp only [fieldsChanged, onShapes, shapes]
      exact List.mem_flatMap.mpr ⟨_, member, by simp [fieldChange, found]⟩
    have breaking := quiet _ reported
    contradiction

structure ArgumentsKept (options : Options) (owner name : String) (before after : Field) : Prop where
  passed : ∀ a ∈ before.arguments, ∃ b, argumentNamed? after.arguments a.name = some b ∧
    inputSafe a.type b.type = true
  optional : ∀ b ∈ after.arguments, b.isRequired = true → b.name ∈ before.arguments.map (·.name)

theorem argumentsKept {t u : TypeDef} {before after : ObjectShape}
    (shapes : shapes? t u = some (before, after)) (quiet : NoBreaking (argumentsChanged options t u))
    {name : String} {f g : Field} (member : (name, f) ∈ before.fields.entries)
    (found : after.fields.get? name = some g) : ArgumentsKept options t.name name f g := by
  have inside : ∀ c, c ∈ fieldArgumentChanges options t.name after.fields (name, f) →
      c ∈ argumentsChanged options t u := by
    intro c reported
    simp only [argumentsChanged, onShapes, shapes]
    exact List.mem_flatMap.mpr ⟨_, member, reported⟩
  simp only [fieldArgumentChanges, found, List.mem_append, List.mem_flatMap] at inside
  constructor
  · intro a old
    have silent : NoBreaking (argumentChange options (qualified t.name name) name g a) :=
      fun c reported => quiet c (inside c (.inl ⟨a, old, reported⟩))
    unfold argumentChange at silent
    cases kept : argumentNamed? g.arguments a.name with
    | none =>
      rw [kept] at silent
      exact absurd silent (singleBreaking rfl)
    | some b =>
      refine ⟨b, rfl, ?_⟩
      cases safe : inputSafe a.type b.type with
      | true => rfl
      | false =>
        have breaking : (argumentRetyped options (qualified t.name name) name a b).isBreaking = true := by
          unfold argumentRetyped Change.isBreaking
          split <;> rfl
        simp only [kept, safe] at silent
        exact absurd silent (singleBreaking breaking)
  · intro b added required
    refine Decidable.byContradiction fun absent => ?_
    have reported : argumentAdded (qualified t.name name) b ∈
        addedArguments (qualified t.name name) f g :=
      List.mem_map_of_mem (List.mem_filter.mpr ⟨added, argumentMissing.mpr absent⟩)
    have breaking := quiet _ (inside _ (.inr reported))
    simp [argumentAdded, required, Change.isBreaking, Category.isBreaking, Category.severity] at breaking

structure InputFieldsKept (before after : Ordered Argument) : Prop where
  passed : ∀ e ∈ before.entries, ∃ b, after.get? e.1 = some b ∧ inputSafe e.2.type b.type = true
  optional : ∀ e ∈ after.entries, e.2.isRequired = true → before.contains e.1 = true

theorem inputFieldsKept {t u : TypeDef} {before after : Ordered Argument}
    (old : t.body = .inputObject before) (new : u.body = .inputObject after)
    (quiet : NoBreaking (inputFieldsChanged options t u)) : InputFieldsKept before after := by
  simp only [inputFieldsChanged, old, new, NoBreaking, List.mem_append, List.mem_flatMap] at quiet
  constructor
  · rintro ⟨name, a⟩ member
    have silent : NoBreaking (inputFieldChange options t.name after (name, a)) :=
      fun c reported => quiet c (.inl ⟨_, member, reported⟩)
    cases kept : after.get? name with
    | none =>
      simp only [inputFieldChange, kept] at silent
      exact absurd silent (singleBreaking rfl)
    | some b =>
      refine ⟨b, rfl, ?_⟩
      cases safe : inputSafe a.type b.type with
      | true => rfl
      | false =>
        simp only [inputFieldChange, kept, safe] at silent
        exact absurd silent (singleBreaking rfl)
  · intro e added required
    refine Decidable.byContradiction fun absent => ?_
    have reported : inputFieldAdded u.name e ∈
        (after.entries.filter fun e => !before.contains e.1).map (inputFieldAdded u.name) :=
      List.mem_map_of_mem (List.mem_filter.mpr ⟨added, by simpa using absent⟩)
    have breaking := quiet _ (.inr reported)
    simp [inputFieldAdded, required, Change.isBreaking, Category.isBreaking, Category.severity]
      at breaking

theorem requiredOfSafe {a b : Argument} (safe : inputSafe a.type b.type = true)
    (required : b.isRequired = true) : a.isRequired = true ∨ DefaultDropped a b := by
  obtain ⟨nonNull, unset⟩ := Bool.and_eq_true_iff.mp required
  have before := nonNullOfSafe safe nonNull
  cases default : a.default with
  | none => exact .inl (by simp [Argument.isRequired, before, default])
  | some v => exact .inr ⟨before, by simp [default], Option.isNone_iff_eq_none.mp unset⟩

theorem droppedNotKept {a b : Argument} (dropped : DefaultDropped a b) : keepsDefault a b = false := by
  obtain ⟨_, present, gone⟩ := dropped
  obtain ⟨v, default⟩ := Option.isSome_iff_exists.mp present
  simp [keepsDefault, default, gone]

theorem defaultReported {t u : TypeDef} (member : t ∈ old.typeList)
    (typed : new.type? t.name = some u) {before after : ObjectShape}
    (shapes : shapes? t u = some (before, after)) {name : String} {f g : Field}
    (inside : (name, f) ∈ before.fields.entries) (found : after.fields.get? name = some g)
    {a b : Argument} (declared : a ∈ f.arguments) (kept : argumentNamed? g.arguments a.name = some b)
    (safe : inputSafe a.type b.type = true) (changed : keepsDefault a b = false) :
    defaultChanged options (qualified t.name name) name a b ∈ (compare old new options).dangerous := by
  have here : defaultChanged options (qualified t.name name) name a b ∈
      argumentChange options (qualified t.name name) name g a := by
    simp [argumentChange, kept, safe, changed]
  have reported : defaultChanged options (qualified t.name name) name a b ∈
      argumentsChanged options t u := by
    simp only [argumentsChanged, onShapes, shapes]
    refine List.mem_flatMap.mpr ⟨_, inside, ?_⟩
    simp only [fieldArgumentChanges, found]
    exact List.mem_append_left _ (List.mem_flatMap.mpr ⟨a, declared, here⟩)
  exact List.mem_filter.mpr ⟨memChanges.mpr (.pair member typed (argumentsListed options) reported),
    rfl⟩

theorem fieldInputKept (keyed : old.Keyed) (distinct : new.EveryField Field.DistinctArguments)
    (quiet : NoBreaking (changes old new options)) {type name : String} {f : Field}
    (declared : isBuiltInType type = false) (field : old.field? type name = some f)
    {given : Set String} (accepted : Accepted f.arguments given) :
    ∃ g, new.field? type name = some g ∧ (∀ n ∈ given, n ∈ g.arguments.map (·.name)) ∧
      ∀ b ∈ g.arguments, b.isRequired = true → b.name ∈ given ∨
        ∃ a ∈ f.arguments, a.name = b.name ∧ DefaultDropped a b ∧
          defaultChanged options (qualified type name) name a b ∈
            (compare old new options).dangerous := by
  obtain ⟨t, before, typed, shaped, inside⟩ := Model.fieldSource field
  obtain rfl : t.name = type := Model.typeName keyed typed
  have member := Model.typeMem typed
  have entry := Ordered.getIffMem.mp inside
  obtain ⟨u, counterpart, sameKind⟩ := typeKept quiet member declared
  obtain ⟨after, reshaped, shapes⟩ := shapesOfKind sameKind shaped
  have fields := passQuiet quiet member counterpart (fieldsListed options)
  have arguments := passQuiet quiet member counterpart (argumentsListed options)
  obtain ⟨g, found⟩ := fieldKept shapes fields entry
  have kept := argumentsKept shapes arguments entry found
  have names : (g.arguments.map (·.name)).Nodup :=
    distinct u (Model.typeMem counterpart) after reshaped _ (Ordered.getIffMem.mp found)
  refine ⟨g, by simp [Model.field?, counterpart, reshaped, found], fun n gave => ?_, ?_⟩
  · obtain ⟨a, old, rfl⟩ := List.mem_map.mp (accepted.known n gave)
    obtain ⟨b, present, _⟩ := kept.passed a old
    exact argumentFound.mp (Option.isSome_of_mem present)
  · intro b added required
    obtain ⟨a, old, same⟩ := List.mem_map.mp (kept.optional b added required)
    obtain ⟨first, present, safe⟩ := kept.passed a old
    have itself : first = b := by
      rw [same, argumentOfMem names added] at present
      exact (Option.some.inj present).symm
    subst itself
    rcases requiredOfSafe safe required with needed | dropped
    · exact .inl (same ▸ accepted.required a old needed)
    · exact .inr ⟨a, old, same, dropped, defaultReported member counterpart shapes entry found old
        present safe (droppedNotKept dropped)⟩

theorem objectInputKept (before : old.Keyed) (after : new.Keyed) (extended : options.extended = true)
    (quiet : NoBreaking (changes old new options)) {type : String} {fields : Ordered Argument}
    (declared : isBuiltInType type = false) (input : old.inputFields? type = some fields)
    {given : Set String} (accepted : Accepted fields.values given) :
    ∃ kept, new.inputFields? type = some kept ∧ (∀ n ∈ given, n ∈ kept.values.map (·.name)) ∧
      ∀ b ∈ kept.values, b.isRequired = true → b.name ∈ given ∨
        ∃ a ∈ fields.values, a.name = b.name ∧ DefaultDropped a b := by
  obtain ⟨t, typed, body⟩ := Model.inputSource input
  obtain rfl : t.name = type := Model.typeName before typed
  have member := Model.typeMem typed
  obtain ⟨u, counterpart, sameKind⟩ := typeKept quiet member declared
  obtain ⟨kept, input⟩ := inputOfKind sameKind body
  have silent := passQuiet quiet member counterpart (inputFieldsListed extended)
  have fieldsKept := inputFieldsKept body input silent
  have oldNames := before.inputFields t member fields body
  have newNames := after.inputFields u (Model.typeMem counterpart) kept input
  have found : new.inputFields? t.name = some kept := by
    simp [Model.inputFields?, counterpart, TypeDef.inputFields?, input]
  refine ⟨kept, found, fun n gave => ?_, fun b added required => ?_⟩
  · obtain ⟨a, old, rfl⟩ := List.mem_map.mp (accepted.known n gave)
    obtain ⟨e, inside, rfl⟩ := List.mem_map.mp old
    obtain ⟨b, present, _⟩ := fieldsKept.passed e inside
    have entry := Ordered.getIffMem.mp present
    have name : e.2.name = b.name := (oldNames e inside).symm.trans (newNames _ entry)
    rw [name]
    exact List.mem_map_of_mem (List.mem_map_of_mem entry)
  · obtain ⟨e, inside, rfl⟩ := List.mem_map.mp added
    have present := (Ordered.containsIff _ _).mp (fieldsKept.optional e inside required)
    obtain ⟨a, here⟩ := Ordered.existsOfKey present
    have entry := Ordered.getIffMem.mp here
    obtain ⟨b, counter, safe⟩ := fieldsKept.passed _ entry
    have same : b = e.2 := by
      rw [Ordered.getIffMem.mpr inside] at counter
      exact (Option.some.inj counter).symm
    subst same
    have name : a.name = e.2.name := (oldNames _ entry).symm.trans (newNames e inside)
    have value : a ∈ fields.values := List.mem_map_of_mem entry
    rcases requiredOfSafe safe required with needed | dropped
    · exact .inl (name ▸ accepted.required a value needed)
    · exact .inr ⟨a, value, name, dropped⟩

theorem clientInputKept {before after : String} (readOld : Sdl.readSchema before = .ok old)
    (readNew : Sdl.readSchema after = .ok new) (distinct : new.EveryField Field.DistinctArguments)
    (extended : options.extended = true) (quiet : (compare old new options).breaking = []) :
    (∀ type name f, isBuiltInType type = false → old.field? type name = some f →
      ∀ given, Accepted f.arguments given →
        ∃ g, new.field? type name = some g ∧ (∀ n ∈ given, n ∈ g.arguments.map (·.name)) ∧
          ∀ b ∈ g.arguments, b.isRequired = true → b.name ∈ given ∨
            ∃ a ∈ f.arguments, a.name = b.name ∧ DefaultDropped a b ∧
              defaultChanged options (qualified type name) name a b ∈
                (compare old new options).dangerous) ∧
    (∀ type fields, isBuiltInType type = false → old.inputFields? type = some fields →
      ∀ given, Accepted fields.values given →
        ∃ kept, new.inputFields? type = some kept ∧ (∀ n ∈ given, n ∈ kept.values.map (·.name)) ∧
          ∀ b ∈ kept.values, b.isRequired = true → b.name ∈ given ∨
            ∃ a ∈ fields.values, a.name = b.name ∧ DefaultDropped a b) := by
  have silent := noBreakingIff.mp quiet
  have oldKeyed := Sdl.readKeyed readOld
  refine ⟨fun type name f declared field given accepted => ?_,
    fun type fields declared input given accepted => ?_⟩
  · exact fieldInputKept oldKeyed distinct silent declared field accepted
  · exact objectInputKept oldKeyed (Sdl.readKeyed readNew) extended silent declared input accepted

theorem clientInputKeptRelaxed : ∃ old new f fields,
    Sdl.readSchema "type Q \x7b f(a: Int!): Q \x7d input In \x7b k: Int! \x7d" = .ok old ∧
    Sdl.readSchema "type Q \x7b f(a: Int, b: Int! = 1): Q \x7d input In \x7b k: Int j: Q \x7d" = .ok new ∧
    new.EveryField Field.DistinctArguments ∧
    (compare old new ⟨true, "deprecated", "required"⟩).breaking = [] ∧
    old.field? "Q" "f" = some f ∧ Accepted f.arguments {"a"} ∧
    old.inputFields? "In" = some fields ∧ Accepted fields.values {"k"} ∧
    (∃ g, new.field? "Q" "f" = some g ∧ "a" ∈ g.arguments.map (·.name)) ∧
    ∃ kept, new.inputFields? "In" = some kept ∧ "k" ∈ kept.values.map (·.name) := by
  obtain ⟨old, new, readOld, readNew, passed⟩ := Sdl.modelsRead
    "type Q \x7b f(a: Int!): Q \x7d input In \x7b k: Int! \x7d"
    "type Q \x7b f(a: Int, b: Int! = 1): Q \x7d input In \x7b k: Int j: Q \x7d"
    (fun old new => decide (new.EveryField Field.DistinctArguments) &&
      (compare old new ⟨true, "deprecated", "required"⟩).breaking.isEmpty &&
      (old.field? "Q" "f").any (·.arguments.map (·.name) == ["a"]) &&
      (old.inputFields? "In").any (·.values.map (·.name) == ["k"])) (by decide +kernel)
  simp only [Bool.and_eq_true, decide_eq_true_eq, List.isEmpty_iff, Option.any_eq_true, beq_iff_eq]
    at passed
  obtain ⟨⟨⟨distinct, quiet⟩, f, field, names⟩, fields, input, keys⟩ := passed
  obtain ⟨calls, objects⟩ := clientInputKept readOld readNew distinct rfl quiet
  obtain ⟨g, kept, known, _⟩ := calls "Q" "f" f (by decide) field _ (oneAccepted names)
  obtain ⟨after, found, named, _⟩ := objects "In" fields (by decide) input _ (oneAccepted keys)
  exact ⟨old, new, f, fields, readOld, readNew, distinct, quiet, field, oneAccepted names, input,
    oneAccepted keys, ⟨g, kept, known _ rfl⟩, after, found, named _ rfl⟩

/- A default that is gone makes its argument or field required, which is not counted as breaking. -/
theorem droppedDefaultNotBreaking : ∃ old new options,
    Sdl.readSchema "type Query \x7b a(x: Int! = 1): Int \x7d input In \x7b k: Int! = 1 \x7d" = .ok old ∧
    Sdl.readSchema "type Query \x7b a(x: Int!): Int \x7d input In \x7b k: Int! \x7d" = .ok new ∧
    old.EveryField Field.DistinctArguments ∧ new.EveryField Field.DistinctArguments ∧
    options.extended = true ∧ (compare old new options).breaking = [] ∧
    (∃ f g, old.field? "Query" "a" = some f ∧ Accepted f.arguments ∅ ∧
      new.field? "Query" "a" = some g ∧ ¬ Accepted g.arguments ∅) ∧
    ∃ before after, old.inputFields? "In" = some before ∧ Accepted before.values ∅ ∧
      new.inputFields? "In" = some after ∧ ¬ Accepted after.values ∅ := by
  obtain ⟨old, new, readOld, readNew, passed⟩ := Sdl.modelsRead
    "type Query \x7b a(x: Int! = 1): Int \x7d input In \x7b k: Int! = 1 \x7d"
    "type Query \x7b a(x: Int!): Int \x7d input In \x7b k: Int! \x7d"
    (fun old new => decide (old.EveryField Field.DistinctArguments) &&
      decide (new.EveryField Field.DistinctArguments) &&
      (compare old new ⟨true, "deprecated", "required"⟩).breaking.isEmpty &&
      (old.field? "Query" "a").any (·.arguments.all (!·.isRequired)) &&
      (new.field? "Query" "a").any (·.arguments.any (·.isRequired)) &&
      (old.inputFields? "In").any (·.values.all (!·.isRequired)) &&
      (new.inputFields? "In").any (·.values.any (·.isRequired))) (by decide +kernel)
  simp only [Bool.and_eq_true, decide_eq_true_eq, List.isEmpty_iff, Option.any_eq_true] at passed
  obtain ⟨⟨⟨⟨⟨⟨oldNames, newNames⟩, quiet⟩, f, field, optional⟩, g, kept, required⟩, before, input,
    unset⟩, after, found, needed⟩ := passed
  exact ⟨old, new, ⟨true, "deprecated", "required"⟩, readOld, readNew, oldNames, newNames, rfl, quiet,
    ⟨f, g, field, nothingAccepted optional, kept, nothingRejected required⟩,
    before, after, input, nothingAccepted unset, found, nothingRejected needed⟩

end SchemaDrift.Compare
