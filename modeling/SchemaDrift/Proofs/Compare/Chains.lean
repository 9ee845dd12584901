import SchemaDrift.Proofs.Compare.ClientInput
import SchemaDrift.Proofs.Compare.SelfComparison

/-! Versions compared one after the other. A comparison without breaking changes keeps every type,
and every field of it for those who read it or pass arguments; what two steps keep, they keep
together, provided the second keeps the defaults of arguments. A default that the first step adds
and the second drops again makes an argument required that no single step reports. -/
namespace SchemaDrift.Compare

structure FieldKept (old new : Field) : Prop where
  read : outputSafe old.type new.type = true
  passed : ∀ a ∈ old.arguments, ∃ b, argumentNamed? new.arguments a.name = some b ∧
    inputSafe a.type b.type = true
  optional : ∀ b ∈ new.arguments, b.isRequired = true → b.name ∈ old.arguments.map (·.name)

structure FieldUnmoved (old new : Field) : Prop extends FieldKept old new where
  defaults : ∀ a ∈ old.arguments, ∀ b, argumentNamed? new.arguments a.name = some b →
    inputSafe a.type b.type = true → keepsDefault a b = true
  distinct : new.DistinctArguments

/- The required argument of the last version was one of the middle version already: it has kept its
default, so it had none, and was required there too. -/
theorem FieldKept.followedBy {f g h : Field} (first : FieldKept f g) (second : FieldUnmoved g h) :
    FieldKept f h where
  read := outputSafeTrans first.read second.read
  passed a member := by
    obtain ⟨b, found, safe⟩ := first.passed a member
    obtain ⟨c, last, more⟩ := second.passed b (List.mem_of_find?_eq_some found)
    have name : b.name = a.name := by simpa using List.find?_some found
    exact ⟨c, name ▸ last, inputSafeTrans safe more⟩
  optional c member required := by
    obtain ⟨b, middle, name⟩ := List.mem_map.mp (second.optional c member required)
    obtain ⟨c', found, safe⟩ := second.passed b middle
    have same : c' = c := by
      rw [name, argumentOfMem second.distinct member] at found
      exact (Option.some.inj found).symm
    subst same
    rcases requiredOfSafe safe required with needed | dropped
    · exact name ▸ first.optional b middle needed
    · have kept := second.defaults b middle c' found safe
      rw [droppedNotKept dropped] at kept
      contradiction

def ShapeKept (kept : Field → Field → Prop) (old new : ObjectShape) : Prop :=
  ∀ name f, old.fields.get? name = some f → ∃ g, new.fields.get? name = some g ∧ kept f g

inductive BodyKept (kept : Field → Field → Prop) : TypeBody → TypeBody → Prop
  | scalar : BodyKept kept .scalar .scalar
  | object {old new : ObjectShape} (h : ShapeKept kept old new) :
    BodyKept kept (.object old) (.object new)
  | interface {old new : ObjectShape} (h : ShapeKept kept old new) :
    BodyKept kept (.interface old) (.interface new)
  | union {old new : List String} : BodyKept kept (.union old) (.union new)
  | enum {old new : List EnumValue} (h : old.map (·.name) ⊆ new.map (·.name)) :
    BodyKept kept (.enum old) (.enum new)
  | inputObject {old new : Ordered Argument} : BodyKept kept (.inputObject old) (.inputObject new)

def TypesKept (kept : Field → Field → Prop) (old new : Model) : Prop :=
  ∀ t ∈ old.typeList, isBuiltInType t.name = false →
    ∃ u, new.type? t.name = some u ∧ BodyKept kept t.body u.body

section Steps
variable {first second both : Field → Field → Prop}

theorem ShapeKept.followedBy {a b c : ObjectShape}
    (joined : ∀ f g h, first f g → second g h → both f h) (left : ShapeKept first a b)
    (right : ShapeKept second b c) : ShapeKept both a c := by
  intro name f found
  obtain ⟨g, middle, kept⟩ := left name f found
  obtain ⟨h, last, more⟩ := right name g middle
  exact ⟨h, last, joined f g h kept more⟩

theorem BodyKept.followedBy {a b c : TypeBody}
    (joined : ∀ f g h, first f g → second g h → both f h) (left : BodyKept first a b)
    (right : BodyKept second b c) : BodyKept both a c := by
  cases left with
  | scalar => cases right; exact .scalar
  | object h => cases right with | object more => exact .object (h.followedBy joined more)
  | interface h => cases right with | interface more => exact .interface (h.followedBy joined more)
  | union => cases right; exact .union
  | enum h => cases right with | enum more => exact .enum (List.Subset.trans h more)
  | inputObject => cases right; exact .inputObject

theorem TypesKept.followedBy {a b c : Model} (keyed : b.Keyed)
    (joined : ∀ f g h, first f g → second g h → both f h) (left : TypesKept first a b)
    (right : TypesKept second b c) : TypesKept both a c := by
  intro t member declared
  obtain ⟨u, found, kept⟩ := left t member declared
  have name := Model.typeName keyed found
  obtain ⟨v, last, more⟩ := right u (Model.typeMem found) (name ▸ declared)
  exact ⟨v, name ▸ last, kept.followedBy joined more⟩

end Steps

section Quiet
variable {old new : Model} {options : Options} {t u : TypeDef} {before after : ObjectShape}

theorem fieldReadable (shapes : shapes? t u = some (before, after))
    (quiet : NoBreaking (fieldsChanged options t u)) {name : String} {f g : Field}
    (member : (name, f) ∈ before.fields.entries) (found : after.fields.get? name = some g) :
    outputSafe f.type g.type = true := by
  refine Decidable.byContradiction fun rejected => ?_
  have reported : fieldRetyped (qualified t.name name) f.type g.type g.location
      (options.isDeprecated f.directives) ∈ fieldsChanged options t u := by
    rw [fieldsOfShapes shapes]
    exact List.mem_flatMap.mpr ⟨_, member, by simp [fieldChange, found, rejected]⟩
  have breaking := quiet _ reported
  contradiction

theorem valueNamesKept {before after : List EnumValue} (old : t.body = .enum before)
    (new : u.body = .enum after) (quiet : NoBreaking (valuesRemoved options t u)) :
    before.map (·.name) ⊆ after.map (·.name) := by
  intro name member
  obtain ⟨v, inside, rfl⟩ := List.mem_map.mp member
  refine Decidable.byContradiction fun absent => ?_
  have gone : (!after.any (·.name == v.name)) = true := by simpa using absent
  have reported : valueRemoved options t u v ∈ valuesRemoved options t u := by
    simp only [valuesRemoved, onEnums, old, new]
    exact List.mem_map_of_mem (List.mem_filter.mpr ⟨inside, gone⟩)
  have breaking := quiet _ reported
  contradiction

theorem fieldOfQuiet (shapes : shapes? t u = some (before, after))
    (fields : NoBreaking (fieldsChanged options t u))
    (arguments : NoBreaking (argumentsChanged options t u)) {name : String} {f : Field}
    (member : (name, f) ∈ before.fields.entries) :
    ∃ g, after.fields.get? name = some g ∧ FieldKept f g := by
  obtain ⟨g, found⟩ := fieldKept shapes fields member
  have kept := argumentsKept shapes arguments member found
  exact ⟨g, found, fieldReadable shapes fields member found, kept.passed, kept.optional⟩

theorem bodyOfKind {kept : Field → Field → Prop} (same : u.kind = t.kind)
    (shape : ∀ before after, shapes? t u = some (before, after) → ShapeKept kept before after)
    (values : ∀ before after, t.body = .enum before → u.body = .enum after →
      before.map (·.name) ⊆ after.map (·.name)) : BodyKept kept t.body u.body := by
  have alike := TypeBody.alikeOfKind same
  generalize old : t.body = b at alike
  generalize new : u.body = c at alike
  cases alike with
  | scalar => exact .scalar
  | object before after => exact .object (shape before after (by simp [shapes?, old, new]))
  | interface before after => exact .interface (shape before after (by simp [shapes?, old, new]))
  | union => exact .union
  | enum before after => exact .enum (values before after old new)
  | inputObject => exact .inputObject

theorem typesOfQuiet {kept : Field → Field → Prop} (quiet : NoBreaking (changes old new options))
    (each : ∀ t ∈ old.typeList, ∀ u, new.type? t.name = some u → ∀ before after,
      shapes? t u = some (before, after) → ∀ name f, (name, f) ∈ before.fields.entries →
        ∀ g, after.fields.get? name = some g → FieldKept f g → kept f g) :
    TypesKept kept old new := by
  intro t member declared
  obtain ⟨u, found, same⟩ := typeKept quiet member declared
  have fields := passQuiet quiet member found (fieldsListed options)
  have arguments := passQuiet quiet member found (argumentsListed options)
  have values := passQuiet quiet member found (valuesListed options)
  refine ⟨u, found, bodyOfKind same (fun before after shapes name f inside => ?_) ?_⟩
  · have entry := Ordered.getIffMem.mp inside
    obtain ⟨g, counterpart, safe⟩ := fieldOfQuiet shapes fields arguments entry
    exact ⟨g, counterpart, each t member u found before after shapes name f entry g counterpart safe⟩
  · exact fun before after old new => valueNamesKept old new values

theorem defaultsOfQuiet (silent : ∀ c ∈ (compare old new options).dangerous,
      c.category ≠ .argDefaultValueChange) (member : t ∈ old.typeList)
    (typed : new.type? t.name = some u) (shapes : shapes? t u = some (before, after))
    {name : String} {f g : Field} (inside : (name, f) ∈ before.fields.entries)
    (found : after.fields.get? name = some g) {a b : Argument} (declared : a ∈ f.arguments)
    (kept : argumentNamed? g.arguments a.name = some b) (safe : inputSafe a.type b.type = true) :
    keepsDefault a b = true := by
  cases same : keepsDefault a b with
  | true => rfl
  | false =>
    have reported : defaultChanged options (qualified t.name name) name a b ∈
        (compare old new options).dangerous :=
      defaultReported member typed shapes inside found declared kept safe same
    exact absurd rfl (silent _ reported)

theorem argumentQuiet {path name : String} {f g : Field} (kept : FieldKept f g) {a : Argument}
    (member : a ∈ f.arguments) : NoBreaking (argumentChange options path name g a) := by
  obtain ⟨b, found, safe⟩ := kept.passed a member
  intro c reported
  simp only [argumentChange, found, safe, Bool.not_true, Bool.false_eq_true, if_false] at reported
  split at reported
  · contradiction
  · rw [List.mem_singleton.mp reported]
    rfl

theorem addedQuiet {path : String} {f g : Field} (kept : FieldKept f g) :
    NoBreaking (addedArguments path f g) := by
  intro c reported
  obtain ⟨b, inside, rfl⟩ := List.mem_map.mp reported
  obtain ⟨member, missing⟩ := List.mem_filter.mp inside
  have optional : b.isRequired = false := Bool.eq_false_iff.mpr fun required =>
    argumentMissing.mp missing (kept.optional b member required)
  simp [argumentAdded, optional, Change.isBreaking, Category.isBreaking, Category.severity]

theorem shapesQuiet (shapes : shapes? t u = some (before, after))
    (kept : ShapeKept FieldKept before after) :
    fieldsChanged options t u = [] ∧ NoBreaking (argumentsChanged options t u) := by
  constructor
  · rw [fieldsOfShapes shapes]
    refine List.flatMap_eq_nil_iff.mpr fun e member => ?_
    obtain ⟨g, found, safe⟩ := kept e.1 e.2 (Ordered.getIffMem.mpr member)
    simp [fieldChange, found, safe.read]
  · intro c reported
    rw [argumentsOfShapes shapes] at reported
    obtain ⟨e, member, inside⟩ := List.mem_flatMap.mp reported
    obtain ⟨g, found, safe⟩ := kept e.1 e.2 (Ordered.getIffMem.mpr member)
    simp only [fieldArgumentChanges, found] at inside
    rcases List.mem_append.mp inside with passed | added
    · obtain ⟨a, declared, here⟩ := List.mem_flatMap.mp passed
      exact argumentQuiet safe declared c here
    · exact addedQuiet safe c added

theorem pairQuiet (core : options.extended = false) (kept : BodyKept FieldKept t.body u.body) :
    NoBreaking (pairReport options t u) := by
  generalize old : t.body = b at kept
  generalize new : u.body = c at kept
  have nothing : NoBreaking [] := List.forall_mem_nil _
  have ofShapes : ∀ {before after}, shapes? t u = some (before, after) →
      ShapeKept FieldKept before after → NoBreaking (pairReport options t u) := by
    intro before after shapes shape
    have quiet : fieldsChanged options t u = [] ∧ NoBreaking (argumentsChanged options t u) :=
      shapesQuiet shapes shape
    rw [reportOfShapes shapes, quiet.1, core]
    simpa using quiet.2
  cases kept with
  | scalar =>
    have kinds : t.kind = u.kind := by simp [TypeDef.kind, old, new]
    rwa [reportOfKinds (.inl old), sameKindSilent options kinds]
  | object h => exact ofShapes (by simp [shapes?, old, new]) h
  | interface h => exact ofShapes (by simp [shapes?, old, new]) h
  | union => simpa [reportOfUnion old new, core] using nothing
  | enum h => simpa [reportOfEnum old new, valuesKept old new h, core] using nothing
  | inputObject => simpa [reportOfInput old new, core] using nothing

/- A type under a built-in name is never missed, and as a scalar it has nothing else to lose. -/
theorem quietOfTypes (core : options.extended = false)
    (scalars : ∀ t ∈ old.typeList, isBuiltInType t.name = true → t.kind = .scalar)
    (kept : TypesKept FieldKept old new) : NoBreaking (changes old new options) := by
  intro c reported
  cases memChanges.mp reported with
  | removed member absent declared same =>
    obtain ⟨u, found, _⟩ := kept _ member declared
    rw [absent] at found
    contradiction
  | @pair t u member found pass listed inside =>
    have told : c ∈ pairReport options t u := List.mem_flatMap.mpr ⟨pass, listed, inside⟩
    cases builtIn : isBuiltInType t.name with
    | true =>
      have scalar : t.body = .scalar := TypeDef.bodyOfScalar (scalars t member builtIn)
      rw [reportOfKinds (.inl scalar)] at told
      simp [kindChanged, builtIn] at told
    | false =>
      obtain ⟨v, same, body⟩ := kept t member builtIn
      cases Option.some.inj (found.symm.trans same)
      exact pairQuiet core body c told
  | directive inside => simp [directivePass, core] at inside

end Quiet

/- Keys have to be names in the middle version alone, and argument names distinct in the last one.
The steps may be made with extended checks as well: those only add to what is reported. -/
theorem cleanStepsCompose {a b c : Model} {first second direct : Options} (keyed : b.Keyed)
    (distinct : c.EveryField Field.DistinctArguments)
    (scalars : ∀ t ∈ a.typeList, isBuiltInType t.name = true → t.kind = .scalar)
    (core : direct.extended = false) (firstClean : (compare a b first).breaking = [])
    (secondClean : (compare b c second).breaking = [])
    (sameDefaults : ∀ d ∈ (compare b c second).dangerous, d.category ≠ .argDefaultValueChange) :
    (compare a c direct).breaking = [] := by
  have left : TypesKept FieldKept a b :=
    typesOfQuiet (noBreakingIff.mp firstClean) fun _ _ _ _ _ _ _ _ _ _ _ _ kept => kept
  have right : TypesKept FieldUnmoved b c := by
    refine typesOfQuiet (noBreakingIff.mp secondClean) ?_
    intro t member u typed before after shapes name f entry g found kept
    have reshaped := (shapesOfPair shapes).2
    refine ⟨kept, fun x declared y passed safe => ?_, ?_⟩
    · exact defaultsOfQuiet sameDefaults member typed shapes entry found declared passed safe
    · exact distinct u (Model.typeMem typed) after reshaped _ (Ordered.getIffMem.mp found)
  have together : TypesKept FieldKept a c :=
    left.followedBy keyed (fun _ _ _ kept unmoved => kept.followedBy unmoved) right
  exact noBreakingIff.mpr (quietOfTypes core scalars together)

theorem cleanStepsComposeAddedArgument : ∃ a b c,
    Sdl.readSchema "type Q \x7b f(x: [Int!]!): Q \x7d enum E \x7b A \x7d" = .ok a ∧
    Sdl.readSchema "type Q \x7b f(x: [Int!], y: [Int]! = 1): Q! g: E \x7d enum E \x7b B A \x7d" = .ok b ∧
    Sdl.readSchema "type Q \x7b f(y: [Int] = [1.0], x: [Int]): Q! g: E! \x7d enum E \x7b A B \x7d" = .ok c ∧
    c.EveryField Field.DistinctArguments ∧ (compare a b .standard).breaking = [] ∧
    (compare b c .standard).breaking = [] ∧
    (∀ d ∈ (compare b c .standard).dangerous, d.category ≠ .argDefaultValueChange) ∧
    (compare a c .standard).breaking = [] := by
  obtain ⟨a, b, readFirst, readSecond, rest⟩ := Sdl.modelsRead
    "type Q \x7b f(x: [Int!]!): Q \x7d enum E \x7b A \x7d"
    "type Q \x7b f(x: [Int!], y: [Int]! = 1): Q! g: E \x7d enum E \x7b B A \x7d"
    (fun a b => Sdl.reads
      "type Q \x7b f(y: [Int] = [1.0], x: [Int]): Q! g: E! \x7d enum E \x7b A B \x7d" fun c =>
        decide (c.EveryField Field.DistinctArguments) &&
        decide (∀ t ∈ a.typeList, isBuiltInType t.name = true → t.kind = .scalar) &&
        (compare a b .standard).breaking.isEmpty && (compare b c .standard).breaking.isEmpty &&
        (compare b c .standard).dangerous.all (·.category != .argDefaultValueChange))
    (by decide +kernel)
  obtain ⟨c, readThird, passed⟩ := Sdl.modelRead _ _ rest
  simp only [Bool.and_eq_true, decide_eq_true_eq, List.isEmpty_iff, List.all_eq_true, bne_iff_ne]
    at passed
  obtain ⟨⟨⟨⟨distinct, scalars⟩, firstClean⟩, secondClean⟩, sameDefaults⟩ := passed
  exact ⟨a, b, c, readFirst, readSecond, readThird, distinct, firstClean, secondClean, sameDefaults,
    cleanStepsCompose (Sdl.readKeyed readSecond) distinct scalars rfl firstClean secondClean
      sameDefaults⟩

end SchemaDrift.Compare
