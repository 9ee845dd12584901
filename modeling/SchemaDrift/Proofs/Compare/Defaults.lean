import SchemaDrift.Proofs.Compare.Compatibility
import SchemaDrift.Proofs.Compare.Reversal
import SchemaDrift.Proofs.Schema.Coercion

/-! Defaults of arguments whose type changed safely. A safe change moves non-null wrappers and nothing
else, and list coercion looks through them; so both versions of the type read a literal alike, and
whether a default is told as changed does not depend on which of them reads it. -/
namespace SchemaDrift

def TypeRef.bare : TypeRef → TypeRef
  | .named name => .named name
  | .list item => .list item.bare
  | .nonNull inner => inner.bare

theorem Literal.coerceBare (t : TypeRef) (v : Literal) : v.coerce t.bare = v.coerce t := by
  induction t generalizing v with
  | named name => rfl
  | nonNull inner ih => exact ih v
  | list item ih =>
    have items : Literal.coerce item.bare = Literal.coerce item := funext ih
    simp only [TypeRef.bare, Literal.coerce, items]

namespace Compare

theorem bareOfInputSafe {a b : TypeRef} (safe : inputSafe a b = true) : a.bare = b.bare := by
  fun_induction inputSafe a b with
  | case1 a b => rw [beq_iff_eq.mp safe]
  | case3 a b ih => exact congrArg TypeRef.list (ih safe)
  | case5 a b ih => exact ih safe
  | case6 a b other ih => exact ih safe
  | _ => contradiction

theorem readAlike {a b : TypeRef} (safe : inputSafe a b = true ∨ outputSafe a b = true) (v : Literal) :
    v.coerce a = v.coerce b := by
  have bare : a.bare = b.bare := by
    rcases safe with input | output
    · exact bareOfInputSafe input
    · rw [outputInputDual] at output
      exact (bareOfInputSafe output).symm
  rw [← Literal.coerceBare a, ← Literal.coerceBare b, bare]

structure KeptArgument where
  path : String
  field : String
  old : Argument
  new : Argument

def Keeps (old new : Model) (k : KeptArgument) : Prop :=
  ∃ t u before after f g, t ∈ old.typeList ∧ new.type? t.name = some u ∧
    shapes? t u = some (before, after) ∧ k.path = qualified t.name k.field ∧
    before.fields.get? k.field = some f ∧ after.fields.get? k.field = some g ∧
    k.old ∈ f.arguments ∧ argumentNamed? g.arguments k.old.name = some k.new

namespace KeptArgument

def redefaulted (k : KeptArgument) : Bool :=
  inputSafe k.old.type k.new.type && !keepsDefault k.old k.new

def newDefault (options : Options) (k : KeptArgument) : Change :=
  defaultChanged options k.path k.field k.old k.new

theorem redefaultedIff {k : KeptArgument} {d e : Constant}
    (safe : inputSafe k.old.type k.new.type = true) (before : k.old.default = some d)
    (after : k.new.default = some e) :
    (k.redefaulted = true ↔
        ¬ (d.literal.coerce k.old.type).same (e.literal.coerce k.old.type) = true) ∧
      (k.redefaulted = true ↔
        ¬ (d.literal.coerce k.new.type).same (e.literal.coerce k.new.type) = true) := by
  have compared : k.redefaulted =
      !(d.literal.coerce k.old.type).same (e.literal.coerce k.new.type) := by
    simp only [redefaulted, keepsDefault, safe, before, after, Bool.true_and]
  have alike := readAlike (.inl safe)
  rw [compared, Bool.not_eq_true', ← Bool.not_eq_true]
  constructor
  · rw [alike e.literal]
  · rw [alike d.literal]

end KeptArgument

def keptOfField (path name : String) (f g : Field) : List KeptArgument :=
  f.arguments.filterMap fun a => (argumentNamed? g.arguments a.name).map fun b => ⟨path, name, a, b⟩

def keptOfPair : TypeDef → TypeDef → List KeptArgument := onShapes fun t _ before after =>
  (before.fields.shared after.fields).flatMap fun e =>
    keptOfField (qualified t.name e.1) e.1 e.2.1 e.2.2

def keptArguments (old new : Model) : List KeptArgument := overPairs old new keptOfPair

theorem memKeptOfField {path name : String} {f g : Field} {k : KeptArgument} :
    k ∈ keptOfField path name f g ↔ k.path = path ∧ k.field = name ∧ k.old ∈ f.arguments ∧
      argumentNamed? g.arguments k.old.name = some k.new := by
  simp only [keptOfField, List.mem_filterMap, Option.map_eq_some_iff]
  constructor
  · rintro ⟨a, declared, b, kept, rfl⟩
    exact ⟨rfl, rfl, declared, kept⟩
  · rintro ⟨rfl, rfl, declared, kept⟩
    exact ⟨k.old, declared, k.new, kept, rfl⟩

theorem memKeptArguments {old new : Model} {k : KeptArgument} :
    k ∈ keptArguments old new ↔ Keeps old new k := by
  unfold keptArguments keptOfPair
  rw [memOverShapes]
  simp only [List.mem_flatMap, memKeptOfField]
  constructor
  · rintro ⟨t, u, before, after, member, found, shapes, ⟨name, f, g⟩, common, path, rfl, declared, kept⟩
    obtain ⟨left, right⟩ := Ordered.memShared.mp common
    exact ⟨t, u, before, after, f, g, member, found, shapes, path, left, right, declared, kept⟩
  · rintro ⟨t, u, before, after, f, g, member, found, shapes, path, left, right, declared, kept⟩
    exact ⟨t, u, before, after, member, found, shapes, (k.field, f, g),
      Ordered.memShared.mpr ⟨left, right⟩, path, rfl, declared, kept⟩

section Reports
variable {options : Options} {t u : TypeDef}

theorem newDefaultOfArgument (path name : String) (g : Field) (a : Argument) :
    under [.argDefaultValueChange] (argumentChange options path name g a) =
      (((argumentNamed? g.arguments a.name).map
        fun b => KeptArgument.mk path name a b).toList.filter (·.redefaulted)).map
          (·.newDefault options) := by
  unfold argumentChange
  cases argumentNamed? g.arguments a.name with
  | none => rfl
  | some b =>
    have retyped : (argumentRetyped options path name a b).category ≠ .argDefaultValueChange := by
      unfold argumentRetyped
      split <;> simp
    cases safe : inputSafe a.type b.type with
    | false => simpa [under, KeptArgument.redefaulted, safe] using retyped
    | true =>
      cases kept : keepsDefault a b with
      | true => simp [under, KeptArgument.redefaulted, safe, kept]
      | false =>
        simp [under, KeptArgument.redefaulted, KeptArgument.newDefault, safe, kept, defaultChanged]

theorem newDefaultsOfField (path name : String) (f g : Field) :
    under [.argDefaultValueChange] (f.arguments.flatMap (argumentChange options path name g) ++
        addedArguments path f g) =
      ((keptOfField path name f g).filter (·.redefaulted)).map (·.newDefault options) := by
  rw [underAppend, underNone newArgumentCategory (by decide), List.append_nil, keptOfField,
    List.filterMap_eq_flatMap_toList, List.filter_flatMap, List.map_flatMap]
  unfold under
  rw [List.filter_flatMap]
  exact List.flatMap_congr fun a _ => newDefaultOfArgument path name g a

theorem newDefaultsOfPair : under [.argDefaultValueChange] (argumentsChanged options t u) =
    ((keptOfPair t u).filter (·.redefaulted)).map (·.newDefault options) := by
  cases shapes : shapes? t u with
  | none => simp [argumentsChanged, keptOfPair, onShapes, shapes, under]
  | some pair =>
    obtain ⟨before, after⟩ := pair
    rw [argumentsOfShared shapes]
    simp only [keptOfPair, onShapes, shapes, under, List.filter_flatMap, List.map_flatMap]
    exact List.flatMap_congr fun e _ => newDefaultsOfField _ _ e.2.1 e.2.2

end Reports

theorem newDefaults (old new : Model) (options : Options) :
    under [.argDefaultValueChange] (argumentChanges old new options) =
      ((keptArguments old new).filter (·.redefaulted)).map (·.newDefault options) := by
  rw [argumentChanges, underPairs]
  simp only [keptArguments, overPairs, List.filter_flatMap, List.map_flatMap, newDefaultsOfPair]

theorem defaultsReadAlike (old new : Model) (options : Options) :
    (∀ a b : TypeRef, inputSafe a b = true ∨ outputSafe a b = true →
      ∀ v : Literal, v.coerce a = v.coerce b) ∧
    (∀ k, k ∈ keptArguments old new ↔ Keeps old new k) ∧
    under [.argDefaultValueChange] (argumentChanges old new options) =
      ((keptArguments old new).filter (·.redefaulted)).map (·.newDefault options) ∧
    ∀ k, Keeps old new k → ∀ d e : Constant,
      inputSafe k.old.type k.new.type = true → k.old.default = some d → k.new.default = some e →
        (k.redefaulted = true ↔
          ¬ (d.literal.coerce k.old.type).same (e.literal.coerce k.old.type) = true) ∧
        (k.redefaulted = true ↔
          ¬ (d.literal.coerce k.new.type).same (e.literal.coerce k.new.type) = true) :=
  ⟨fun _ _ => readAlike, fun _ => memKeptArguments, newDefaults old new options,
    fun _ _ _ _ => KeptArgument.redefaultedIff⟩

section Sample

def defaulted (name : String) (type : TypeRef) (default : Constant) : Argument :=
  ⟨name, type, some default, none, []⟩

def strictLists : TypeRef := .nonNull (.list (.nonNull (.named "Int")))

def looseLists : TypeRef := .list (.named "Int")

def keptDefault : KeptArgument :=
  ⟨"Q.f", "f", defaulted "a" strictLists (.integer 1),
    defaulted "a" looseLists (.list [.integer 1])⟩

def movedDefault : KeptArgument :=
  ⟨"Q.f", "f", defaulted "b" strictLists (.integer 1),
    defaulted "b" looseLists (.list [.integer 2])⟩

def oneField (arguments : List Argument) : Model :=
  ⟨⟨[("Q", ⟨"Q", none, [], .object ⟨[], ⟨[("f", ⟨"f", .named "Q", arguments, none, []⟩)],
    by simp⟩⟩⟩)], by simp⟩, .empty, .unset⟩

def strictField : Model := oneField [keptDefault.old, movedDefault.old]

def looseField : Model := oneField [keptDefault.new, movedDefault.new]

theorem defaultsReadAlikeRelaxed :
    keptArguments strictField looseField = [keptDefault, movedDefault] ∧
    under [.argDefaultValueChange] (argumentChanges strictField looseField .standard) =
      [movedDefault.newDefault .standard] ∧
    (∀ v : Literal, v.coerce strictLists = v.coerce looseLists) ∧
    ((Literal.integer 1).coerce strictLists).same
      ((Literal.list [.integer 1]).coerce strictLists) = true ∧
    ¬ ((Literal.integer 1).coerce looseLists).same
      ((Literal.list [.integer 2]).coerce looseLists) = true := by
  obtain ⟨alike, listed, told, judged⟩ := defaultsReadAlike strictField looseField .standard
  have kept : keptArguments strictField looseField = [keptDefault, movedDefault] := rfl
  have first := judged keptDefault ((listed _).mp (by simp [kept])) _ _ rfl rfl rfl
  have second := judged movedDefault ((listed _).mp (by simp [kept])) _ _ rfl rfl rfl
  have still : keptDefault.redefaulted = false := rfl
  have moved : movedDefault.redefaulted = true := rfl
  refine ⟨kept, ?_, alike _ _ (.inl rfl), ?_, second.2.mp moved⟩
  · rw [told, kept]
    simp [still, moved]
  · by_contra apart
    exact absurd (first.1.mpr apart) (by simp [still])

end Sample

end Compare
end SchemaDrift
