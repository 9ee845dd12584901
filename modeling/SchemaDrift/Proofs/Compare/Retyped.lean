import SchemaDrift.Proofs.Compare.Categories
import SchemaDrift.Proofs.Compare.Compatibility
import SchemaDrift.Proofs.Compare.Headings
import SchemaDrift.Proofs.Schema.TypeText
import SchemaDrift.Proofs.Sdl.Resolution

/-! The two type texts of a message. A pass tells of another type only where a compatibility rule
fails, and both rules hold between a type and itself; so the texts are those of two different types,
and differ. They are the last texts in ticks of the message, whatever the names in front of them. -/
namespace SchemaDrift.Compare

section Reading

def inLastTicks (cs : List Char) : List Char × List Char :=
  let last := inFirstTicks cs.reverse
  (last.2.reverse, last.1.reverse)

def typeTexts (message : String) : String × String :=
  let new := inLastTicks message.toList
  (String.ofList (inLastTicks new.1).2, String.ofList new.2)

def typeChange (what : String) (old new : TypeRef) : String :=
  what ++ " changed type from " ++ inTicks old.text ++ " to " ++ inTicks new.text

theorem lastTicksRead {name rest : String} (clean : Tickless name) (after : Tickless rest)
    (lead : String) :
    inLastTicks (lead ++ inTicks name ++ rest).toList = (lead.toList, name.toList) := by
  have backwards : (lead ++ inTicks name ++ rest).toList.reverse =
      rest.toList.reverse ++ tick :: (name.toList.reverse ++ tick :: lead.toList.reverse) := by
    simp [inTicks, tick]
  have ended : tick ∉ rest.toList.reverse := by rwa [List.mem_reverse]
  have named : tick ∉ name.toList.reverse := by rwa [List.mem_reverse]
  rw [inLastTicks, backwards, inFirstTicks, upToMark ended, upToMark named, List.reverse_reverse,
    List.reverse_reverse]

theorem typeTextsRead {x y : TypeRef} (old : x.Unmarked) (new : y.Unmarked) (what : String) :
    typeTexts (typeChange what x y) = (x.text, y.text) := by
  have message : typeChange what x y =
      (what ++ " changed type from " ++ inTicks x.text ++ " to ") ++ inTicks y.text ++ "" := by
    simp only [typeChange, String.append_empty]
  have between : Tickless " to " := by decide
  have nothing : Tickless "" := by decide
  rw [typeTexts, message, lastTicksRead (TypeRef.tickNotInText new) nothing, String.ofList_toList,
    lastTicksRead (TypeRef.tickNotInText old) between, String.ofList_toList]

end Reading

/-- The types that a field, an argument or an input field has in the two versions, under the name by
which changes call it; arguments go by field and argument alone. -/
inductive Counterparts (old new : Model) : String → TypeRef → TypeRef → Prop
  | field {t u : TypeDef} {before after : ObjectShape} {name : String} {f g : Field}
    (type : t ∈ old.typeList) (paired : new.type? t.name = some u)
    (shapes : shapes? t u = some (before, after)) (member : (name, f) ∈ before.fields.entries)
    (found : after.fields.get? name = some g) :
    Counterparts old new (qualified t.name name) f.type g.type
  | argument {t u : TypeDef} {before after : ObjectShape} {name : String} {f g : Field} {a b : Argument}
    (type : t ∈ old.typeList) (paired : new.type? t.name = some u)
    (shapes : shapes? t u = some (before, after)) (member : (name, f) ∈ before.fields.entries)
    (found : after.fields.get? name = some g) (declared : a ∈ f.arguments)
    (kept : argumentNamed? g.arguments a.name = some b) :
    Counterparts old new (qualified name a.name) a.type b.type
  | inputField {t u : TypeDef} {before after : Ordered Argument} {name : String} {f g : Argument}
    (type : t ∈ old.typeList) (paired : new.type? t.name = some u)
    (body : t.body = .inputObject before) (newBody : u.body = .inputObject after)
    (member : (name, f) ∈ before.entries) (found : after.get? name = some g) :
    Counterparts old new (qualified t.name name) f.type g.type

theorem counterpartsEvery {old new : Model} {P : TypeRef → Prop} (before : old.EveryTypeRef P)
    (after : new.EveryTypeRef P) {resource : String} {x y : TypeRef}
    (types : Counterparts old new resource x y) : P x ∧ P y := by
  cases types with
  | field type paired shapes member found =>
    obtain ⟨shaped, newShaped⟩ := shapesOfPair shapes
    have there := after.fields _ (Model.typeMem paired) _ newShaped _ (Ordered.getIffMem.mp found)
    exact ⟨(before.fields _ type _ shaped _ member).1, there.1⟩
  | argument type paired shapes member found declared kept =>
    obtain ⟨shaped, newShaped⟩ := shapesOfPair shapes
    have there := after.fields _ (Model.typeMem paired) _ newShaped _ (Ordered.getIffMem.mp found)
    exact ⟨(before.fields _ type _ shaped _ member).2 _ declared,
      there.2 _ (List.mem_of_find?_eq_some kept)⟩
  | inputField type paired body newBody member found =>
    exact ⟨before.inputFields _ type _ body _ member,
      after.inputFields _ (Model.typeMem paired) _ newBody _ (Ordered.getIffMem.mp found)⟩

def retypings : List Category := [.fieldChangedKind, .argChangedKind, .argBecameRequired]

theorem differentOfRule {safe : TypeRef → TypeRef → Bool} (reflexive : ∀ t, safe t t = true)
    {x y : TypeRef} (broken : ¬ safe x y = true) : x ≠ y :=
  fun same => broken (same ▸ reflexive x)

section Members
variable {options : Options} {c : Change} (kind : c.category ∈ retypings)
include kind

theorem retypedField {owner name : String} {fields : Ordered Field} {f : Field}
    (inside : c ∈ fieldChange options owner fields (name, f)) :
    ∃ g, fields.get? name = some g ∧ f.type ≠ g.type ∧
      c = fieldRetyped (qualified owner name) f.type g.type g.location
        (options.isDeprecated f.directives) := by
  simp only [fieldChange] at inside
  split at inside
  · rw [List.mem_singleton.mp inside] at kind
    contradiction
  · rename_i g found
    split at inside
    · contradiction
    · rename_i broken
      exact ⟨g, found, differentOfRule outputSafeRefl broken, List.mem_singleton.mp inside⟩

theorem retypedInputField {owner name : String} {fields : Ordered Argument} {f : Argument}
    (inside : c ∈ inputFieldChange options owner fields (name, f)) :
    ∃ g, fields.get? name = some g ∧ f.type ≠ g.type ∧
      c = fieldRetyped (qualified owner name) f.type g.type g.location
        (options.isDeprecated f.directives) := by
  simp only [inputFieldChange] at inside
  split at inside
  · rw [List.mem_singleton.mp inside] at kind
    contradiction
  · rename_i g found
    split at inside
    · contradiction
    · rename_i broken
      exact ⟨g, found, differentOfRule inputSafeRefl broken, List.mem_singleton.mp inside⟩

theorem retypedArgument {path field : String} {g : Field} {a : Argument}
    (inside : c ∈ argumentChange options path field g a) :
    ∃ b, argumentNamed? g.arguments a.name = some b ∧ a.type ≠ b.type ∧
      c = argumentRetyped options path field a b := by
  unfold argumentChange at inside
  split at inside
  · rw [List.mem_singleton.mp inside] at kind
    contradiction
  · rename_i b kept
    split at inside
    · rename_i broken
      have different := differentOfRule inputSafeRefl (by simpa using broken)
      exact ⟨b, kept, different, List.mem_singleton.mp inside⟩
    · split at inside
      · contradiction
      · rw [List.mem_singleton.mp inside] at kind
        contradiction

theorem newArgumentSilent {path : String} {f g : Field} : c ∉ addedArguments path f g := by
  intro inside
  have apart : ∀ k ∈ [Category.requiredArgAdded, .optionalArgAdded], k ∉ retypings := by decide
  exact apart _ (newArgumentCategory c inside) kind

theorem newInputFieldSilent {owner : String} {entries : List (String × Argument)} :
    c ∉ entries.map (inputFieldAdded owner) := by
  intro inside
  have apart : ∀ k ∈ [Category.requiredInputFieldAdded, .optionalInputFieldAdded], k ∉ retypings := by
    decide
  exact apart _ (newInputFieldCategory c inside) kind

end Members

structure Retyping (old new : Model) (c : Change) (x y : TypeRef) : Prop where
  types : Counterparts old new c.resource x y
  different : x ≠ y
  told : ∃ what, c.message = typeChange what x y

section Passes
variable {old new : Model} {options : Options} {c : Change} (kind : c.category ∈ retypings)
include kind

theorem retypingOfField (inside : c ∈ fieldChanges old new options) :
    ∃ x y, Retyping old new c x y := by
  obtain ⟨t, u, before, after, type, paired, shapes, fields⟩ := memOverShapes.mp inside
  obtain ⟨⟨name, f⟩, member, change⟩ := List.mem_flatMap.mp fields
  obtain ⟨g, found, different, rfl⟩ := retypedField kind change
  exact ⟨f.type, g.type, .field type paired shapes member found, different,
    "Field " ++ inTicks (qualified t.name name), rfl⟩

theorem retypingOfArgument (inside : c ∈ argumentChanges old new options) :
    ∃ x y, Retyping old new c x y := by
  obtain ⟨t, u, before, after, type, paired, shapes, fields⟩ := memOverShapes.mp inside
  obtain ⟨⟨name, f⟩, member, changes⟩ := List.mem_flatMap.mp fields
  simp only [fieldArgumentChanges] at changes
  split at changes
  · contradiction
  · rename_i g found
    rcases List.mem_append.mp changes with passed | added
    · obtain ⟨a, declared, change⟩ := List.mem_flatMap.mp passed
      obtain ⟨b, kept, different, rfl⟩ := retypedArgument kind change
      exact ⟨a.type, b.type, .argument type paired shapes member found declared kept, different,
        argumentText (qualified t.name name) a.name, rfl⟩
    · exact absurd added (newArgumentSilent kind)

theorem retypingOfInputField (inside : c ∈ inputFieldChanges old new options) :
    ∃ x y, Retyping old new c x y := by
  obtain ⟨⟨t, u⟩, pair, changes⟩ := List.mem_flatMap.mp inside
  obtain ⟨type, paired⟩ := memTypePairs.mp pair
  simp only [inputFieldsChanged] at changes
  split at changes
  · rename_i before after body newBody
    rcases List.mem_append.mp changes with kept | added
    · obtain ⟨⟨name, f⟩, member, change⟩ := List.mem_flatMap.mp kept
      obtain ⟨g, found, different, rfl⟩ := retypedInputField kind change
      exact ⟨f.type, g.type, .inputField type paired body newBody member found, different,
        "Field " ++ inTicks (qualified t.name name), rfl⟩
    · exact absurd added (newInputFieldSilent kind)
  · contradiction

theorem retypingOfPass
    (inside : c ∈ fieldChanges old new options ++ argumentChanges old new options ++
      inputFieldChanges old new options) : ∃ x y, Retyping old new c x y := by
  rcases List.mem_append.mp inside with shapes | inputs
  · rcases List.mem_append.mp shapes with fields | arguments
    · exact retypingOfField kind fields
    · exact retypingOfArgument kind arguments
  · exact retypingOfInputField kind inputs

end Passes

/- Of the names in a model only those of types matter; elements may be called anything. -/
theorem typeTextsUnambiguous :
    (∀ a b : TypeRef, a.Unmarked → b.Unmarked → (a.text = b.text ↔ a = b)) ∧
    ∀ (old new : Model) (options : Options), old.EveryTypeRef TypeRef.Unmarked →
      new.EveryTypeRef TypeRef.Unmarked → ∀ c ∈ fieldChanges old new options ++
        argumentChanges old new options ++ inputFieldChanges old new options,
      c.category ∈ retypings → ∃ x y, Counterparts old new c.resource x y ∧
        typeTexts c.message = (x.text, y.text) ∧ x.text ≠ y.text := by
  refine ⟨fun a b left right => TypeRef.textSame left right, ?_⟩
  intro old new options before after c inside kind
  obtain ⟨x, y, types, different, what, told⟩ := retypingOfPass kind inside
  obtain ⟨left, right⟩ := counterpartsEvery before after types
  refine ⟨x, y, types, ?_, fun same => different ((TypeRef.textSame left right).mp same)⟩
  rw [told]
  exact typeTextsRead left right what

def typedModel (read first second given : TypeRef) : Model :=
  let argument (name : String) (type : TypeRef) : Argument := ⟨name, type, none, none, []⟩
  let field : Field := ⟨"f", read, [argument "a" first, argument "b" second], none, []⟩
  .ofTypes [⟨"Query", none, [], .object ⟨[], ⟨[("f", field)], by simp⟩⟩⟩,
    ⟨"In", none, [], .inputObject ⟨[("k", argument "k" given)], by simp⟩⟩]

def stackedModel : Model :=
  typedModel (.nonNull (.nonNull (.named "Größe_2"))) (.named "Int")
    (.nonNull (.nonNull (.list (.named "Int")))) (.list (.named "ID"))

def singleModel : Model :=
  typedModel (.nonNull (.named "Größe_2")) (.nonNull (.named "Int")) (.named "Int")
    (.list (.nonNull (.named "ID")))

theorem typeTextsUnambiguousOfStacked :
    (TypeRef.nonNull (.nonNull (.named "Int"))).text ≠ (TypeRef.nonNull (.named "Int")).text ∧
    ∃ told, told = fieldChanges stackedModel singleModel .standard ++
        argumentChanges stackedModel singleModel .standard ++
        inputFieldChanges stackedModel singleModel .standard ∧
      told.map (fun c => (c.category, typeTexts c.message)) =
        [(.fieldChangedKind, "Größe_2!!", "Größe_2!"), (.argBecameRequired, "Int", "Int!"),
          (.argChangedKind, "[Int]!!", "Int"), (.fieldChangedKind, "[ID]", "[ID!]")] ∧
      ∀ c ∈ told, ∃ x y, Counterparts stackedModel singleModel c.resource x y ∧
        typeTexts c.message = (x.text, y.text) ∧ x.text ≠ y.text := by
  have texts := typeTextsUnambiguous.1 (.nonNull (.nonNull (.named "Int"))) (.nonNull (.named "Int"))
    (TypeRef.unmarkedOfName (by decide)) (TypeRef.unmarkedOfName (by decide))
  refine ⟨fun same => by simpa using texts.mp same, _, rfl, by decide +kernel, fun c inside => ?_⟩
  have kinds : ∀ c ∈ fieldChanges stackedModel singleModel .standard ++
      argumentChanges stackedModel singleModel .standard ++
      inputFieldChanges stackedModel singleModel .standard, c.category ∈ retypings := by
    decide +kernel
  exact typeTextsUnambiguous.2 stackedModel singleModel .standard (by decide +kernel)
    (by decide +kernel) c inside (kinds c inside)

end SchemaDrift.Compare
