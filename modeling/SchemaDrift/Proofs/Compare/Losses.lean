import SchemaDrift.Proofs.Compare.ClientInput
import SchemaDrift.Proofs.Compare.Told

/-! Losses. A type that is gone or became another kind is reported once and in place of its members;
a member that is gone is reported once, unless what it stands in is gone as well; nothing else is
reported as lost. -/
namespace SchemaDrift

/- What a type may lose. Fields are those of objects, interfaces and input objects alike. -/
inductive Member where
  | field (name : String)
  | value (name : String)
  | alternative (name : String)
  | interface (name : String)
  | argument (field name : String)
  deriving DecidableEq, Repr

namespace TypeDef

def has (t : TypeDef) : Member → Bool
  | .field name =>
    t.shape?.any (·.fields.contains name) || t.inputFields?.any (·.contains name)
  | .value name => t.enumValues?.any (·.any (·.name == name))
  | .alternative name => match t.body with
    | .union members => members.contains name
    | _ => false
  | .interface name => t.shape?.any (·.interfaces.contains name)
  | .argument field name =>
    t.shape?.any fun s => (s.fields.get? field).any (·.arguments.any (·.name == name))

/- The member is missing, but what it would stand in is there. -/
def misses (t : TypeDef) : Member → Bool
  | .argument field name => t.has (.field field) && !t.has (.argument field name)
  | m => !t.has m

end TypeDef

/- Nothing in the body is declared twice; fields and input fields are stores, which cannot. -/
def TypeBody.DistinctMembers : TypeBody → Prop
  | .object shape => shape.interfaces.Nodup ∧ ∀ e ∈ shape.fields.entries, e.2.DistinctArguments
  | .interface shape => shape.interfaces.Nodup ∧ ∀ e ∈ shape.fields.entries, e.2.DistinctArguments
  | .union members => members.Nodup
  | .enum values => (values.map (·.name)).Nodup
  | .scalar => True
  | .inputObject _ => True

instance : DecidablePred TypeBody.DistinctMembers
  | .object shape => inferInstanceAs (Decidable
      (shape.interfaces.Nodup ∧ ∀ e ∈ shape.fields.entries, e.2.DistinctArguments))
  | .interface shape => inferInstanceAs (Decidable
      (shape.interfaces.Nodup ∧ ∀ e ∈ shape.fields.entries, e.2.DistinctArguments))
  | .union members => inferInstanceAs (Decidable members.Nodup)
  | .enum values => inferInstanceAs (Decidable (values.map (·.name)).Nodup)
  | .scalar => .isTrue trivial
  | .inputObject _ => .isTrue trivial

namespace Compare

section Counting
variable {α β κ : Type} {xs : List α} {k : α → κ}

theorem countFlatMapOnly (distinct : (xs.map k).Nodup) {f : α → List β} {p : β → Bool} {x : α}
    (member : x ∈ xs) (away : ∀ y ∈ xs, k y ≠ k x → (f y).countP p = 0) :
    (xs.flatMap f).countP p = (f x).countP p := by
  induction xs with
  | nil => contradiction
  | cons y rest ih =>
    obtain ⟨absent, distinct⟩ := List.nodup_cons.mp distinct
    rw [List.flatMap_cons, List.countP_append]
    rcases List.mem_cons.mp member with rfl | inside
    · have others : (rest.flatMap f).countP p = 0 := by
        rw [List.countP_eq_zero]
        intro c told
        obtain ⟨z, later, here⟩ := List.mem_flatMap.mp told
        have different : k z ≠ k x := fun same => absent (List.mem_map.mpr ⟨z, later, same⟩)
        exact List.countP_eq_zero.mp (away z (List.mem_cons_of_mem _ later) different) c here
      rw [others, Nat.add_zero]
    · have different : k y ≠ k x := fun same => absent (List.mem_map.mpr ⟨x, inside, same.symm⟩)
      rw [away y List.mem_cons_self different, Nat.zero_add]
      exact ih distinct inside fun z later => away z (List.mem_cons_of_mem _ later)

theorem countToldOnly (distinct : (xs.map k).Nodup) {keep : α → Bool} {tell : α → β} {p : β → Bool}
    {x : α} (member : x ∈ xs) (here : p (tell x) = true)
    (away : ∀ y ∈ xs, p (tell y) = true → k y = k x) :
    ((xs.filter keep).map tell).countP p = if keep x then 1 else 0 := by
  have single := countFlatMapOnly (f := fun y => [y]) (p := fun y => p (tell y) && keep y) distinct
    member fun y inside different => by
      simpa using fun told => absurd (away y inside told) different
  rw [List.flatMap_singleton'] at single
  rw [List.countP_map, List.countP_filter]
  refine Eq.trans single ?_
  cases kept : keep x <;> simp [here, kept]

end Counting

def tellsWhole (category : Category) (type : String) (c : Change) : Bool :=
  c.category == category && c.resource == type

def lossCategory : Member → Category
  | .field _ => .fieldRemoved
  | .value _ => .valueRemovedFromEnum
  | .alternative _ => .typeRemovedFromUnion
  | .interface _ => .interfaceRemovedFromObject
  | .argument _ _ => .argRemoved

def tellsLoss (type : String) (m : Member) (c : Change) : Bool :=
  c.category == lossCategory m && match m with
    | .field name | .value name | .alternative name => c.resource == qualified type name
    | .interface name => c.resource == type &&
      c.message == inTicks type ++ " no longer implements interface " ++ inTicks name
    | .argument field name =>
      c.message == argumentText (qualified type field) name ++ " removed from schema"

theorem lossOfArgument {type field name : String} {c : Change}
    (tells : tellsLoss type (.argument field name) c = true) : AboutArgument type field c := by
  obtain ⟨category, named⟩ := Bool.and_eq_true_iff.mp tells
  unfold AboutArgument
  rw [beq_iff_eq.mp category]
  refine ⟨" arg " ++ inTicks name ++ " removed from schema", ?_⟩
  simpa only [argumentText, String.append_assoc] using beq_iff_eq.mp named

theorem lossAbout {type : String} {m : Member} {c : Change} (tells : tellsLoss type m c = true) :
    AboutMember type c := by
  cases m with
  | argument field name => exact memberOfArgument (lossOfArgument tells)
  | interface name =>
    obtain ⟨category, named⟩ := Bool.and_eq_true_iff.mp tells
    unfold AboutMember
    rw [beq_iff_eq.mp category]
    exact beq_iff_eq.mp (Bool.and_eq_true_iff.mp named).1
  | _ =>
    obtain ⟨category, named⟩ := Bool.and_eq_true_iff.mp tells
    unfold AboutMember
    rw [beq_iff_eq.mp category]
    exact ⟨_, beq_iff_eq.mp named⟩

theorem otherSubject {type : String} {m : Member} {changes : List Change}
    (others : ∀ c ∈ changes, subject c.category ≠ subject (lossCategory m)) :
    changes.countP (tellsLoss type m) = 0 := by
  refine List.countP_eq_zero.mpr fun c inside tells => others c inside ?_
  rw [beq_iff_eq.mp (Bool.and_eq_true_iff.mp tells).1]

section Pairs
variable {options : Options} {t u : TypeDef} {m : Member}

theorem fieldsSilent (other : subject (lossCategory m) ≠ .member) :
    (fieldsChanged options t u).countP (tellsLoss t.name m) = 0 :=
  otherSubject fun c inside => by cases fieldTold inside <;> exact other.symm

theorem argumentsSilent (other : subject (lossCategory m) ≠ .argument)
    (another : subject (lossCategory m) ≠ .newArgument) :
    (argumentsChanged options t u).countP (tellsLoss t.name m) = 0 := by
  refine otherSubject fun c inside => ?_
  obtain ⟨_, _, _, _, _, _, _, _, told⟩ := argumentsTold inside
  rcases argumentSubject told with kind | kind <;> rw [kind]
  · exact other.symm
  · exact another.symm

theorem interfacesSilent (other : subject (lossCategory m) ≠ .interface) :
    (interfacesChanged t u).countP (tellsLoss t.name m) = 0 := by
  refine otherSubject fun c inside => ?_
  cases interfaceTold inside <;> exact other.symm

theorem fieldResource {owner : String} {fields : Ordered Field} {e : String × Field} {c : Change}
    (inside : c ∈ fieldChange options owner fields e) : c.resource = qualified owner e.1 := by
  obtain ⟨name, f⟩ := e
  simp only [fieldChange] at inside
  split at inside
  · rw [List.mem_singleton.mp inside]
    rfl
  · split at inside
    · contradiction
    · rw [List.mem_singleton.mp inside]
      rfl

theorem inputFieldResource {owner : String} {fields : Ordered Argument} {e : String × Argument}
    {c : Change} (inside : c ∈ inputFieldChange options owner fields e) :
    c.resource = qualified owner e.1 := by
  obtain ⟨name, f⟩ := e
  simp only [inputFieldChange] at inside
  split at inside
  · rw [List.mem_singleton.mp inside]
    rfl
  · split at inside
    · contradiction
    · rw [List.mem_singleton.mp inside]
      rfl

theorem argumentGoneCount {field : String} {g : Field} (a b : Argument) :
    (argumentChange options (qualified t.name field) field g b).countP
        (tellsLoss t.name (.argument field a.name)) =
      if (argumentNamed? g.arguments b.name).isNone ∧ b.name = a.name then 1 else 0 := by
  unfold argumentChange
  cases argumentNamed? g.arguments b.name with
  | none =>
    by_cases same : b.name = a.name
    · simp [tellsLoss, lossCategory, argumentRemoved, same]
    · have other : argumentText (qualified t.name field) b.name ≠
          argumentText (qualified t.name field) a.name := by
        simpa [argumentText, inTicks, String.append_assoc] using same
      simp [tellsLoss, lossCategory, argumentRemoved, same, other]
  | some kept =>
    have retyped : (argumentRetyped options (qualified t.name field) field b kept).category ≠
        .argRemoved := by
      unfold argumentRetyped
      split <;> simp
    cases safe : inputSafe b.type kept.type <;> cases same : keepsDefault b kept <;>
      simp [safe, same, tellsLoss, lossCategory, retyped, defaultChanged]

section Shapes
variable {before after : ObjectShape} (extended : options.extended = true)
  (shapes : shapes? t u = some (before, after))
include extended shapes

theorem shapesCount (p : Change → Bool) : (pairReport options t u).countP p =
    (fieldsChanged options t u).countP p + (argumentsChanged options t u).countP p +
      (interfacesChanged t u).countP p := by
  rw [reportOfShapes shapes, extended, if_pos rfl, List.countP_append, List.countP_append]

theorem fieldLosses {name : String} {f : Field} (member : (name, f) ∈ before.fields.entries) :
    (pairReport options t u).countP (tellsLoss t.name (.field name)) =
      if after.fields.contains name then 0 else 1 := by
  have others : ∀ e ∈ before.fields.entries, e.1 ≠ name →
      (fieldChange options t.name after.fields e).countP (tellsLoss t.name (.field name)) = 0 := by
    refine fun e _ different => List.countP_eq_zero.mpr fun c inside tells => different ?_
    have told := beq_iff_eq.mp (Bool.and_eq_true_iff.mp tells).2
    exact qualifiedMember ((fieldResource inside).symm.trans told)
  rw [shapesCount extended shapes, argumentsSilent (by simp [lossCategory, subject])
    (by simp [lossCategory, subject]), interfacesSilent (by simp [lossCategory, subject]),
    fieldsOfShapes shapes, countFlatMapOnly before.fields.distinct member others]
  cases found : after.fields.get? name with
  | none => simp [fieldChange, Ordered.contains, found, tellsLoss, lossCategory, fieldRemoved]
  | some g =>
    cases safe : outputSafe f.type g.type <;>
      simp [fieldChange, Ordered.contains, found, safe, tellsLoss, lossCategory, fieldRetyped]

theorem interfaceLosses (distinct : before.interfaces.Nodup) {name : String}
    (member : name ∈ before.interfaces) :
    (pairReport options t u).countP (tellsLoss t.name (.interface name)) =
      if after.interfaces.contains name then 0 else 1 := by
  have gone : ((missingFrom before.interfaces after.interfaces).map (interfaceRemoved t u)).countP
      (tellsLoss t.name (.interface name)) = if !after.interfaces.contains name then 1 else 0 := by
    refine countToldOnly (k := id) (by simpa using distinct) member ?_ fun other _ tells => ?_
    · simp [tellsLoss, lossCategory, interfaceRemoved, changeAt]
    · simpa [tellsLoss, lossCategory, interfaceRemoved, changeAt, inTicks, String.append_assoc]
        using tells
  have added : ((missingFrom after.interfaces before.interfaces).map (interfaceAdded u)).countP
      (tellsLoss t.name (.interface name)) = 0 := by
    simp [List.countP_eq_zero, tellsLoss, lossCategory, interfaceAdded, changeAt]
  rw [shapesCount extended shapes, argumentsSilent (by simp [lossCategory, subject])
    (by simp [lossCategory, subject]), fieldsSilent (by simp [lossCategory, subject])]
  simp only [interfacesChanged, onShapes, shapes, List.countP_append, gone, added]
  cases after.interfaces.contains name <;> rfl

theorem argumentLosses (names : ∀ e ∈ before.fields.entries, IsName e.1) (owner : IsName t.name)
    {field : String} {f : Field} (member : (field, f) ∈ before.fields.entries)
    (distinct : f.DistinctArguments) {a : Argument} (declared : a ∈ f.arguments) :
    (pairReport options t u).countP (tellsLoss t.name (.argument field a.name)) =
      (after.fields.get? field).elim 0 fun g =>
        if (argumentNamed? g.arguments a.name).isNone then 1 else 0 := by
  have others : ∀ e ∈ before.fields.entries, e.1 ≠ field →
      (fieldArgumentChanges options t.name after.fields e).countP
        (tellsLoss t.name (.argument field a.name)) = 0 := by
    refine fun e entry different => List.countP_eq_zero.mpr fun c inside tells => different ?_
    obtain ⟨g, _, told⟩ := argumentTold inside
    exact argumentOwner owner (names e entry) (names _ member) (argumentAbout told) (lossOfArgument tells)
  rw [shapesCount extended shapes, fieldsSilent (by simp [lossCategory, subject]),
    interfacesSilent (by simp [lossCategory, subject]), argumentsOfShapes shapes,
    countFlatMapOnly before.fields.distinct member others]
  cases found : after.fields.get? field with
  | none => simp [fieldArgumentChanges, found]
  | some g =>
    simp only [fieldArgumentChanges, found, List.countP_append, Nat.zero_add, Nat.add_zero,
      Option.elim_some]
    have added : (addedArguments (qualified t.name field) f g).countP
        (tellsLoss t.name (.argument field a.name)) = 0 := by
      refine otherSubject fun c inside => ?_
      obtain ⟨b, _, rfl⟩ := List.mem_map.mp inside
      rw [addedSubject]
      simp [lossCategory, subject]
    rw [added, Nat.add_zero, countFlatMapOnly (k := fun b : Argument => b.name) distinct declared]
    · simp [argumentGoneCount]
    · intro b _ different
      simp [argumentGoneCount, different]

end Shapes

theorem valueLosses {before after : List EnumValue} (old : t.body = .enum before)
    (new : u.body = .enum after) (distinct : (before.map (·.name)).Nodup) {v : EnumValue}
    (member : v ∈ before) :
    (pairReport options t u).countP (tellsLoss t.name (.value v.name)) =
      if after.any (·.name == v.name) then 0 else 1 := by
  have gone : (valuesRemoved options t u).countP (tellsLoss t.name (.value v.name)) =
      if !after.any (·.name == v.name) then 1 else 0 := by
    simp only [valuesRemoved, onEnums, old, new]
    refine countToldOnly distinct member ?_ fun w _ tells => ?_
    · simp [tellsLoss, lossCategory, valueRemoved]
    · simpa [tellsLoss, lossCategory, valueRemoved, qualified, String.append_assoc] using tells
  have added : (if options.extended then valuesAdded t u else []).countP
      (tellsLoss t.name (.value v.name)) = 0 := by
    refine List.countP_eq_zero.mpr fun c inside tells => ?_
    split at inside
    · obtain ⟨w, _, _, _, rfl⟩ := valueAddedTold inside
      simp [tellsLoss, lossCategory, valueAdded] at tells
    · contradiction
  rw [reportOfEnum old new, List.countP_append, gone, added]
  cases after.any (·.name == v.name) <;> rfl

theorem alternativeLosses (extended : options.extended = true) {before after : List String}
    (old : t.body = .union before) (new : u.body = .union after) (distinct : before.Nodup)
    {name : String} (member : name ∈ before) :
    (pairReport options t u).countP (tellsLoss t.name (.alternative name)) =
      if after.contains name then 0 else 1 := by
  have gone : ((missingFrom before after).map (memberRemoved t u)).countP
      (tellsLoss t.name (.alternative name)) = if !after.contains name then 1 else 0 := by
    refine countToldOnly (k := id) (by simpa using distinct) member ?_ fun other _ tells => ?_
    · simp [tellsLoss, lossCategory, memberRemoved, changeAt]
    · simpa [tellsLoss, lossCategory, memberRemoved, changeAt, qualified, String.append_assoc]
        using tells
  have added : ((missingFrom after before).map (memberAdded u)).countP
      (tellsLoss t.name (.alternative name)) = 0 := by
    simp [List.countP_eq_zero, tellsLoss, lossCategory, memberAdded, changeAt]
  rw [reportOfUnion old new, extended, if_pos rfl]
  simp only [membersChanged, old, new, List.countP_append, gone, added]
  cases after.contains name <;> rfl

theorem inputFieldLosses (extended : options.extended = true) {before after : Ordered Argument}
    (old : t.body = .inputObject before) (new : u.body = .inputObject after) {name : String}
    {f : Argument} (member : (name, f) ∈ before.entries) :
    (pairReport options t u).countP (tellsLoss t.name (.field name)) =
      if after.contains name then 0 else 1 := by
  have others : ∀ e ∈ before.entries, e.1 ≠ name →
      (inputFieldChange options t.name after e).countP (tellsLoss t.name (.field name)) = 0 := by
    refine fun e _ different => List.countP_eq_zero.mpr fun c inside tells => different ?_
    have told := beq_iff_eq.mp (Bool.and_eq_true_iff.mp tells).2
    exact qualifiedMember ((inputFieldResource inside).symm.trans told)
  have added : ((after.entries.filter fun e => !before.contains e.1).map
      (inputFieldAdded u.name)).countP (tellsLoss t.name (.field name)) = 0 := by
    refine List.countP_eq_zero.mpr fun c inside tells => ?_
    obtain ⟨e, _, rfl⟩ := List.mem_map.mp inside
    have category := beq_iff_eq.mp (Bool.and_eq_true_iff.mp tells).1
    cases required : e.2.isRequired <;> simp [inputFieldAdded, required, lossCategory] at category
  rw [reportOfInput old new, extended, if_pos rfl]
  simp only [inputFieldsChanged, old, new, List.countP_append, added,
    countFlatMapOnly before.distinct member others]
  cases found : after.get? name with
  | none => simp [inputFieldChange, Ordered.contains, found, tellsLoss, lossCategory, fieldRemoved]
  | some g =>
    cases safe : inputSafe f.type g.type <;>
      simp [inputFieldChange, Ordered.contains, found, safe, tellsLoss, lossCategory, fieldRetyped]

theorem shapeMemberLosses (extended : options.extended = true) (owner : IsName t.name)
    {before after : ObjectShape} (shapes : shapes? t u = some (before, after))
    (names : ∀ e ∈ before.fields.entries, IsName e.1) (interfaces : before.interfaces.Nodup)
    (arguments : ∀ e ∈ before.fields.entries, e.2.DistinctArguments)
    (declared : t.has m = true) :
    (pairReport options t u).countP (tellsLoss t.name m) = if u.misses m then 1 else 0 := by
  have sides : (t.shape? = some before ∧ t.inputFields? = none ∧ t.enumValues? = none) ∧
      u.shape? = some after ∧ u.inputFields? = none := by
    rcases shapesCases shapes with ⟨old, new⟩ | ⟨old, new⟩ <;>
      simp [TypeDef.shape?, TypeDef.inputFields?, TypeDef.enumValues?, old, new]
  obtain ⟨⟨oldShape, oldInput, oldEnum⟩, newShape, newInput⟩ := sides
  cases m with
  | field name =>
    simp only [TypeDef.has, oldShape, oldInput, Option.any_some, Option.any_none, Bool.or_false]
      at declared
    obtain ⟨f, found⟩ := Ordered.existsOfKey ((Ordered.containsIff _ _).mp declared)
    rw [fieldLosses extended shapes (Ordered.getIffMem.mp found)]
    simp only [TypeDef.misses, TypeDef.has, newShape, newInput, Option.any_some, Option.any_none,
      Bool.or_false]
    cases after.fields.contains name <;> rfl
  | value name => simp [TypeDef.has, oldEnum] at declared
  | alternative name =>
    rcases shapesCases shapes with ⟨old, _⟩ | ⟨old, _⟩ <;> simp [TypeDef.has, old] at declared
  | interface name =>
    simp only [TypeDef.has, oldShape, Option.any_some, List.contains_iff_mem] at declared
    rw [interfaceLosses extended shapes interfaces declared]
    simp only [TypeDef.misses, TypeDef.has, newShape, Option.any_some]
    cases after.interfaces.contains name <;> rfl
  | argument field name =>
    simp only [TypeDef.has, oldShape, Option.any_some, Option.any_eq_true, List.any_eq_true,
      beq_iff_eq] at declared
    obtain ⟨f, found, a, inside, rfl⟩ := declared
    have entry := Ordered.getIffMem.mp found
    rw [argumentLosses extended shapes names owner entry (arguments _ entry) inside]
    simp only [TypeDef.misses, TypeDef.has, newShape, newInput, Ordered.contains, Option.any_some,
      Option.any_none, Bool.or_false]
    cases after.fields.get? field with
    | none => simp
    | some g => simp [argumentNamed?]

theorem memberLosses (extended : options.extended = true) (owner : IsName t.name)
    (names : ∀ shape, t.shape? = some shape → ∀ e ∈ shape.fields.entries, IsName e.1)
    (distinct : t.body.DistinctMembers) (same : u.kind = t.kind) (declared : t.has m = true) :
    (pairReport options t u).countP (tellsLoss t.name m) = if u.misses m then 1 else 0 := by
  have alike := TypeBody.alikeOfKind same
  generalize old : t.body = b at alike distinct
  generalize new : u.body = c at alike
  cases alike with
  | scalar =>
    cases m <;> simp [TypeDef.has, TypeDef.shape?, TypeDef.inputFields?, TypeDef.enumValues?, old]
      at declared
  | object before after =>
    have shaped : t.shape? = some before := by simp [TypeDef.shape?, old]
    have shapes : shapes? t u = some (before, after) := by simp [shapes?, old, new]
    exact shapeMemberLosses extended owner shapes (names before shaped) distinct.1 distinct.2 declared
  | interface before after =>
    have shaped : t.shape? = some before := by simp [TypeDef.shape?, old]
    have shapes : shapes? t u = some (before, after) := by simp [shapes?, old, new]
    exact shapeMemberLosses extended owner shapes (names before shaped) distinct.1 distinct.2 declared
  | union before after =>
    cases m <;> simp [TypeDef.has, TypeDef.shape?, TypeDef.inputFields?, TypeDef.enumValues?, old]
      at declared
    rw [alternativeLosses extended old new distinct declared]
    simp only [TypeDef.misses, TypeDef.has, new]
    cases after.contains _ <;> rfl
  | enum before after =>
    cases m <;> simp [TypeDef.has, TypeDef.shape?, TypeDef.inputFields?, TypeDef.enumValues?, old]
      at declared
    obtain ⟨v, inside, rfl⟩ := declared
    rw [valueLosses old new distinct inside]
    simp only [TypeDef.misses, TypeDef.has, TypeDef.enumValues?, new, Option.any_some]
    cases after.any (·.name == v.name) <;> rfl
  | inputObject before after =>
    cases m <;> simp [TypeDef.has, TypeDef.shape?, TypeDef.inputFields?, TypeDef.enumValues?, old]
      at declared
    obtain ⟨f, found⟩ := Ordered.existsOfKey ((Ordered.containsIff _ _).mp declared)
    rw [inputFieldLosses extended old new (Ordered.getIffMem.mp found)]
    simp only [TypeDef.misses, TypeDef.has, TypeDef.shape?, TypeDef.inputFields?, new,
      Option.any_none, Option.any_some, Bool.false_or]
    cases after.contains _ <;> rfl

theorem lostFieldSilent (owner : IsName t.name)
    (names : ∀ shape, t.shape? = some shape → ∀ e ∈ shape.fields.entries, IsName e.1)
    {field : String} (declared : t.has (.field field) = true) (lost : u.has (.field field) = false)
    {c : Change} (inside : c ∈ pairReport options t u) : ¬ AboutArgument t.name field c := by
  intro about
  obtain ⟨before, after, name, f, g, shapes, entry, found, told⟩ :=
    argumentsTold (argumentSource about inside)
  obtain ⟨old, new⟩ := shapesOfPair shapes
  have input : t.inputFields? = none := by
    rcases shapesCases shapes with ⟨body, _⟩ | ⟨body, _⟩ <;> simp [TypeDef.inputFields?, body]
  simp only [TypeDef.has, old, input, Option.any_some, Option.any_none, Bool.or_false] at declared
  obtain ⟨h, present⟩ := Ordered.existsOfKey ((Ordered.containsIff _ _).mp declared)
  have named : IsName field := names before old _ (Ordered.getIffMem.mp present)
  obtain rfl : name = field :=
    argumentOwner owner (names before old _ entry) named (argumentAbout told) about
  simp [TypeDef.has, new, Ordered.contains, found] at lost

end Pairs

section Models
variable {old new : Model} {options : Options} {t : TypeDef}

theorem ownCount (before : old.Keyed) (after : new.Keyed) (names : old.Named)
    (member : t ∈ old.typeList) {p : Change → Bool} (about : ∀ c, p c = true → About t.name c) :
    (compare old new options).toList.countP p =
      (typeReport options t (new.type? t.name)).countP p := by
  have others : ∀ e ∈ old.types.entries, e.1 ≠ t.name →
      (typeReport options e.2 (new.type? e.1)).countP p = 0 := by
    refine fun e entry different => List.countP_eq_zero.mpr fun c inside tells => different ?_
    have key := before.types e entry
    have other : e.2 ∈ old.typeList := Model.memTypeList.mpr ⟨e.1, entry⟩
    exact key.trans (aboutSame (Model.typeNamed names other) (Model.typeNamed names member)
      (reportAbout after key inside) (about c tells))
  have directives : (directivePass old new options).countP p = 0 :=
    List.countP_eq_zero.mpr fun c inside tells => directiveAbout inside (about c tells)
  have entry : (t.name, t) ∈ old.types.entries :=
    Ordered.getIffMem.mp (Model.typeOfMem before member)
  rw [toldPerm.countP_eq, (changesByType before options new).countP_eq, List.countP_append,
    directives, Nat.add_zero, countFlatMapOnly old.types.distinct entry others]

structure TypeTold (told : List Change) (type : String) (removals kindChanges : Nat) : Prop where
  removals : told.countP (tellsWhole .typeRemoved type) = removals
  kindChanges : told.countP (tellsWhole .typeChangedKind type) = kindChanges

structure ToldWhole (told : List Change) (type : String) (removals kindChanges : Nat) : Prop
    extends TypeTold told type removals kindChanges where
  members : ∀ c ∈ told, ¬ AboutMember type c

structure ToldByMember (told : List Change) (old new : TypeDef) : Prop
    extends TypeTold told old.name 0 0 where
  members : ∀ m, old.has m = true →
    told.countP (tellsLoss old.name m) = if new.misses m then 1 else 0
  lostFields : ∀ field, old.has (.field field) = true → new.has (.field field) = false →
    ∀ c ∈ told, ¬ AboutArgument old.name field c

theorem wholeAbout {category : Category} (kind : subject category = .type) {type : String}
    {c : Change} (tells : tellsWhole category type c = true) : AboutWhole type c := by
  obtain ⟨same, resource⟩ := Bool.and_eq_true_iff.mp tells
  exact ⟨(congrArg subject (beq_iff_eq.mp same)).trans kind, beq_iff_eq.mp resource⟩

theorem wholeNotMember {type : String} {c : Change} (whole : AboutWhole type c) :
    ¬ AboutMember type c := by
  unfold AboutMember
  rw [whole.1]
  exact id

section Types
variable (before : old.Keyed) (after : new.Keyed) (names : old.Named) (member : t ∈ old.typeList)
include before after names member

theorem typeToldOfReport {removals kindChanges : Nat}
    (told : TypeTold (typeReport options t (new.type? t.name)) t.name removals kindChanges) :
    TypeTold (compare old new options).toList t.name removals kindChanges := by
  have own : ∀ category, subject category = .type →
      (compare old new options).toList.countP (tellsWhole category t.name) =
        (typeReport options t (new.type? t.name)).countP (tellsWhole category t.name) :=
    fun category kind => ownCount before after names member fun c tells => .inl (wholeAbout kind tells)
  exact ⟨(own .typeRemoved rfl).trans told.removals, (own .typeChangedKind rfl).trans told.kindChanges⟩

theorem removalToldWhole (declared : isBuiltInType t.name = false)
    (absent : new.type? t.name = none) :
    ToldWhole (compare old new options).toList t.name 1 0 := by
  have report : typeReport options t (new.type? t.name) = [typeRemoved options t] := by
    rw [absent, typeReportOfNone, declared]
    rfl
  refine ⟨typeToldOfReport before after names member ?_, fun c told about => ?_⟩
  · rw [report]
    constructor <;> simp [tellsWhole, typeRemoved]
  · have own := ownReport before after names member told (.inr about)
    rw [report] at own
    rw [List.mem_singleton.mp own] at about
    exact about

theorem kindToldWhole (declared : isBuiltInType t.name = false) {u : TypeDef}
    (found : new.type? t.name = some u) (apart : u.kind ≠ t.kind) :
    ToldWhole (compare old new options).toList t.name 0 1 := by
  have report : typeReport options t (new.type? t.name) = [kindChange options t u] := by
    rw [found, typeReportOfPair, reportOfKinds (.inr apart.symm)]
    simp [kindChanged, declared, apart.symm]
  refine ⟨typeToldOfReport before after names member ?_, fun c told about => ?_⟩
  · rw [report]
    constructor <;> simp [tellsWhole, kindChange]
  · have own := ownReport before after names member told (.inr about)
    rw [report] at own
    rw [List.mem_singleton.mp own] at about
    exact about

theorem membersToldSingly (extended : options.extended = true) (distinct : t.body.DistinctMembers)
    {u : TypeDef} (found : new.type? t.name = some u) (same : u.kind = t.kind) :
    ToldByMember (compare old new options).toList t u := by
  have owner := Model.typeNamed names member
  have fields : ∀ shape, t.shape? = some shape → ∀ e ∈ shape.fields.entries, IsName e.1 :=
    fun shape shaped e inside => Model.fieldNamed names member shaped inside
  have report : typeReport options t (new.type? t.name) = pairReport options t u := by
    rw [found, typeReportOfPair]
  have silent : ∀ category, subject category = .type →
      (pairReport options t u).countP (tellsWhole category t.name) = 0 := by
    refine fun category kind => List.countP_eq_zero.mpr fun c inside tells => ?_
    exact wholeNotMember (wholeAbout kind tells)
      (memberAbout (Model.typeName after found) same.symm inside)
  refine ⟨typeToldOfReport before after names member ?_, fun m declared => ?_, ?_⟩
  · rw [report]
    exact ⟨silent .typeRemoved rfl, silent .typeChangedKind rfl⟩
  · rw [ownCount before after names member fun c tells => .inr (lossAbout tells), report]
    exact memberLosses extended owner fields distinct same declared
  · intro field declared lost c told about
    have own := ownReport before after names member told (.inr (memberOfArgument about))
    rw [report] at own
    exact lostFieldSilent owner fields declared lost own about

end Types

end Models

def textBeforeLosses : String :=
  "type Q implements N \x7b f(a: Int, b: Int): Q g(c: Int): Q \x7d interface N \x7b f: Q \x7d " ++
    "type Gone \x7b x(y: Int): Q \x7d enum Moved \x7b A \x7d"

def textAfterLosses : String :=
  "type Q \x7b f(b: Int): Q \x7d interface N \x7b f: Q \x7d type Moved \x7b A: Q \x7d"

def nestedMembers : List Member :=
  [.argument "f" "a", .argument "f" "b", .field "g", .argument "g" "c", .interface "N"]

theorem lossesToldOnce {old new : Model} {options : Options} {t : TypeDef} (before : old.Keyed)
    (after : new.Keyed) (names : old.Named) (extended : options.extended = true)
    (member : t ∈ old.typeList) (distinct : t.body.DistinctMembers)
    (declared : isBuiltInType t.name = false) :
    (new.type? t.name = none → ToldWhole (compare old new options).toList t.name 1 0) ∧
    (∀ u, new.type? t.name = some u → u.kind ≠ t.kind →
      ToldWhole (compare old new options).toList t.name 0 1) ∧
    (∀ u, new.type? t.name = some u → u.kind = t.kind →
      ToldByMember (compare old new options).toList t u) := by
  refine ⟨fun absent => ?_, fun u found apart => ?_, fun u found same => ?_⟩
  · exact removalToldWhole before after names member declared absent
  · exact kindToldWhole before after names member declared found apart
  · exact membersToldSingly before after names member extended distinct found same

theorem lossesToldOnceNested : ∃ old new, Sdl.readSchema textBeforeLosses = .ok old ∧
    Sdl.readSchema textAfterLosses = .ok new ∧ old.Named ∧
    (nestedMembers.map fun m =>
      (compare old new ⟨true, "deprecated", "required"⟩).toList.countP (tellsLoss "Q" m)) =
        [1, 0, 1, 0, 1] ∧
    ToldWhole (compare old new ⟨true, "deprecated", "required"⟩).toList "Gone" 1 0 ∧
    ToldWhole (compare old new ⟨true, "deprecated", "required"⟩).toList "Moved" 0 1 := by
  obtain ⟨old, new, readOld, readNew, passed⟩ := Sdl.modelsRead textBeforeLosses textAfterLosses
    (fun (old new : Model) =>
      decide old.Named && decide (∀ t ∈ old.typeList, t.body.DistinctMembers) &&
      ((old.type? "Q").any fun (t : TypeDef) => nestedMembers.all t.has &&
        (new.type? "Q").any fun (u : TypeDef) => decide (u.kind = t.kind) &&
          nestedMembers.map u.misses == [true, false, true, false, true]) &&
      ((old.type? "Gone").isSome && (new.type? "Gone").isNone) &&
      (old.type? "Moved").any fun (t : TypeDef) =>
        (new.type? "Moved").any fun (u : TypeDef) => decide (u.kind ≠ t.kind))
    (by decide +kernel)
  simp only [Bool.and_eq_true, decide_eq_true_eq, Option.any_eq_true, List.all_eq_true, beq_iff_eq,
    Option.isNone_iff_eq_none, Option.isSome_iff_exists] at passed
  obtain ⟨⟨⟨⟨names, distinct⟩, q, asked, declared, v, kept, same, missed⟩, ⟨gone, listed⟩, absent⟩,
    moved, present, w, found, apart⟩ := passed
  have before := Sdl.readKeyed readOld
  have after := Sdl.readKeyed readNew
  have ofName : ∀ {name t}, old.type? name = some t → t ∈ old.typeList ∧ t.name = name :=
    fun typed => ⟨Model.typeMem typed, Model.typeName before typed⟩
  have single : ToldByMember (compare old new ⟨true, "deprecated", "required"⟩).toList q v := by
    obtain ⟨inside, name⟩ := ofName asked
    refine (lossesToldOnce before after names rfl inside (distinct q inside) ?_).2.2 v ?_ same
    all_goals rw [name]
    exacts [rfl, kept]
  have removed : ToldWhole (compare old new ⟨true, "deprecated", "required"⟩).toList gone.name 1 0 := by
    obtain ⟨inside, name⟩ := ofName listed
    refine (lossesToldOnce before after names rfl inside (distinct gone inside) ?_).1 ?_
    all_goals rw [name]
    exacts [rfl, absent]
  have turned : ToldWhole (compare old new ⟨true, "deprecated", "required"⟩).toList moved.name 0 1 := by
    obtain ⟨inside, name⟩ := ofName present
    refine (lossesToldOnce before after names rfl inside (distinct moved inside) ?_).2.1 w ?_ apart
    all_goals rw [name]
    exacts [rfl, found]
  have counts : nestedMembers.map (fun m =>
      (compare old new ⟨true, "deprecated", "required"⟩).toList.countP (tellsLoss q.name m)) =
        (nestedMembers.map v.misses).map fun missed => if missed then 1 else 0 := by
    rw [List.map_map]
    exact List.map_congr_left fun m listed => single.members m (declared m listed)
  rw [missed, (ofName asked).2] at counts
  exact ⟨old, new, readOld, readNew, names, counts, (ofName listed).2 ▸ removed,
    (ofName present).2 ▸ turned⟩

end Compare
end SchemaDrift
