import SchemaDrift.Proofs.Compare.Passes
import SchemaDrift.Proofs.Schema.Names

/-! What each pass may say of a pair of types, and which type a change is about. Names have neither
dots nor ticks, so the type is read off the resource, or off the message where the resource is
without it: changes of arguments that both versions have are named by field and argument alone. -/
namespace SchemaDrift.Compare
variable {options : Options} {o n : TypeDef} {c : Change}

inductive FieldTold (options : Options) (o n : TypeDef) : Change → Prop
  | gone {before after : ObjectShape} {name : String} {f : Field}
    (shapes : shapes? o n = some (before, after)) (member : (name, f) ∈ before.fields.entries)
    (absent : after.fields.get? name = none) :
    FieldTold options o n
      (fieldRemoved (qualified o.name name) f.location (options.isDeprecated f.directives))
  | retyped {before after : ObjectShape} {name : String} {f g : Field}
    (shapes : shapes? o n = some (before, after)) (member : (name, f) ∈ before.fields.entries)
    (found : after.fields.get? name = some g) :
    FieldTold options o n (fieldRetyped (qualified o.name name) f.type g.type g.location
      (options.isDeprecated f.directives))

theorem fieldTold (inside : c ∈ fieldsChanged options o n) : FieldTold options o n c := by
  unfold fieldsChanged onShapes at inside
  split at inside
  · rename_i before after shapes
    obtain ⟨⟨name, f⟩, member, here⟩ := List.mem_flatMap.mp inside
    simp only [fieldChange] at here
    split at here
    · rename_i absent
      rw [List.mem_singleton.mp here]
      exact .gone shapes member absent
    · rename_i g found
      split at here
      · contradiction
      · rw [List.mem_singleton.mp here]
        exact .retyped shapes member found
  · contradiction

inductive ArgumentTold (options : Options) (path name : String) (f g : Field) : Change → Prop
  | gone {a : Argument} (declared : a ∈ f.arguments)
    (absent : argumentNamed? g.arguments a.name = none) :
    ArgumentTold options path name f g (argumentRemoved options path name a g)
  | retyped {a b : Argument} (declared : a ∈ f.arguments)
    (kept : argumentNamed? g.arguments a.name = some b) :
    ArgumentTold options path name f g (argumentRetyped options path name a b)
  | moved {a b : Argument} (declared : a ∈ f.arguments)
    (kept : argumentNamed? g.arguments a.name = some b) :
    ArgumentTold options path name f g (defaultChanged options path name a b)
  | added {b : Argument} (declared : b ∈ g.arguments) :
    ArgumentTold options path name f g (argumentAdded path b)

theorem argumentTold {owner : String} {fields : Ordered Field} {name : String} {f : Field}
    (inside : c ∈ fieldArgumentChanges options owner fields (name, f)) :
    ∃ g, fields.get? name = some g ∧ ArgumentTold options (qualified owner name) name f g c := by
  simp only [fieldArgumentChanges] at inside
  split at inside
  · contradiction
  · rename_i g found
    refine ⟨g, found, ?_⟩
    rcases List.mem_append.mp inside with passed | added
    · obtain ⟨a, declared, here⟩ := List.mem_flatMap.mp passed
      unfold argumentChange at here
      split at here
      · rename_i absent
        rw [List.mem_singleton.mp here]
        exact .gone declared absent
      · rename_i b kept
        split at here
        · rw [List.mem_singleton.mp here]
          exact .retyped declared kept
        · split at here
          · contradiction
          · rw [List.mem_singleton.mp here]
            exact .moved declared kept
    · obtain ⟨b, new, rfl⟩ := List.mem_map.mp added
      exact .added (List.mem_filter.mp new).1

theorem argumentsTold (inside : c ∈ argumentsChanged options o n) :
    ∃ before after name f g, shapes? o n = some (before, after) ∧
      (name, f) ∈ before.fields.entries ∧ after.fields.get? name = some g ∧
      ArgumentTold options (qualified o.name name) name f g c := by
  unfold argumentsChanged onShapes at inside
  split at inside
  · rename_i before after shapes
    obtain ⟨⟨name, f⟩, member, here⟩ := List.mem_flatMap.mp inside
    obtain ⟨g, found, told⟩ := argumentTold here
    exact ⟨before, after, name, f, g, shapes, member, found, told⟩
  · contradiction

theorem valueGoneTold (inside : c ∈ valuesRemoved options o n) :
    ∃ v before, o.body = .enum before ∧ v ∈ before ∧ c = valueRemoved options o n v := by
  unfold valuesRemoved onEnums at inside
  split at inside
  · rename_i before after old _
    obtain ⟨v, member, rfl⟩ := List.mem_map.mp inside
    exact ⟨v, before, old, (List.mem_filter.mp member).1, rfl⟩
  · contradiction

theorem valueAddedTold (inside : c ∈ valuesAdded o n) :
    ∃ v after, n.body = .enum after ∧ v ∈ after ∧ c = valueAdded n v := by
  unfold valuesAdded onEnums at inside
  split at inside
  · rename_i before after _ new
    obtain ⟨v, member, rfl⟩ := List.mem_map.mp inside
    exact ⟨v, after, new, (List.mem_filter.mp member).1, rfl⟩
  · contradiction

inductive MemberTold (o n : TypeDef) : Change → Prop
  | gone {before : List String} {m : String} (old : o.body = .union before) (listed : m ∈ before) :
    MemberTold o n (memberRemoved o n m)
  | added {after : List String} {m : String} (new : n.body = .union after) (listed : m ∈ after) :
    MemberTold o n (memberAdded n m)

theorem memberTold (inside : c ∈ membersChanged o n) : MemberTold o n c := by
  unfold membersChanged at inside
  split at inside
  · rename_i before after old new
    rcases List.mem_append.mp inside with gone | added
    · obtain ⟨m, missing, rfl⟩ := List.mem_map.mp gone
      exact .gone old (List.mem_filter.mp missing).1
    · obtain ⟨m, missing, rfl⟩ := List.mem_map.mp added
      exact .added new (List.mem_filter.mp missing).1
  · contradiction

inductive InterfaceTold (o n : TypeDef) : Change → Prop
  | gone {before : ObjectShape} {i : String} (shaped : o.shape? = some before)
    (listed : i ∈ before.interfaces) : InterfaceTold o n (interfaceRemoved o n i)
  | added {after : ObjectShape} {i : String} (shaped : n.shape? = some after)
    (listed : i ∈ after.interfaces) : InterfaceTold o n (interfaceAdded n i)

theorem interfaceTold (inside : c ∈ interfacesChanged o n) : InterfaceTold o n c := by
  unfold interfacesChanged onShapes at inside
  split at inside
  · rename_i before after shapes
    rcases List.mem_append.mp inside with gone | added
    · obtain ⟨i, missing, rfl⟩ := List.mem_map.mp gone
      exact .gone (shapesOfPair shapes).1 (List.mem_filter.mp missing).1
    · obtain ⟨i, missing, rfl⟩ := List.mem_map.mp added
      exact .added (shapesOfPair shapes).2 (List.mem_filter.mp missing).1
  · contradiction

inductive InputFieldTold (options : Options) (o n : TypeDef) : Change → Prop
  | gone {before after : Ordered Argument} {name : String} {f : Argument}
    (old : o.body = .inputObject before) (new : n.body = .inputObject after)
    (member : (name, f) ∈ before.entries) (absent : after.get? name = none) :
    InputFieldTold options o n
      (fieldRemoved (qualified o.name name) f.location (options.isDeprecated f.directives))
  | retyped {before after : Ordered Argument} {name : String} {f g : Argument}
    (old : o.body = .inputObject before) (new : n.body = .inputObject after)
    (member : (name, f) ∈ before.entries) (found : after.get? name = some g) :
    InputFieldTold options o n (fieldRetyped (qualified o.name name) f.type g.type g.location
      (options.isDeprecated f.directives))
  | added (e : String × Argument) {after : Ordered Argument} (new : n.body = .inputObject after)
    (member : e ∈ after.entries) : InputFieldTold options o n (inputFieldAdded n.name e)

theorem inputFieldTold (inside : c ∈ inputFieldsChanged options o n) :
    InputFieldTold options o n c := by
  unfold inputFieldsChanged at inside
  split at inside
  · rename_i before after old new
    rcases List.mem_append.mp inside with kept | added
    · obtain ⟨⟨name, f⟩, member, here⟩ := List.mem_flatMap.mp kept
      simp only [inputFieldChange] at here
      split at here
      · rename_i absent
        rw [List.mem_singleton.mp here]
        exact .gone old new member absent
      · rename_i g found
        split at here
        · contradiction
        · rw [List.mem_singleton.mp here]
          exact .retyped old new member found
    · obtain ⟨e, member, rfl⟩ := List.mem_map.mp added
      exact .added e new (List.mem_filter.mp member).1
  · contradiction

inductive DirectiveTold (options : Options) (new : Model) (d : DirectiveDef) : Change → Prop
  | gone : DirectiveTold options new d (directiveRemoved ("@" ++ d.name))
  | argumentGone {e : DirectiveDef} {a : Argument} (found : new.directive? d.name = some e)
    (declared : a ∈ d.arguments) :
    DirectiveTold options new d (directiveArgumentRemoved options ("@" ++ d.name) e a)
  | argumentAdded {e : DirectiveDef} {b : Argument} (found : new.directive? d.name = some e)
    (declared : b ∈ e.arguments) :
    DirectiveTold options new d (directiveArgumentAdded ("@" ++ d.name) b)
  | siteGone {e : DirectiveDef} {site : String} (found : new.directive? d.name = some e)
    (listed : site ∈ d.sites) :
    DirectiveTold options new d (siteRemoved ("@" ++ d.name) e site)

theorem directiveTold {old new : Model} (inside : c ∈ directivePass old new options) :
    ∃ d ∈ old.directiveList, DirectiveTold options new d c := by
  unfold directivePass at inside
  split at inside
  · obtain ⟨d, member, here⟩ := List.mem_flatMap.mp inside
    refine ⟨d, member, ?_⟩
    simp only [directiveChange] at here
    split at here
    · contradiction
    · split at here
      · rw [List.mem_singleton.mp here]
        exact .gone
      · rename_i e found
        simp only [directivePairChanges, List.mem_append, List.mem_map, List.mem_filter] at here
        rcases here with (⟨a, ⟨declared, _⟩, rfl⟩ | ⟨b, ⟨declared, _⟩, rfl⟩) | ⟨site, ⟨listed, _⟩, rfl⟩
        · exact .argumentGone found declared
        · exact .argumentAdded found declared
        · exact .siteGone found listed
  · contradiction

/- What a change of a category tells of, and so where it names the type. -/
inductive Subject where
  | type
  | interface
  | member
  | argument
  | newArgument
  | directive
  deriving DecidableEq, Repr

def subject : Category → Subject
  | .typeRemoved | .typeChangedKind => .type
  | .interfaceRemovedFromObject | .interfaceAddedToObject => .interface
  | .argRemoved | .argChangedKind | .argBecameRequired | .argDefaultValueChange => .argument
  | .requiredArgAdded | .optionalArgAdded => .newArgument
  | .directiveRemoved | .directiveArgRemoved | .requiredDirectiveArgAdded
  | .directiveLocationRemoved => .directive
  | _ => .member

def AboutMember (type : String) (c : Change) : Prop :=
  match subject c.category with
  | .type => False
  | .interface => c.resource = type
  | .member | .newArgument => ∃ member, c.resource = qualified type member
  | .argument => ∃ rest, c.message = "`" ++ qualified type rest
  | .directive => False

def AboutWhole (type : String) (c : Change) : Prop := subject c.category = .type ∧ c.resource = type

def About (type : String) (c : Change) : Prop := AboutWhole type c ∨ AboutMember type c

def AboutArgument (type field : String) (c : Change) : Prop :=
  match subject c.category with
  | .argument => ∃ rest, c.message = inTicks (qualified type field) ++ rest
  | .newArgument => c.resource = qualified type field
  | _ => False

section Names

theorem qualifiedSame {a b m n : String} (left : IsName a) (right : IsName b)
    (same : qualified a m = qualified b n) : a = b ∧ m = n := by
  have texts := congrArg String.toList same
  simp only [qualified, String.append_assoc, String.toList_append] at texts
  obtain ⟨owners, members⟩ := sameUpToMark (markNotInName left rfl) (markNotInName right rfl) texts
  exact ⟨String.toList_inj.mp owners, String.toList_inj.mp members⟩

theorem qualifiedMember {owner m n : String} (same : qualified owner m = qualified owner n) :
    m = n := by
  simpa [qualified, String.append_assoc] using same

theorem pathSame {a b f g x y : String} (owner : IsName a) (other : IsName b) (field : IsName f)
    (sibling : IsName g)
    (same : inTicks (qualified a f) ++ x = inTicks (qualified b g) ++ y) : a = b ∧ f = g := by
  have after : qualified a (f ++ "`" ++ x) = qualified b (g ++ "`" ++ y) := by
    simpa [inTicks, qualified, String.append_assoc] using same
  obtain ⟨owners, rest⟩ := qualifiedSame owner other after
  have texts := congrArg String.toList rest
  simp only [String.append_assoc, String.toList_append] at texts
  exact ⟨owners, String.toList_inj.mp
    (sameUpToMark (markNotInName field rfl) (markNotInName sibling rfl) texts).1⟩

theorem aboutSame {a b : String} (left : IsName a) (right : IsName b) (first : About a c)
    (second : About b c) : a = b := by
  unfold About AboutWhole AboutMember at first second
  cases kind : subject c.category <;>
    simp only [kind, reduceCtorEq, true_and, false_and, false_or, or_false] at first second
  case type => exact first.symm.trans second
  case interface => exact first.symm.trans second
  case argument =>
    obtain ⟨m, told⟩ := first
    obtain ⟨n, again⟩ := second
    have paths := (String.append_right_inj _).mp (told.symm.trans again)
    exact (qualifiedSame left right paths).1
  all_goals
    obtain ⟨m, told⟩ := first
    obtain ⟨n, again⟩ := second
    exact (qualifiedSame left right (told.symm.trans again)).1

end Names

theorem retypedSubject (path field : String) (a b : Argument) :
    subject (argumentRetyped options path field a b).category = .argument := by
  unfold argumentRetyped
  split <;> rfl

theorem addedSubject (path : String) (b : Argument) :
    subject (argumentAdded path b).category = .newArgument := by
  unfold argumentAdded
  split <;> rfl

theorem argumentSubject {path name : String} {f g : Field}
    (told : ArgumentTold options path name f g c) :
    subject c.category = .argument ∨ subject c.category = .newArgument := by
  cases told with
  | gone => exact .inl rfl
  | retyped => exact .inl (retypedSubject ..)
  | moved => exact .inl rfl
  | added => exact .inr (addedSubject ..)

theorem argumentAbout {owner name : String} {f g : Field}
    (told : ArgumentTold options (qualified owner name) name f g c) : AboutArgument owner name c := by
  have path : ∀ a tail, ∃ rest, argumentText (qualified owner name) a ++ tail =
      inTicks (qualified owner name) ++ rest := by
    intro a tail
    exact ⟨" arg " ++ inTicks a ++ tail, by simp only [argumentText, String.append_assoc]⟩
  unfold AboutArgument
  cases told with
  | gone => exact path _ _
  | retyped =>
    rw [retypedSubject]
    simp only [argumentRetyped, String.append_assoc]
    exact path _ _
  | moved => exact path _ _
  | added =>
    rw [addedSubject]
    rfl

theorem memberOfArgument {owner field : String} (about : AboutArgument owner field c) :
    AboutMember owner c := by
  unfold AboutArgument at about
  unfold AboutMember
  split at about <;> rename_i kind
  · obtain ⟨rest, told⟩ := about
    rw [kind]
    exact ⟨field ++ "`" ++ rest, by simpa [inTicks, qualified, String.append_assoc] using told⟩
  · rw [kind]
    exact ⟨field, about⟩
  · contradiction

theorem argumentOwner {owner field sibling : String} (type : IsName owner) (left : IsName field)
    (right : IsName sibling) (first : AboutArgument owner field c)
    (second : AboutArgument owner sibling c) : field = sibling := by
  unfold AboutArgument at first second
  split at first <;> rename_i kind
  · rw [kind] at second
    obtain ⟨rest, told⟩ := first
    obtain ⟨tail, again⟩ := second
    exact (pathSame type type left right (told.symm.trans again)).2
  · rw [kind] at second
    exact qualifiedMember (first.symm.trans second)
  · contradiction

theorem inputAddedSubject (owner : String) (e : String × Argument) :
    subject (inputFieldAdded owner e).category = .member := by
  cases required : e.2.isRequired <;> simp [inputFieldAdded, required, subject]

theorem memberAbout (name : n.name = o.name) (same : o.kind = n.kind)
    (inside : c ∈ pairReport options o n) : AboutMember o.name c := by
  obtain ⟨pass, listed, told⟩ := List.mem_flatMap.mp inside
  rcases pairPassCases listed with (rfl | rfl | rfl | rfl) | rfl | rfl | rfl | rfl
  · rw [sameKindSilent options same] at told
    contradiction
  · cases fieldTold told <;> exact ⟨_, rfl⟩
  · obtain ⟨_, _, _, _, _, _, _, _, change⟩ := argumentsTold told
    exact memberOfArgument (argumentAbout change)
  · obtain ⟨_, _, _, _, rfl⟩ := valueGoneTold told
    exact ⟨_, rfl⟩
  · cases memberTold told with
    | gone => exact ⟨_, rfl⟩
    | @added _ m => exact ⟨m, name ▸ rfl⟩
  · obtain ⟨v, _, _, _, rfl⟩ := valueAddedTold told
    exact ⟨v.name, name ▸ rfl⟩
  · cases interfaceTold told with
    | gone => exact rfl
    | added => exact name
  · cases inputFieldTold told with
    | gone => exact ⟨_, rfl⟩
    | retyped => exact ⟨_, rfl⟩
    | added e =>
      unfold AboutMember
      rw [inputAddedSubject]
      exact ⟨e.1, name ▸ rfl⟩

theorem kindToldAlone (apart : o.kind ≠ n.kind) (inside : c ∈ pairReport options o n) :
    c = kindChange options o n := by
  rw [reportOfKinds (.inr apart)] at inside
  unfold kindChanged at inside
  split at inside
  · exact List.mem_singleton.mp inside
  · contradiction

theorem pairAbout (name : n.name = o.name) (inside : c ∈ pairReport options o n) : About o.name c := by
  by_cases same : o.kind = n.kind
  · exact .inr (memberAbout name same inside)
  · rw [kindToldAlone same inside]
    exact .inl ⟨rfl, rfl⟩

theorem argumentSource {owner field : String} (about : AboutArgument owner field c)
    (inside : c ∈ pairReport options o n) : c ∈ argumentsChanged options o n := by
  obtain ⟨pass, listed, told⟩ := List.mem_flatMap.mp inside
  rcases pairPassCases listed with (rfl | rfl | rfl | rfl) | rfl | rfl | rfl | rfl
  · unfold kindChanged at told
    split at told
    · rw [List.mem_singleton.mp told] at about
      exact False.elim about
    · contradiction
  · cases fieldTold told <;> exact False.elim about
  · exact told
  · obtain ⟨_, _, _, _, rfl⟩ := valueGoneTold told
    exact False.elim about
  · cases memberTold told <;> exact False.elim about
  · obtain ⟨v, _, _, _, rfl⟩ := valueAddedTold told
    exact False.elim about
  · cases interfaceTold told <;> exact False.elim about
  · cases inputFieldTold told with
    | added e =>
      unfold AboutArgument at about
      rw [inputAddedSubject] at about
      contradiction
    | _ => exact False.elim about

theorem directiveSubject {old new : Model} (inside : c ∈ directivePass old new options) :
    subject c.category = .directive := by
  obtain ⟨_, _, told⟩ := directiveTold inside
  cases told <;> rfl

theorem directiveAbout {old new : Model} {type : String}
    (inside : c ∈ directivePass old new options) : ¬ About type c := by
  simp [About, AboutWhole, AboutMember, directiveSubject inside]

section Models
variable {old new : Model}

theorem toldPerm : (compare old new options).toList.Perm (changes old new options) :=
  List.filter_append_perm _ _

theorem reportAbout (after : new.Keyed) {key : String} {t : TypeDef} (name : key = t.name)
    (inside : c ∈ typeReport options t (new.type? key)) : About t.name c := by
  cases found : new.type? key with
  | some u =>
    rw [found, typeReportOfPair] at inside
    exact pairAbout ((Model.typeName after found).trans name) inside
  | none =>
    rw [found, typeReportOfNone] at inside
    split at inside
    · contradiction
    · rw [List.mem_singleton.mp inside]
      exact .inl ⟨rfl, rfl⟩

/- Two types never share a change, so all that is said of a type is its own report. -/
theorem ownReport (before : old.Keyed) (after : new.Keyed) (names : old.Named) {t : TypeDef}
    (member : t ∈ old.typeList) (told : c ∈ (compare old new options).toList)
    (about : About t.name c) : c ∈ typeReport options t (new.type? t.name) := by
  have all := (changesByType before options new).mem_iff.mp (toldPerm.mem_iff.mp told)
  rcases List.mem_append.mp all with types | directives
  · obtain ⟨e, entry, inside⟩ := List.mem_flatMap.mp types
    have key := before.types e entry
    have other : e.2 ∈ old.typeList := Model.memTypeList.mpr ⟨e.1, entry⟩
    have same := aboutSame (Model.typeNamed names other) (Model.typeNamed names member)
      (reportAbout after key inside) about
    have itself : e.2 = t := by
      have found := Model.typeOfMem before other
      rw [same, Model.typeOfMem before member] at found
      exact (Option.some.inj found).symm
    rwa [key, itself] at inside
  · exact absurd about (directiveAbout directives)

end Models

end SchemaDrift.Compare
