import SchemaDrift.Proofs.Sdl.Declarations
import SchemaDrift.Proofs.Sdl.Mentions

/-! Resolution of references. The built-in scalars that something refers to and nothing declares enter
the model in the order of the first references to them; any other reference to what is not declared
ends the conversion, at the first one. So every name in a model names one of its types. -/
namespace SchemaDrift

structure Model.EveryTypeRef (m : Model) (P : TypeRef → Prop) : Prop where
  fields : m.EveryField fun f => P f.type ∧ ∀ a ∈ f.arguments, P a.type
  inputFields : ∀ t ∈ m.typeList, ∀ fields, t.body = .inputObject fields →
    ∀ e ∈ fields.entries, P e.2.type
  directives : ∀ d ∈ m.directiveList, ∀ a ∈ d.arguments, P a.type

instance (m : Model) (P : TypeRef → Prop) [DecidablePred P] : Decidable (m.EveryTypeRef P) :=
  decidable_of_iff ((m.EveryField fun f => P f.type ∧ ∀ a ∈ f.arguments, P a.type) ∧
      (∀ t ∈ m.typeList, ∀ fields ∈ t.inputFields?, ∀ e ∈ fields.entries, P e.2.type) ∧
      ∀ d ∈ m.directiveList, ∀ a ∈ d.arguments, P a.type)
    ⟨fun ⟨fields, inputs, directives⟩ => ⟨fields, fun t member _ body =>
        inputs t member _ (TypeDef.inputFieldsIff.mpr body), directives⟩,
      fun every => ⟨every.fields, fun t member _ input =>
        every.inputFields t member _ (TypeDef.inputFieldsIff.mp input), every.directives⟩⟩

structure Model.EveryName (m : Model) (P : String → Prop) : Prop where
  cores : m.EveryTypeRef fun t => P t.core
  interfaces : ∀ t ∈ m.typeList, ∀ shape, t.shape? = some shape → ∀ name ∈ shape.interfaces, P name
  members : ∀ t ∈ m.typeList, ∀ names, t.body = .union names → ∀ name ∈ names, P name
  roots : ∀ name ∈ m.roots.names, P name

namespace Sdl

theorem builtTypeRefs {N : String → Prop} {P : Field → Prop} {Q : Argument → Prop} {R : TypeRef → Prop}
    {m : Model} (built : Built N P Q m)
    (fields : ∀ f, P f → R f.type ∧ ∀ a ∈ f.arguments, R a.type) (arguments : ∀ a, Q a → R a.type) :
    m.EveryTypeRef R where
  fields _ member _ shaped e inside := fields _ ((shapeBuilt built member shaped).fields e inside).2
  inputFields _ member _ input e inside := arguments _ (inputBuilt built member input e inside).2
  directives d member a inside := by
    obtain ⟨key, entry⟩ := Model.memDirectiveList.mp member
    exact arguments a ((built.directives _ entry).2.arguments a inside)

section References
variable {m : Model}

def dangling (declared : List String) (r : Reference) : Bool :=
  !declared.contains r.name && !builtInScalars.contains r.name

def isImplicit (declared : List String) (name : String) : Bool :=
  builtInScalars.contains name && !declared.contains name

theorem implicitIff {declared : List String} {name : String} :
    isImplicit declared name = true ↔ name ∈ builtInScalars ∧ name ∉ declared := by
  simp [isImplicit]

def implicitNames (declared : List String) (rs : List Reference) : List String :=
  ((rs.map (·.name)).filter (isImplicit declared)).eraseDups

structure Completed (m n : Model) (names : List String) : Prop where
  types : n.typeList = m.typeList ++ names.map TypeDef.implicitScalar
  keys : n.types.keys = m.types.keys ++ names
  directives : n.directives = m.directives
  roots : n.roots = m.roots

theorem hasTypeKeys (m : Model) (name : String) : m.hasType name = m.types.keys.contains name := by
  rw [Bool.eq_iff_iff, List.contains_iff_mem]
  exact Ordered.containsIff m.types name

theorem completedNone (m : Model) : Completed m m [] :=
  ⟨(List.append_nil _).symm, (List.append_nil _).symm, rfl, rfl⟩

theorem completedCons {name : String} {names : List String} {n : Model} (absent : name ∉ m.types.keys)
    (rest : Completed (m.insertType (.implicitScalar name)) n names) : Completed m n (name :: names) where
  types := by
    have new : m.types.contains name ≠ true := fun known => absent ((Ordered.containsIff ..).mp known)
    have first : (m.insertType (.implicitScalar name)).typeList = m.typeList ++ [.implicitScalar name] :=
      Ordered.valuesInsertNew new _
    rw [rest.types, first, List.append_assoc]
    rfl
  keys := by
    have first : (m.insertType (.implicitScalar name)).types.keys = m.types.keys ++ [name] :=
      (Ordered.keysInsert ..).trans (if_neg absent)
    rw [rest.keys, first, List.append_assoc]
    rfl
  directives := rest.directives
  roots := rest.roots

theorem danglingGrown {name : String} (scalar : name ∈ builtInScalars) (declared : List String) :
    dangling (declared ++ [name]) = dangling declared := by
  funext r
  by_cases same : r.name = name
  · simp [dangling, same, scalar]
  · simp [dangling, same]

theorem implicitNew {r : Reference} {declared : List String} (scalar : r.name ∈ builtInScalars)
    (absent : r.name ∉ declared) (rest : List Reference) :
    implicitNames declared (r :: rest) = r.name :: implicitNames (declared ++ [r.name]) rest := by
  rw [implicitNames, List.map_cons, List.filter_cons, if_pos (implicitIff.mpr ⟨scalar, absent⟩),
    List.eraseDups_cons, List.filter_filter, implicitNames]
  refine congrArg (fun names => r.name :: List.eraseDups names) (List.filter_congr fun name _ => ?_)
  by_cases same : name = r.name
  · simp [isImplicit, same]
  · simp [isImplicit, same]

theorem resolvedAll (rs : List Reference) (m : Model) :
    (∀ r, rs.find? (dangling m.types.keys) = some r →
      rs.foldlM resolveReference m = .error (.unknownType r.name r.user)) ∧
    (rs.find? (dangling m.types.keys) = none →
      ∃ n, rs.foldlM resolveReference m = .ok n ∧ Completed m n (implicitNames m.types.keys rs)) := by
  induction rs generalizing m with
  | nil => exact ⟨fun r found => by contradiction, fun _ => ⟨m, rfl, completedNone m⟩⟩
  | cons r rest ih =>
    rw [List.foldlM_cons, List.find?_cons, resolveReference, hasTypeKeys]
    by_cases known : r.name ∈ m.types.keys
    · have safe : dangling m.types.keys r = false := by simp [dangling, known]
      have names : implicitNames m.types.keys (r :: rest) = implicitNames m.types.keys rest := by
        simp [implicitNames, isImplicit, known]
      rw [safe, names, if_pos (List.contains_iff_mem.mpr known)]
      exact ih m
    · rw [if_neg (by simpa using known)]
      by_cases scalar : r.name ∈ builtInScalars
      · have safe : dangling m.types.keys r = false := by simp [dangling, scalar]
        have keys : (m.insertType (.implicitScalar r.name)).types.keys = m.types.keys ++ [r.name] :=
          (Ordered.keysInsert ..).trans (if_neg known)
        have later := ih (m.insertType (.implicitScalar r.name))
        rw [keys, danglingGrown scalar] at later
        rw [safe, if_pos (List.contains_iff_mem.mpr scalar), implicitNew scalar known]
        refine ⟨later.1, fun safe => ?_⟩
        obtain ⟨n, ok, completed⟩ := later.2 safe
        exact ⟨n, ok, completedCons known completed⟩
      · have lost : dangling m.types.keys r = true := by simp [dangling, scalar, known]
        rw [lost, if_neg (by simpa using scalar)]
        refine ⟨fun s found => ?_, fun safe => by contradiction⟩
        cases found
        rfl

theorem referencesCompleted {n : Model} {names : List String} (completed : Completed m n names) :
    references n = references m := by
  have scalars : (names.map TypeDef.implicitScalar).flatMap typeReferences = [] := by
    simp [TypeDef.implicitScalar, typeReferences]
  rw [references, completed.types, List.flatMap_append, scalars, List.append_nil, Model.directiveList,
    completed.directives, completed.roots]
  rfl

section Names
variable {P : String → Prop}

theorem mentionNamed (every : m.EveryName P) {p : List Nat} {r : Reference} (mention : Mention m p r) :
    P r.name := by
  have entry {α : Type} {fields : Ordered α} {i : Nat} {x : α} (found : fields.values[i]? = some x) :
      ∃ e ∈ fields.entries, e.2 = x := List.mem_map.mp (List.mem_of_getElem? found)
  rcases mention with ⟨member, inside⟩ | ⟨member, ⟨declared⟩⟩ | ⟨named⟩
  · have member := List.mem_of_getElem? member
    rcases inside with ⟨shaped, ⟨listed⟩ | ⟨field⟩ | ⟨field, ⟨declared⟩⟩⟩ | ⟨body, listed⟩ | ⟨body, field⟩
    · exact every.interfaces _ member _ shaped _ (List.mem_of_getElem? listed)
    · obtain ⟨e, inside, rfl⟩ := entry field
      exact (every.cores.fields _ member _ shaped e inside).1
    · obtain ⟨e, inside, rfl⟩ := entry field
      exact (every.cores.fields _ member _ shaped e inside).2 _ (List.mem_of_getElem? declared)
    · exact every.members _ member _ body _ (List.mem_of_getElem? listed)
    · obtain ⟨e, inside, rfl⟩ := entry field
      exact every.cores.inputFields _ member _ body e inside
  · exact every.cores.directives _ (List.mem_of_getElem? member) _ (List.mem_of_getElem? declared)
  · exact every.roots _ (List.mem_of_getElem? named)

theorem typesOfMentions (types : ∀ t ∈ m.typeList, ∀ p r, TypeMention t p r → P r.name)
    (directives : ∀ d ∈ m.directiveList, ∀ a ∈ d.arguments, P a.type.core) :
    m.EveryTypeRef fun t => P t.core := by
  have value {α : Type} {fields : Ordered α} {e : String × α} (inside : e ∈ fields.entries) :
      ∃ i : Nat, fields.values[i]? = some e.2 := List.getElem?_of_mem (List.mem_map_of_mem inside)
  refine ⟨?fields, ?inputFields, directives⟩
  case fields =>
    intro t member shape shaped e inside
    obtain ⟨i, found⟩ := value inside
    refine ⟨types t member _ _ (.shape shaped (.field found)), fun a declared => ?_⟩
    obtain ⟨j, there⟩ := List.getElem?_of_mem declared
    exact types t member _ _ (.shape shaped (.argument found (.type there)))
  case inputFields =>
    intro t member fields body e inside
    obtain ⟨i, found⟩ := value inside
    exact types t member _ _ (.inputField body found)

theorem namesOfMentions (all : ∀ p r, Mention m p r → P r.name) : m.EveryName P := by
  have types : ∀ t ∈ m.typeList, ∀ p r, TypeMention t p r → P r.name := by
    intro t member p r inside
    obtain ⟨i, found⟩ := List.getElem?_of_mem member
    exact all _ r (.type found inside)
  have directives : ∀ d ∈ m.directiveList, ∀ a ∈ d.arguments, P a.type.core := by
    intro d member a declared
    obtain ⟨i, found⟩ := List.getElem?_of_mem member
    obtain ⟨j, there⟩ := List.getElem?_of_mem declared
    exact all _ _ (.directive found (.type there))
  refine ⟨typesOfMentions types directives, ?interfaces, ?members, ?roots⟩
  case interfaces =>
    intro t member shape shaped name inside
    obtain ⟨i, found⟩ := List.getElem?_of_mem inside
    exact types t member _ _ (.shape shaped (.interface found))
  case members =>
    intro t member names body name inside
    obtain ⟨i, found⟩ := List.getElem?_of_mem inside
    exact types t member _ _ (.member body found)
  case roots =>
    intro name inside
    obtain ⟨i, found⟩ := List.getElem?_of_mem inside
    exact all _ _ (.root found)

theorem namesMentioned : m.EveryName P ↔ ∀ p r, Mention m p r → P r.name :=
  ⟨fun every _ _ mention => mentionNamed every mention, namesOfMentions⟩

end Names

structure Implicit (m : Model) (declared scalars : List String) : Prop where
  each : ∀ name, name ∈ scalars ↔
    name ∈ builtInScalars ∧ name ∉ declared ∧ ∃ p user, Mention m p ⟨name, user⟩
  once : scalars.Nodup
  ordered : scalars.Pairwise fun name later =>
    ∃ p user, Mention m p ⟨name, user⟩ ∧ ∀ q other, Mention m q ⟨later, other⟩ → p < q

theorem implicitMentioned (m : Model) (declared : List String) :
    Implicit m declared (implicitNames declared (references m)) := by
  obtain ⟨placed, listed, sorted, every⟩ := mentionsInOrder m
  let named := (placed.map fun e => (e.1, e.2.name)).filter fun e => isImplicit declared e.2
  have names : (named.map (·.2)).eraseDups = implicitNames declared (references m) := by
    simp [named, implicitNames, ← listed, List.filter_map, Function.comp_def]
  have member (p : List Nat) (name : String) :
      (p, name) ∈ named ↔ (∃ user, Mention m p ⟨name, user⟩) ∧ isImplicit declared name = true := by
    simp only [named, every, List.mem_filter, List.mem_map, Prod.mk.injEq, Prod.exists]
    refine and_congr_left fun _ => ⟨?_, fun ⟨user, inside⟩ => ⟨p, ⟨name, user⟩, inside, rfl, rfl⟩⟩
    rintro ⟨_, r, inside, rfl, rfl⟩
    exact ⟨r.user, inside⟩
  have each (name : String) : name ∈ implicitNames declared (references m) ↔
      (∃ p user, Mention m p ⟨name, user⟩) ∧ isImplicit declared name = true := by
    rw [← names, List.mem_eraseDups, List.mem_map]
    simp only [Prod.exists, exists_eq_right, member, exists_and_right]
  constructor
  case each =>
    intro name
    rw [each, implicitIff, and_comm, and_assoc]
  case once => exact Ordered.eraseDupsNodup _
  case ordered =>
    have inOrder : named.Pairwise fun a b => a.1 < b.1 := by
      refine List.Pairwise.filter _ ?_
      rwa [List.pairwise_map]
    have first := firstsInOrder named inOrder
    rw [names] at first
    refine first.imp_of_mem fun {name later} _ there ⟨p, inside, before⟩ => ?_
    obtain ⟨user, mention⟩ := ((member p name).mp inside).1
    refine ⟨p, user, mention, fun q other found => before q ?_⟩
    exact (member q later).mpr ⟨⟨other, found⟩, ((each later).mp there).2⟩

end References

def declaredNames (document : Document) : List String := (typeNodes document).map (·.name)

theorem convertedKeys {document : Document} {m : Model} (ok : converted document = .ok m) :
    m.types.keys = declaredNames document := by
  have keyed := builtKeyed (convertedBuilt (fun d _ => definitionUnstacked d) m ok)
  have names : m.types.keys = m.typeList.map (·.name) := by
    rw [Model.typeList, Ordered.values, List.map_map]
    exact List.map_congr_left keyed.types
  have outlines := congrArg (List.map (·.1)) (convertedOutlines document m ok)
  rw [Model.outlines, List.map_map, List.map_map] at outlines
  exact names.trans outlines

theorem convertedResolves {document : Document} {extended : Model}
    (ok : converted document = .ok extended) :
    (∀ r, (references extended).find? (dangling (declaredNames document)) = some r →
      model document = .error (.unknownType r.name r.user)) ∧
    ((references extended).find? (dangling (declaredNames document)) = none → ∃ m,
      model document = .ok m ∧
        Completed extended m (implicitNames (declaredNames document) (references extended))) := by
  rw [modelConverted, ok, ← convertedKeys ok]
  exact resolvedAll (references extended) extended

theorem knownCompleted {extended m : Model} {names : List String} (keys : extended.types.keys = names)
    (safe : (references extended).find? (dangling names) = none)
    (completed : Completed extended m (implicitNames names (references extended))) :
    ∀ r ∈ references m, m.hasType r.name = true := by
  intro r inside
  rw [referencesCompleted completed] at inside
  have passed := List.find?_eq_none.mp safe r inside
  rw [hasTypeKeys, completed.keys, keys, List.contains_iff_mem]
  by_cases declared : r.name ∈ names
  · exact List.mem_append_left _ declared
  · have scalar : r.name ∈ builtInScalars := by simpa [dangling, declared] using passed
    refine List.mem_append_right _ (List.mem_eraseDups.mpr (List.mem_filter.mpr ?_))
    exact ⟨List.mem_map_of_mem inside, implicitIff.mpr ⟨scalar, declared⟩⟩

/- A model in which every name is resolved: its types are those of the document, in its order, then the
built-in scalars that it mentions without declaring them. -/
structure Resolved (document : Document) (m : Model) : Prop where
  keyed : m.Keyed
  unstacked : m.EveryTypeRef TypeRef.Unstacked
  names : m.EveryName fun name => m.hasType name = true
  types : ∃ declared scalars, declared.map TypeDef.outline = (typeNodes document).map TypeNode.outline ∧
    m.typeList = declared ++ scalars.map TypeDef.implicitScalar ∧
    Implicit m (declaredNames document) scalars

theorem modelResolved {document : Document} {m : Model} (ok : model document = .ok m) :
    Resolved document m := by
  cases conversion : converted document with
  | error e =>
    rw [modelConverted, conversion] at ok
    contradiction
  | ok extended =>
    obtain ⟨fails, succeeds⟩ := convertedResolves conversion
    cases first : (references extended).find? (dangling (declaredNames document)) with
    | some r =>
      rw [fails r first] at ok
      contradiction
    | none =>
      obtain ⟨n, same, completed⟩ := succeeds first
      cases same.symm.trans ok
      have built := modelBuilt (fun _ _ => trivial) (fun d _ => definitionUnstacked d) m ok
      refine ⟨builtKeyed built, builtTypeRefs built (fun _ kept => kept) (fun _ kept => kept),
        namesMentioned.mpr fun p r mention => ?_, ?_⟩
      · exact knownCompleted (convertedKeys conversion) first completed r
          ((orderedMem (mentionsInOrder m)).mpr ⟨p, mention⟩)
      · refine ⟨_, _, convertedOutlines document extended conversion, completed.types, ?_⟩
        rw [← referencesCompleted completed]
        exact implicitMentioned m (declaredNames document)

theorem modelsResolved (document : Document) :
    (∀ m, model document = .ok m → Resolved document m) ∧
    ∀ extended, converted document = .ok extended → ∀ e, model document = .error e ↔
      ∃ p r, Mention extended p r ∧ dangling (declaredNames document) r = true ∧
        (∀ q s, Mention extended q s → dangling (declaredNames document) s = true → p ≤ q) ∧
        e = .unknownType r.name r.user := by
  refine ⟨fun m => modelResolved, fun extended conversion e => ?_⟩
  obtain ⟨fails, succeeds⟩ := convertedResolves conversion
  have ordered := mentionsInOrder extended
  cases first : (references extended).find? (dangling (declaredNames document)) with
  | some r =>
    obtain ⟨p, mention, lost, least⟩ := (orderedFind ordered).mp first
    rw [fails r first]
    constructor
    · rintro ⟨⟩
      exact ⟨p, r, mention, lost, least, rfl⟩
    · rintro ⟨q, s, other, astray, before, rfl⟩
      cases first.symm.trans ((orderedFind ordered).mpr ⟨q, other, astray, before⟩)
      rfl
  | none =>
    obtain ⟨n, ok, _⟩ := succeeds first
    rw [ok]
    refine iff_of_false (fun same => by cases same) fun ⟨p, r, mention, lost, _⟩ => ?_
    exact List.find?_eq_none.mp first r ((orderedMem ordered).mpr ⟨p, mention⟩) lost

def mixedDocument : Document :=
  [.extension ⟨⟨1, 1⟩, "Query", [], .object [] [⟨⟨1, 9⟩, "b", [⟨⟨1, 9⟩, "y", .named "Float", none, []⟩],
      .nonNull (.named "Boolean"), []⟩]⟩,
    .type ⟨⟨2, 1⟩, "Query", [], .object [] [⟨⟨2, 9⟩, "a", [⟨⟨2, 9⟩, "x", .list (.named "Int"), none, []⟩],
      .named "ID", []⟩]⟩,
    .type ⟨⟨3, 1⟩, "Boolean", [], .scalar⟩,
    .schema ⟨some "Query", none, none⟩ []]

def danglingDocument : Document :=
  [.type ⟨⟨1, 1⟩, "Query", [], .object [] [⟨⟨1, 9⟩, "a", [⟨⟨1, 9⟩, "x", .named "Missing", none, []⟩],
    .named "ID", []⟩]⟩]

theorem modelsResolvedMixed :
    (∃ m, model mixedDocument = .ok m ∧ Resolved mixedDocument m ∧ m.typeList.map TypeDef.outline =
      [("Query", .object, some ⟨2, 1⟩), ("Boolean", .scalar, some ⟨3, 1⟩), ("ID", .scalar, none),
        ("Int", .scalar, none), ("Float", .scalar, none)]) ∧
    model danglingDocument = .error (.unknownType "Missing" "Query.a(x:)") := by
  obtain ⟨m, ok, outlines⟩ := okOfTest (model mixedDocument) (fun m => decide (m.typeList.map TypeDef.outline =
    [("Query", .object, some ⟨2, 1⟩), ("Boolean", .scalar, some ⟨3, 1⟩), ("ID", .scalar, none),
      ("Int", .scalar, none), ("Float", .scalar, none)])) (by decide +kernel)
  obtain ⟨extended, conversion, first⟩ := okOfTest (converted danglingDocument) (fun extended =>
    decide ((references extended).find? (dangling ["Query"]) = some ⟨"Missing", "Query.a(x:)"⟩))
    (by decide +kernel)
  obtain ⟨p, mention, lost, least⟩ := (orderedFind (mentionsInOrder extended)).mp (of_decide_eq_true first)
  exact ⟨⟨m, ok, (modelsResolved mixedDocument).1 m ok, of_decide_eq_true outlines⟩,
    ((modelsResolved danglingDocument).2 extended conversion _).mpr ⟨p, _, mention, lost, least, rfl⟩⟩

end Sdl
end SchemaDrift
