import SchemaDrift.Proofs.Sdl.Inlining

/-! Members as written and as held. In an accepted document no extension repeats a field, an input field
or an enum value, and what a type holds is what its definition and its extensions write, one after the
other. Where a definition repeats no name either, every written member is held, once and under its
name. -/
namespace SchemaDrift.Sdl

section Written

def Members.memberNames : Members → List String
  | .object _ fields => fields.map (·.name)
  | .interface _ fields => fields.map (·.name)
  | .enum values => values.map (·.name)
  | .inputObject fields => fields.map (·.name)
  | _ => []

/- The body holds the members converted. Interfaces and union members are left open. -/
def Members.Convert (owner : String) : Members → TypeBody → Prop
  | .scalar, .scalar => True
  | .object _ nodes, .object shape => fieldsOf owner nodes = .ok shape.fields
  | .interface _ nodes, .interface shape => fieldsOf owner nodes = .ok shape.fields
  | .union _, .union _ => True
  | .enum nodes, .enum values => nodes.mapM (enumValueOf owner) = .ok values
  | .inputObject nodes, .inputObject fields => inputFieldsOf owner nodes = .ok fields
  | _, _ => False

theorem bodyConverted (owner : String) (members : Members) :
    Gives (bodyOf owner members) (members.Convert owner) := by
  cases members
  case scalar | union => exact givesOk trivial
  case object | interface | enum | inputObject =>
    exact givesBind (fun _ ok => ok) fun _ ok => givesOk ok

theorem fieldsKeys (owner : String) (nodes : List FieldNode) :
    Gives (fieldsOf owner nodes) fun fields => fields.keys = (nodes.map (·.name)).eraseDups :=
  givesBind (fieldsNamed owner nodes) fun fs names => givesOk <| by
    rw [← names]
    exact (Ordered.keysOfList _).trans (congrArg _ (Ordered.labels ..))

theorem inputFieldsKeys (owner : String) (nodes : List InputValue) :
    Gives (inputFieldsOf owner nodes) fun fields => fields.keys = (nodes.map (·.name)).eraseDups :=
  givesBind (argumentsNamed owner nodes) fun fs names => givesOk <| by
    rw [← names]
    exact (Ordered.keysOfList _).trans (congrArg _ (Ordered.labels ..))

theorem freshOfFirsts {names added : List String} (fresh : Fresh names.eraseDups added) :
    Fresh names added :=
  freshOfSubset (fun _ => List.mem_eraseDups.mpr) fresh

theorem fieldsGrown {owner : String} {nodes more : List FieldNode} {fields : Ordered Field}
    (converted : fieldsOf owner nodes = .ok fields) :
    Gives (more.foldlM (addField owner) fields) fun grown =>
      Fresh (nodes.map (·.name)) (more.map (·.name)) ∧ fieldsOf owner (nodes ++ more) = .ok grown := by
  intro grown ok
  have firsts := givesGuard (addedFields owner more fields) grown ok
  rw [fieldsKeys owner nodes fields converted] at firsts
  have fresh := freshOfFirsts firsts
  refine ⟨fresh, toOptionSome.mp ?_⟩
  rw [fieldsAppended owner fresh, converted, toOptionOk, Option.bind_some, ok, toOptionOk]

theorem inputFieldsGrown {owner : String} {nodes more : List InputValue} {fields : Ordered Argument}
    {as : List Argument} (converted : inputFieldsOf owner nodes = .ok fields)
    (read : argumentsOf owner more = .ok as) :
    Gives (as.foldlM (addInputField owner) fields) fun grown =>
      Fresh (nodes.map (·.name)) (more.map (·.name)) ∧
        inputFieldsOf owner (nodes ++ more) = .ok grown := by
  intro grown ok
  have firsts := givesGuard (addedInputFields owner as fields) grown ok
  rw [argumentsNamed owner more as read, inputFieldsKeys owner nodes fields converted] at firsts
  have fresh := freshOfFirsts firsts
  refine ⟨fresh, toOptionSome.mp ?_⟩
  rw [inputFieldsAppended owner fresh, converted, read, toOptionOk, toOptionOk, Option.bind_some,
    Option.bind_some, ok, toOptionOk]

theorem valuesGrown {owner : String} {nodes more : List EnumValueNode} {values : List EnumValue}
    (converted : nodes.mapM (enumValueOf owner) = .ok values) :
    Gives (more.foldlM (addEnumValue owner) values) fun grown =>
      Fresh (nodes.map (·.name)) (more.map (·.name)) ∧
        (nodes ++ more).mapM (enumValueOf owner) = .ok grown := by
  intro grown ok
  have fresh := givesGuard (addedValues owner more values) grown ok
  rw [valuesNamed owner nodes values converted] at fresh
  refine ⟨fresh, toOptionSome.mp ?_⟩
  rw [valuesAppended owner fresh, converted, toOptionOk, Option.bind_some, ok, toOptionOk]

theorem shapeGrown {owner : String} {nodes more : List FieldNode} {shape : ObjectShape}
    (converted : fieldsOf owner nodes = .ok shape.fields) (interfaces : List String) :
    Gives (extendShape owner shape interfaces more) fun grown =>
      Fresh (nodes.map (·.name)) (more.map (·.name)) ∧
        fieldsOf owner (nodes ++ more) = .ok grown.fields :=
  givesBind (fieldsGrown converted) fun _ grown => givesOk grown

structure Grown (owner : String) (members : Members) (added : List String) (whole : Members)
    (body : TypeBody) : Prop where
  fresh : Fresh members.memberNames added
  names : whole.memberNames = members.memberNames ++ added
  converted : whole.Convert owner body

theorem bodyGrown {owner : String} {members more : Members} {body : TypeBody}
    (converted : members.Convert owner body) :
    Gives (extendBody owner body more)
      (Grown owner members more.memberNames (members.append more)) := by
  cases members <;> cases body <;> try contradiction
  all_goals cases more <;> try exact givesError
  case scalar | union => exact givesOk ⟨freshNil [], rfl, trivial⟩
  case object | interface =>
    exact givesBind (shapeGrown converted _) fun shape grown => givesOk ⟨grown.1, List.map_append, grown.2⟩
  case enum =>
    exact givesBind (valuesGrown converted) fun values grown => givesOk ⟨grown.1, List.map_append, grown.2⟩
  case inputObject nodes fields more =>
    refine givesBind (Q := fun as => argumentsOf owner more = .ok as) (fun as ok => ok) fun as read => ?_
    exact givesBind (inputFieldsGrown converted read) fun fields grown =>
      givesOk ⟨grown.1, List.map_append, grown.2⟩

theorem typeGrown {node e : TypeNode} (own : e.name = node.name) {t : TypeDef}
    (converted : node.members.Convert node.name t.body) :
    Gives (extendType t e) fun u =>
      Grown node.name node.members e.members.memberNames (node.extendedBy e).members u.body := by
  unfold extendType
  split
  · exact givesError
  · rw [own]
    refine givesThen fun _ => ?_
    exact givesBind (bodyGrown converted) fun _ grown => givesOk grown

theorem typeConverted (node : TypeNode) :
    Gives (typeOf node) fun t => node.members.Convert node.name t.body :=
  givesThen fun _ => givesBind (bodyConverted node.name node.members) fun _ converted => givesOk converted

end Written

section Runs

theorem addedNew {α β : Type} {convert : α → Outcome β} {name : β → String} {xs : List α}
    {store filled : Ordered β} (run : xs.foldlM (addNew convert name) store = some filled) :
    (∀ key b, store.get? key = some b → filled.get? key = some b) ∧
    ∀ x ∈ xs, ∃ b, convert x = .ok b ∧ filled.get? (name b) = some b := by
  induction xs generalizing store with
  | nil =>
    cases run
    exact ⟨fun _ _ found => found, fun x inside => by contradiction⟩
  | cons x rest ih =>
    rw [List.foldlM_cons] at run
    obtain ⟨next, first, later⟩ := Option.bind_eq_some_iff.mp run
    obtain ⟨b, ok, added⟩ := Option.bind_eq_some_iff.mp first
    split at added
    case isTrue => contradiction
    case isFalse absent =>
      cases added
      obtain ⟨kept, others⟩ := ih later
      have own : (store.insert (name b) b).get? (name b) = some b := by
        rw [Ordered.getInsert, if_pos rfl]
      refine ⟨fun key c found => kept key c (Ordered.getInsertNew absent b found), ?_⟩
      exact List.forall_mem_cons.mpr ⟨⟨b, toOptionSome.mp ok, kept _ _ own⟩, others⟩

theorem extendWithSome {types grown : Ordered TypeDef} {e : TypeNode}
    (ok : extendWith types e = some grown) : ∃ t u, types.get? e.name = some t ∧
      extendType t e = .ok u ∧ grown = types.modify e.name fun _ => u := by
  obtain ⟨u, added, same⟩ := Option.map_eq_some_iff.mp ok
  obtain ⟨t, found, extended⟩ := Option.bind_eq_some_iff.mp added
  exact ⟨t, u, found, toOptionSome.mp extended, same.symm⟩

theorem grownOwn {node : TypeNode} {own : List TypeNode} (named : ∀ e ∈ own, e.name = node.name)
    {types grown : Ordered TypeDef} (run : own.foldlM extendWith types = some grown) {t : TypeDef}
    (found : types.get? node.name = some t) (converted : node.members.Convert node.name t.body) :
    ∃ u, grown.get? node.name = some u ∧ Grown node.name node.members
      (own.flatMap (·.members.memberNames)) (node.inlined own).members u.body := by
  induction own generalizing node types t with
  | nil =>
    cases run
    exact ⟨t, found, freshNil _, (List.append_nil _).symm, converted⟩
  | cons e rest ih =>
    obtain ⟨same, others⟩ := List.forall_mem_cons.mp named
    rw [List.foldlM_cons] at run
    obtain ⟨next, first, later⟩ := Option.bind_eq_some_iff.mp run
    obtain ⟨_, u, present, extended, rfl⟩ := extendWithSome first
    rw [same, found] at present
    cases present
    have step := typeGrown same converted u extended
    have here : (types.modify e.name fun _ => u).get? (node.extendedBy e).name = some u := by
      rw [Ordered.getModify, same]
      exact (if_pos rfl).trans (found ▸ rfl)
    have apart : ∀ f ∈ rest, f.name = (node.extendedBy e).name := others
    obtain ⟨w, held, whole⟩ := ih apart later here step.converted
    have names := whole.names
    rw [step.names, List.append_assoc] at names
    exact ⟨w, held, freshAppend.mpr ⟨step.fresh, step.names ▸ whole.fresh⟩, names, whole.converted⟩

theorem grownOthers {name : String} {others : List TypeNode} (apart : ∀ e ∈ others, e.name ≠ name)
    {types grown : Ordered TypeDef} (run : others.foldlM extendWith types = some grown) :
    grown.get? name = types.get? name := by
  induction others generalizing types with
  | nil =>
    cases run
    rfl
  | cons e rest ih =>
    obtain ⟨other, more⟩ := List.forall_mem_cons.mp apart
    rw [List.foldlM_cons] at run
    obtain ⟨next, first, later⟩ := Option.bind_eq_some_iff.mp run
    obtain ⟨_, u, _, _, rfl⟩ := extendWithSome first
    rw [ih more later, Ordered.getModify, if_neg other.symm]

def addedNames (document : Document) (node : TypeNode) : List String :=
  (extensionsOf document node.name).flatMap (·.members.memberNames)

def written (document : Document) (node : TypeNode) : Members :=
  (node.inlined (extensionsOf document node.name)).members

theorem typesGrown {document : Document} {types : Ordered TypeDef} (ok : typesOf document = some types)
    {node : TypeNode} (member : node ∈ typeNodes document) : ∃ t, types.get? node.name = some t ∧
      Grown node.name node.members (addedNames document node) (written document node) t.body := by
  obtain ⟨declared, adds, run⟩ := Option.bind_eq_some_iff.mp ok
  obtain ⟨t, converted, found⟩ := (addedNew adds).2 node member
  rw [extensionsSorted node.name] at run
  obtain ⟨extended, own, others⟩ := Option.bind_eq_some_iff.mp run
  rw [(kindOfType t converted).1] at found
  have apart : ∀ e ∈ ofOthers node.name (extensions document), e.name ≠ node.name := fun e inside =>
    bne_iff_ne.mp (List.mem_filter.mp inside).2
  rw [grownOthers apart others]
  exact grownOwn (fun _ => extensionsNamed) own found (typeConverted node t converted)

theorem resolvedKeeps (m : Model) : Gives (resolve m) fun n =>
    (∀ name t, m.type? name = some t → n.type? name = some t) ∧ n.directives = m.directives := by
  refine givesFoldlM ⟨fun _ _ found => found, rfl⟩ fun r _ n kept => ?_
  unfold resolveReference
  split
  · exact givesOk kept
  · rename_i absent
    split
    · exact givesOk ⟨fun name t found => Ordered.getInsertNew absent _ (kept.1 name t found), kept.2⟩
    · exact givesError

end Runs

section Held

def HeldBy {α β : Type} (convert : α → Outcome β) (label : α → String) (nodes : List α) (size : Nat)
    (find : String → Option β) : Prop :=
  size = nodes.length ∧ ∀ node ∈ nodes, ∃ b, convert node = .ok b ∧ find (label node) = some b

def ArgumentsHeld (owner : String) (nodes : List InputValue) (arguments : List Argument) : Prop :=
  (nodes.map (·.name)).Nodup →
    HeldBy (argumentOf owner) (·.name) nodes arguments.length (argumentNamed? arguments)

def FieldsHeld (owner : String) (nodes : List FieldNode) (fields : Ordered Field) : Prop :=
  HeldBy (fieldOf owner) (·.name) nodes fields.size fields.get? ∧
    ∀ node ∈ nodes, ∀ f, fields.get? node.name = some f →
      ArgumentsHeld (owner ++ "." ++ node.name) node.arguments f.arguments

def Members.Held (owner : String) : Members → TypeBody → Prop
  | .scalar, .scalar => True
  | .object _ nodes, .object shape => FieldsHeld owner nodes shape.fields
  | .interface _ nodes, .interface shape => FieldsHeld owner nodes shape.fields
  | .union _, .union _ => True
  | .enum nodes, .enum values =>
    HeldBy (enumValueOf owner) (·.name) nodes values.length (enumValueNamed? values)
  | .inputObject nodes, .inputObject fields =>
    HeldBy (argumentOf owner) (·.name) nodes fields.size fields.get?
  | _, _ => False

variable {α β : Type} {convert : α → Outcome β} {label : α → String} {name : β → String}
  {nodes : List α} {converted : List β}

theorem listedHeld (named : ∀ x, Gives (convert x) fun y => name y = label x)
    (ok : nodes.mapM convert = .ok converted) (distinct : (nodes.map label).Nodup) :
    HeldBy convert label nodes converted.length fun key => converted.find? (name · == key) := by
  have names : converted.map name = nodes.map label := givesNames named converted ok
  refine ⟨by simpa using congrArg List.length names, fun node member => ?_⟩
  obtain ⟨b, inside, built⟩ := givesMember member converted ok
  refine ⟨b, built, ?_⟩
  rw [← named node b built]
  exact foundOfMem (names ▸ distinct) inside

theorem collectedHeld (named : ∀ x, Gives (convert x) fun y => name y = label x)
    (ok : nodes.mapM convert = .ok converted) (distinct : (nodes.map label).Nodup) :
    HeldBy convert label nodes (Ordered.ofList (Ordered.labelled name converted)).size
      (Ordered.ofList (Ordered.labelled name converted)).get? := by
  have names : converted.map name = nodes.map label := givesNames named converted ok
  have entries : (Ordered.ofList (Ordered.labelled name converted)).entries =
      Ordered.labelled name converted :=
    Ordered.entriesOfList ((Ordered.labels name converted).symm ▸ names ▸ distinct)
  constructor
  · rw [Ordered.size, entries, Ordered.labelled, List.length_map]
    simpa using congrArg List.length names
  · intro node member
    obtain ⟨b, inside, built⟩ := givesMember member converted ok
    refine ⟨b, built, Ordered.getIffMem.mpr ?_⟩
    rw [entries, ← named node b built]
    exact List.mem_map_of_mem inside

theorem argumentsHeld (owner : String) (nodes : List InputValue) :
    Gives (argumentsOf owner nodes) (ArgumentsHeld owner nodes) :=
  fun _ ok distinct => listedHeld (argumentNamed owner) ok distinct

theorem fieldHeld (owner : String) (node : FieldNode) : Gives (fieldOf owner node) fun f =>
    ArgumentsHeld (owner ++ "." ++ node.name) node.arguments f.arguments := by
  refine givesBind (argumentsHeld (owner ++ "." ++ node.name) node.arguments) fun arguments held => ?_
  exact givesThen fun _ => givesOk held

theorem fieldsHeld {owner : String} {nodes : List FieldNode} (distinct : (nodes.map (·.name)).Nodup) :
    Gives (fieldsOf owner nodes) (FieldsHeld owner nodes) := by
  refine givesBind (Q := fun fs => nodes.mapM (fieldOf owner) = .ok fs) (fun fs ok => ok) fun fs ok => ?_
  have held := collectedHeld (fieldNamed owner) ok distinct
  refine givesOk ⟨held, fun node member f found => ?_⟩
  obtain ⟨_, converted, present⟩ := held.2 node member
  cases present.symm.trans found
  exact fieldHeld owner node f converted

theorem inputFieldsHeld {owner : String} {nodes : List InputValue}
    (distinct : (nodes.map (·.name)).Nodup) : Gives (inputFieldsOf owner nodes) fun fields =>
      HeldBy (argumentOf owner) (·.name) nodes fields.size fields.get? :=
  givesBind (Q := fun as => nodes.mapM (argumentOf owner) = .ok as) (fun _ ok => ok) fun _ ok =>
    givesOk (collectedHeld (argumentNamed owner) ok distinct)

theorem membersHeld {owner : String} {members : Members} {body : TypeBody}
    (converted : members.Convert owner body) (distinct : members.memberNames.Nodup) :
    members.Held owner body := by
  cases members <;> cases body <;> try contradiction
  case scalar | union => trivial
  case object | interface => exact fieldsHeld distinct _ converted
  case enum => exact listedHeld (valueNamed owner) converted distinct
  case inputObject => exact inputFieldsHeld distinct _ converted

theorem directiveHeld (node : DirectiveNode) : Gives (directiveOf node) fun d =>
    d.name = node.name ∧ ArgumentsHeld ("@" ++ node.name) node.arguments d.arguments :=
  givesBind (argumentsHeld ("@" ++ node.name) node.arguments) fun _ held => givesOk ⟨rfl, held⟩

end Held

/- What a type holds is all that is written for it, converted as if it stood in one definition. Only a
name that the definition itself repeats keeps a written member from being held under it. -/
theorem writtenHeld (document : Document) (m : Model) (built : model document = .ok m) :
    (∀ node ∈ typeNodes document, ∃ t, m.type? node.name = some t ∧
      Grown node.name node.members (addedNames document node) (written document node) t.body ∧
      (node.members.memberNames.Nodup → (written document node).Held node.name t.body)) ∧
    ∀ node ∈ directiveNodes document, ∃ d, m.directive? node.name = some d ∧
      ArgumentsHeld ("@" ++ node.name) node.arguments d.arguments := by
  have streams := modelStreams document
  rw [built, toOptionOk] at streams
  obtain ⟨types, typed, rest⟩ := Option.bind_eq_some_iff.mp streams.symm
  obtain ⟨directives, directed, resolved⟩ := Option.bind_eq_some_iff.mp rest
  obtain ⟨kept, same⟩ := resolvedKeeps _ m (toOptionSome.mp resolved)
  constructor
  · intro node member
    obtain ⟨t, found, grown⟩ := typesGrown typed member
    refine ⟨t, kept _ t found, grown, fun distinct => membersHeld grown.converted ?_⟩
    exact grown.names ▸ freshNodup distinct grown.fresh
  · intro node member
    obtain ⟨d, converted, found⟩ := (addedNew directed).2 node member
    obtain ⟨name, held⟩ := directiveHeld node d converted
    refine ⟨d, ?_, held⟩
    rw [Model.directive?, same, ← name]
    exact found

section Examples

def mixNode : TypeNode :=
  ⟨⟨2, 1⟩, "Query", [], .object [] [⟨⟨2, 9⟩, "mix", [⟨⟨2, 9⟩, "first", .named "Color", none, []⟩,
    ⟨⟨2, 9⟩, "second", .named "Color", none, []⟩], .named "Color", []⟩]⟩

def sizedNode : DirectiveNode :=
  ⟨⟨6, 1⟩, "sized", [⟨⟨6, 9⟩, "least", .named "Int", none, []⟩, ⟨⟨6, 9⟩, "most", .named "Int", none, []⟩],
    false, ["OBJECT"]⟩

def mixDocument : Document :=
  [.extension colorMore, .type mixNode, .type colorNode, .extension queryMore, .directive sizedNode]

theorem writtenHeldOfExtended : ∃ m t u d, model mixDocument = .ok m ∧
    m.type? "Query" = some t ∧ (written mixDocument mixNode).Held "Query" t.body ∧
    m.type? "Color" = some u ∧ (written mixDocument colorNode).Held "Color" u.body ∧
    m.directive? "sized" = some d ∧ HeldBy (argumentOf "@sized") (·.name) sizedNode.arguments
      d.arguments.length (argumentNamed? d.arguments) := by
  obtain ⟨m, built, _⟩ := okOfTest (model mixDocument) (fun _ => true) (by decide +kernel)
  obtain ⟨types, directives⟩ := writtenHeld mixDocument m built
  obtain ⟨t, typed, _, fields⟩ := types mixNode List.mem_cons_self
  obtain ⟨u, enum, _, values⟩ := types colorNode (List.mem_cons_of_mem _ List.mem_cons_self)
  obtain ⟨d, directed, arguments⟩ := directives sizedNode List.mem_cons_self
  exact ⟨m, t, u, d, built, typed, fields (by decide), enum, values (by decide), directed,
    arguments (by decide)⟩

def repeatedNode : TypeNode :=
  ⟨⟨1, 1⟩, "Query", [], .object [] [⟨⟨1, 14⟩, "a", [], .named "Int", []⟩,
    ⟨⟨1, 21⟩, "a", [], .named "String", []⟩]⟩

theorem repeatedFieldLost : ∃ m, model [.type repeatedNode] = .ok m ∧
    repeatedNode.members.memberNames = ["a", "a"] ∧
    ((m.type? "Query").bind TypeDef.shape?).map (fun shape => shape.fields.values.map (·.type)) =
      some [.named "String"] := by
  obtain ⟨m, built, last⟩ := okOfTest (model [.type repeatedNode]) (fun m =>
    decide (((m.type? "Query").bind TypeDef.shape?).map
      (fun shape => shape.fields.values.map (·.type)) = some [.named "String"])) (by decide +kernel)
  exact ⟨m, built, rfl, of_decide_eq_true last⟩

end Examples

end SchemaDrift.Sdl
