import SchemaDrift.Proofs.Sdl.Constants
import SchemaDrift.Proofs.Sdl.Inlining

/-! Models as mirrors of their documents. Types, directive definitions and extensions are screened one
after the other, and at each of them the model mirrors what has been read so far: a type its definition
with the members of its extensions written into it. The directives of a schema block are read by
nothing, so a variable there goes through. -/
namespace SchemaDrift.Sdl

section Elements

def Members.Mirrored : Members → TypeBody → Prop
  | .scalar, .scalar => True
  | .object _ nodes, .object shape => Collected FieldNode.Mirrored Field.name nodes shape.fields
  | .interface _ nodes, .interface shape => Collected FieldNode.Mirrored Field.name nodes shape.fields
  | .union _, .union _ => True
  | .enum nodes, .enum values => List.Forall₂ EnumValueNode.Mirrored nodes values
  | .inputObject nodes, .inputObject fields =>
    Collected InputValue.Mirrored Argument.name nodes fields
  | _, _ => False

structure TypeNode.Mirrored (node : TypeNode) (t : TypeDef) : Prop where
  name : t.name = node.name
  directives : List.Forall₂ DirectiveUse.Mirrored node.directives t.directives
  members : node.members.Mirrored t.body

structure DirectiveNode.Mirrored (node : DirectiveNode) (d : DirectiveDef) : Prop where
  name : d.name = node.name
  arguments : List.Forall₂ InputValue.Mirrored node.arguments d.arguments

theorem bodyScreened (owner : String) (members : Members) :
    Screens members.variables (bodyOf owner members) members.Mirrored := by
  cases members with
  | scalar => exact screensOk trivial
  | object interfaces fields => exact screensMap (fieldsScreened owner fields) fun _ mirrored => mirrored
  | interface interfaces fields =>
    exact screensMap (fieldsScreened owner fields) fun _ mirrored => mirrored
  | union members => exact screensOk trivial
  | enum values =>
    exact screensMap (screensMapM (enumValueScreened owner) values) fun _ mirrored => mirrored
  | inputObject fields =>
    exact screensMap (inputFieldsScreened owner fields) fun _ mirrored => mirrored

theorem typeScreened (node : TypeNode) : Screens node.variables (typeOf node) node.Mirrored :=
  screensBind (directivesScreened node.name node.directives) fun _ directives =>
    screensMap (bodyScreened node.name node.members) fun _ members => ⟨rfl, directives, members⟩

theorem directiveScreened (node : DirectiveNode) :
    Screens node.variables (directiveOf node) node.Mirrored :=
  screensMap (argumentsScreened ("@" ++ node.name) node.arguments) fun _ arguments => ⟨rfl, arguments⟩

end Elements

section Extensions

theorem collectedMore {α β : Type} {R : α → β → Prop} {name : β → String} {nodes more : List α}
    {store : Ordered β} {added : List β} (kept : Collected R name nodes store)
    (mirrored : List.Forall₂ R more added) :
    Collected R name (nodes ++ more) (store.insertAll (Ordered.labelled name added)) := by
  obtain ⟨xs, before, rfl⟩ := kept
  exact ⟨xs ++ added, List.rel_append before mirrored, (Ordered.collectedAppend name xs added).symm⟩

theorem addFieldScreened (owner : String) (nodes : List FieldNode) (fields : Ordered Field)
    (node : FieldNode) (kept : Collected FieldNode.Mirrored Field.name nodes fields) :
    Screens node.variables (addField owner fields node)
      (Collected FieldNode.Mirrored Field.name (nodes ++ [node])) := by
  unfold addField
  split
  · exact screensError fun _ _ => by simp
  · refine screensMap (fieldScreened owner node) fun f mirrored => ?_
    rw [← mirrored.name]
    exact collectedMore kept (.cons mirrored .nil)

theorem addEnumValueScreened (owner : String) (nodes : List EnumValueNode) (values : List EnumValue)
    (node : EnumValueNode) (kept : List.Forall₂ EnumValueNode.Mirrored nodes values) :
    Screens node.variables (addEnumValue owner values node)
      (List.Forall₂ EnumValueNode.Mirrored (nodes ++ [node])) := by
  unfold addEnumValue
  split
  · exact screensError fun _ _ => by simp
  · exact screensMap (enumValueScreened owner node) fun v mirrored =>
      List.rel_append kept (.cons mirrored .nil)

theorem addInputFieldScreened (owner : String) (fields : Ordered Argument) (done : List Argument)
    (grown : Ordered Argument) (field : Argument)
    (kept : grown = fields.insertAll (Ordered.labelled Argument.name done)) :
    Screens [] (addInputField owner grown field) fun next =>
      next = fields.insertAll (Ordered.labelled Argument.name (done ++ [field])) := by
  unfold addInputField
  split
  · exact screensError fun _ _ => by simp
  · exact screensOk (by rw [kept, Ordered.insertAllSnoc])

theorem addInputFieldsScreened (owner : String) (converted : List Argument)
    (fields : Ordered Argument) : Screens [] (converted.foldlM (addInputField owner) fields) fun grown =>
      grown = fields.insertAll (Ordered.labelled Argument.name converted) := by
  have start : fields = fields.insertAll (Ordered.labelled Argument.name []) := rfl
  have run := screensFoldlM (addInputFieldScreened owner fields) converted start
  rwa [List.flatMap_eq_nil_iff.mpr fun _ _ => rfl] at run

theorem extendShapeScreened (owner : String) {nodes : List FieldNode} {shape : ObjectShape}
    (interfaces : List String) (more : List FieldNode)
    (kept : Collected FieldNode.Mirrored Field.name nodes shape.fields) :
    Screens (more.flatMap FieldNode.variables) (extendShape owner shape interfaces more) fun grown =>
      Collected FieldNode.Mirrored Field.name (nodes ++ more) grown.fields :=
  screensMap (screensFoldlM (addFieldScreened owner) more kept) fun _ grown => grown

theorem extendBodyScreened (owner : String) {members : Members} {body : TypeBody} (more : Members)
    (kept : members.Mirrored body) :
    Screens more.variables (extendBody owner body more) (members.append more).Mirrored := by
  cases members <;> cases body <;> try contradiction
  all_goals cases more <;> try exact screensError fun _ _ => by simp
  case scalar | union => exact screensOk trivial
  case object | interface => exact screensMap (extendShapeScreened owner _ _ kept) fun _ grown => grown
  case enum =>
    exact screensMap (screensFoldlM (addEnumValueScreened owner) _ kept) fun _ grown => grown
  case inputObject nodes fields more =>
    rw [Members.variables, ← List.append_nil (more.flatMap _)]
    refine screensBind (argumentsScreened owner more) fun converted mirrored => ?_
    refine screensMap (addInputFieldsScreened owner converted fields) fun grown same => ?_
    exact same ▸ collectedMore kept mirrored

theorem extendTypeScreened {node : TypeNode} {t : TypeDef} (more : TypeNode) (kept : node.Mirrored t) :
    Screens more.variables (extendType t more) (node.extendedBy more).Mirrored := by
  unfold extendType
  split
  · exact screensError fun _ _ => by simp
  · refine screensBind (directivesScreened more.name more.directives) fun directives added => ?_
    exact screensMap (extendBodyScreened more.name more.members kept.members) fun body members =>
      ⟨kept.name, List.rel_append kept.directives added, members⟩

end Extensions

section Models

def Definition.variables : Definition → List String
  | .schema _ uses => uses.flatMap DirectiveUse.variables
  | .type node => node.variables
  | .extension node => node.variables
  | .directive node => node.variables

def Definition.declaredVariables : Definition → List String
  | .type node => node.variables
  | .directive node => node.variables
  | _ => []

def Definition.addedVariables : Definition → List String
  | .extension node => node.variables
  | _ => []

def screened (document : Document) : List String :=
  document.flatMap Definition.declaredVariables ++ document.flatMap Definition.addedVariables

theorem memScreened {document : Document} {name : String} :
    name ∈ screened document ↔ ∃ d ∈ document, d.schemaBlock? = none ∧ name ∈ d.variables := by
  have each : ∀ d : Definition, name ∈ d.declaredVariables ∨ name ∈ d.addedVariables ↔
      d.schemaBlock? = none ∧ name ∈ d.variables := by
    intro d
    cases d <;> simp [Definition.declaredVariables, Definition.addedVariables,
      Definition.schemaBlock?, Definition.variables]
  simp only [screened, List.mem_append, List.mem_flatMap, ← each, and_or_left, exists_or]

structure Mirroring (nodes added : List TypeNode) (directives : List DirectiveNode) (m : Model) :
    Prop where
  types : List.Forall₂ (fun node e => e.1 = node.name ∧
    (node.inlined (ofType node.name added)).Mirrored e.2) nodes m.types.entries
  directives : List.Forall₂ DirectiveNode.Mirrored directives m.directiveList

/- Nothing else is in a model but the implicit scalars, which hold no constants. -/
structure Mirrored (document : Document) (m : Model) : Prop where
  types : ∃ (declared : List TypeDef) (names : List String),
    m.typeList = declared ++ names.map TypeDef.implicitScalar ∧
    List.Forall₂ (fun node t => (node.inlined (extensionsOf document node.name)).Mirrored t)
      (typeNodes document) declared
  directives : List.Forall₂ DirectiveNode.Mirrored (directiveNodes document) m.directiveList

variable {nodes added : List TypeNode} {directives : List DirectiveNode} {m : Model}

theorem declareTypeScreened (kept : Mirroring nodes [] directives m) (node : TypeNode) :
    Screens node.variables (declare m (.type node)) (Mirroring (nodes ++ [node]) [] directives) := by
  rw [← List.append_nil node.variables]
  refine screensBind (typeScreened node) fun t mirrored => ?_
  split
  case isTrue => exact screensError fun _ _ => by simp
  case isFalse absent =>
    have grown : (m.insertType t).types.entries = m.types.entries ++ [(t.name, t)] :=
      Ordered.entriesInsertNew (fun inside => absent ((Ordered.containsIff ..).mpr inside)) t
    refine screensOk ⟨?_, kept.directives⟩
    rw [grown]
    exact List.rel_append kept.types (.cons ⟨mirrored.name, mirrored⟩ .nil)

theorem declareDirectiveScreened (kept : Mirroring nodes added directives m) (node : DirectiveNode) :
    Screens node.variables (declare m (.directive node))
      (Mirroring nodes added (directives ++ [node])) := by
  rw [← List.append_nil node.variables]
  refine screensBind (directiveScreened node) fun d mirrored => ?_
  split
  case isTrue => exact screensError fun _ _ => by simp
  case isFalse absent =>
    have grown : (m.insertDirective d).directiveList = m.directiveList ++ [d] :=
      Ordered.valuesInsertNew absent d
    refine screensOk ⟨kept.types, ?_⟩
    rw [grown]
    exact List.rel_append kept.directives (.cons mirrored .nil)

theorem declareScreened (done : Document) (m : Model) (d : Definition)
    (kept : Mirroring (typeNodes done) [] (directiveNodes done) m) :
    Screens d.declaredVariables (declare m d)
      (Mirroring (typeNodes (done ++ [d])) [] (directiveNodes (done ++ [d]))) := by
  have types : typeNodes (done ++ [d]) = typeNodes done ++ typeNodes [d] := List.filterMap_append
  have directives : directiveNodes (done ++ [d]) = directiveNodes done ++ directiveNodes [d] :=
    List.filterMap_append
  rw [types, directives]
  cases d with
  | type node => exact (List.append_nil (directiveNodes done)).symm ▸ declareTypeScreened kept node
  | directive node => exact (List.append_nil (typeNodes done)).symm ▸ declareDirectiveScreened kept node
  | _ =>
    refine screensOk ⟨?_, ?_⟩
    · exact (List.append_nil (typeNodes done)).symm ▸ kept.types
    · exact (List.append_nil (directiveNodes done)).symm ▸ kept.directives

theorem inlinedMore (node more : TypeNode) (added : List TypeNode) :
    node.inlined (ofType node.name (added ++ [more])) =
      if more.name = node.name then (node.inlined (ofType node.name added)).extendedBy more
      else node.inlined (ofType node.name added) := by
  by_cases own : more.name = node.name
  · simp [ofType, TypeNode.inlined, own]
  · simp [ofType, own]

/- Keys are distinct, so only the entry that the extension finds is changed, and only nodes of its name
have one more extension. -/
theorem mirrorsExtended (kept : Mirroring nodes added directives m) {more : TypeNode} {t u : TypeDef}
    (found : m.type? more.name = some t)
    (grown : ∀ node : TypeNode, node.Mirrored t → (node.extendedBy more).Mirrored u) :
    Mirroring nodes (added ++ [more]) directives (m.modifyType more.name fun _ => u) where
  types := by
    refine List.forall₂_map_right_iff.mpr ?_
    have inside := (List.forall₂_and_left _ _).mpr ⟨fun e (member : e ∈ m.types.entries) => member,
      kept.types.flip⟩
    refine inside.flip.imp fun node e ⟨member, key, mirrored⟩ => ?_
    rw [inlinedMore]
    by_cases own : e.1 = more.name
    · have same : e.2 = t := Option.some.inj ((own ▸ Ordered.getIffMem.mpr member).symm.trans found)
      rw [if_pos own, if_pos (own.symm.trans key)]
      exact ⟨key, grown _ (same ▸ mirrored)⟩
    · rw [if_neg own, if_neg fun other => own (key.trans other.symm)]
      exact ⟨key, mirrored⟩
  directives := kept.directives

theorem extendExtensionScreened (kept : Mirroring nodes added directives m) (more : TypeNode) :
    Screens more.variables (extend m (.extension more)) (Mirroring nodes (added ++ [more]) directives) := by
  unfold extend
  simp only
  split
  · exact screensError fun _ _ => by simp
  · rename_i t found
    obtain ⟨node, _, _, mirrored⟩ := partnerOf kept.types.flip (Ordered.getIffMem.mp found)
    have each : ∀ node : TypeNode, node.Mirrored t → Screens more.variables (extendType t more)
        (node.extendedBy more).Mirrored := fun node before => extendTypeScreened more before
    refine screensMap (screensAll ⟨node.inlined _, mirrored⟩ each) fun u grown => ?_
    exact mirrorsExtended kept found grown

theorem extendScreened (document done : Document) (m : Model) (d : Definition)
    (kept : Mirroring (typeNodes document) (extensions done) (directiveNodes document) m) :
    Screens d.addedVariables (extend m d)
      (Mirroring (typeNodes document) (extensions (done ++ [d])) (directiveNodes document)) := by
  have later : extensions (done ++ [d]) = extensions done ++ extensions [d] := List.filterMap_append
  rw [later]
  cases d with
  | extension more => exact extendExtensionScreened kept more
  | _ => exact screensOk ((List.append_nil (extensions done)).symm ▸ kept)

theorem resolveScreened (m : Model) :
    Screens [] (resolve m) fun n => ∃ names, Completed m n names := by
  obtain ⟨fails, succeeds⟩ := resolvedAll (references m) m
  unfold resolve
  cases first : (references m).find? (dangling m.types.keys) with
  | some r =>
    rw [fails r first]
    exact screensError fun _ _ => by simp
  | none =>
    obtain ⟨n, ok, completed⟩ := succeeds first
    rw [ok]
    exact screensOk ⟨_, completed⟩

theorem completedMirrored {document : Document} {m n : Model} {names : List String}
    (kept : Mirroring (typeNodes document) (extensions document) (directiveNodes document) m)
    (completed : Completed m n names) : Mirrored document n where
  types := by
    refine ⟨m.typeList, names, completed.types, List.forall₂_map_right_iff.mpr ?_⟩
    exact kept.types.imp fun _ _ mirrored => mirrored.2
  directives := by
    rw [Model.directiveList, completed.directives]
    exact kept.directives

theorem modelScreened (document : Document) :
    Screens (screened document) (model document) (Mirrored document) := by
  rw [screened, ← List.append_nil (document.flatMap Definition.addedVariables)]
  have start : Mirroring (typeNodes []) [] (directiveNodes []) Model.empty := ⟨.nil, .nil⟩
  refine screensBind (screensFoldlM declareScreened document start) fun declared kept => ?_
  have unextended : Mirroring (typeNodes document) (extensions []) (directiveNodes document) declared := kept
  refine screensBind (screensFoldlM (extendScreened document) document unextended) fun extended kept => ?_
  exact screensMono (resolveScreened extended) fun n ⟨_, completed⟩ => completedMirrored kept completed

end Models

/- A variable at any depth of a constant keeps the model away, wherever the constant stands but at a
schema block. -/
theorem variablesRefused (document : Document) :
    (∀ d ∈ document, d.schemaBlock? = none → d.variables ≠ [] → ∃ e, model document = .error e) ∧
    (∀ name context, model document = .error (.variableInConstant name context) →
      ∃ d ∈ document, d.schemaBlock? = none ∧ name ∈ d.variables) ∧
    ∀ m, model document = .ok m → Mirrored document m := by
  have screens := modelScreened document
  refine ⟨fun d member other present => ?_, fun name context failed => ?_, fun m built => ?_⟩
  · obtain ⟨name, inside⟩ := List.exists_mem_of_ne_nil _ present
    cases outcome : model document with
    | error e => exact ⟨e, rfl⟩
    | ok m =>
      have blocked : name ∈ screened document := memScreened.mpr ⟨d, member, other, inside⟩
      rw [(screens.gives m outcome).1] at blocked
      contradiction
  · exact memScreened.mp (screens.blames name context failed)
  · exact (screens.gives m built).2

section Examples

def filterNode : TypeNode :=
  ⟨⟨1, 1⟩, "Filter", [], .inputObject [⟨⟨1, 16⟩, "ranges", .list (.named "Range"),
    some (.list [.object ⟨[("least", .integer 1), ("most", .null)], by decide⟩]), []⟩]⟩

def rangeNode : TypeNode :=
  ⟨⟨2, 1⟩, "Range", [], .inputObject [⟨⟨2, 15⟩, "least", .named "Int", none, []⟩]⟩

def rangeMore (most : Expression) : TypeNode :=
  ⟨⟨3, 1⟩, "Range", [], .inputObject [⟨⟨3, 22⟩, "most", .named "Int", none,
    [⟨"steps", [("at", .list [.integer 1, .object ⟨[("last", most)], by simp⟩])]⟩]⟩]⟩

def rangeDocument (most : Expression) : Document :=
  [.extension (rangeMore most), .type filterNode, .type rangeNode]

theorem variablesRefusedOfNested :
    (∃ e, model (rangeDocument (.ofVariable "limit")) = .error e) ∧
    (∃ context, model (rangeDocument (.ofVariable "limit")) =
        .error (.variableInConstant "limit" context) ∧
      ∃ d ∈ rangeDocument (.ofVariable "limit"), d.schemaBlock? = none ∧ "limit" ∈ d.variables) ∧
    ∃ m, model (rangeDocument (.integer 9)) = .ok m ∧ Mirrored (rangeDocument (.integer 9)) m := by
  obtain ⟨refused, blamed, _⟩ := variablesRefused (rangeDocument (.ofVariable "limit"))
  have failed : model (rangeDocument (.ofVariable "limit")) =
      .error (.variableInConstant "limit" "Range.most @steps(at:)") := by rfl
  obtain ⟨m, built, _⟩ := okOfTest (model (rangeDocument (.integer 9))) (fun _ => true) (by decide +kernel)
  have mirrored := (variablesRefused (rangeDocument (.integer 9))).2.2 m built
  exact ⟨refused (.extension (rangeMore (.ofVariable "limit"))) List.mem_cons_self rfl (by decide),
    ⟨_, failed, blamed "limit" _ failed⟩, m, built, mirrored⟩

def variableAtSchema : Document :=
  [.schema ⟨some "Query", none, none⟩ [⟨"d", [("a", .ofVariable "x")]⟩],
    .type ⟨⟨1, 34⟩, "Query", [], .object [] [⟨⟨1, 47⟩, "a", [], .named "Int", []⟩]⟩]

theorem schemaVariableAccepted :
    (∃ d ∈ variableAtSchema, "x" ∈ d.variables) ∧ ∃ m, model variableAtSchema = .ok m := by
  obtain ⟨m, built, _⟩ := okOfTest (model variableAtSchema) (fun _ => true) (by decide +kernel)
  exact ⟨⟨_, List.mem_cons_self, by decide⟩, m, built⟩

end Examples

end SchemaDrift.Sdl
