import SchemaDrift.Proofs.Sdl.Members
import SchemaDrift.Proofs.Sdl.Resolution
import SchemaDrift.Proofs.Sdl.Streams

/-! Extending a type equals having written the extensions into its definition. Extensions commute with
what is about other types, so those of one type may follow its definition at once, and there each one
adds what the definition extended by it would hold. -/
namespace SchemaDrift.Sdl

section Inlining

def TypeNode.extendedBy (node more : TypeNode) : TypeNode :=
  { node with
    directives := node.directives ++ more.directives
    members := node.members.append more.members }

def TypeNode.inlined (node : TypeNode) (extensions : List TypeNode) : TypeNode :=
  extensions.foldl TypeNode.extendedBy node

def AddsOnly (node : TypeNode) : List TypeNode → Prop
  | [] => True
  | more :: rest => node.members.Adds more.members ∧ AddsOnly (node.extendedBy more) rest

theorem kindOfAdds {members more : Members} (adds : members.Adds more) : members.kind = more.kind := by
  cases members <;> cases more <;> first | rfl | contradiction

theorem kindOfType {node : TypeNode} :
    Gives (typeOf node) fun t => t.name = node.name ∧ t.kind = node.members.kind :=
  givesMono (typeOutline node) fun t outline => by
    simp only [TypeDef.outline, TypeNode.outline, Prod.mk.injEq] at outline
    exact ⟨outline.1, outline.2.1⟩

theorem extendTypeAlike {node more : TypeNode} (same : more.name = node.name)
    (adds : node.members.Adds more.members) {t : TypeDef} (built : typeOf node = .ok t) :
    (extendType t more).toOption =
      (appliedDirectives node.name more.directives).toOption.bind fun directives =>
        (extendBody node.name t.body more.members).toOption.map fun body =>
          { t with directives := t.directives ++ directives, body } := by
  have kind : t.kind = more.members.kind := (kindOfType t built).2.trans (kindOfAdds adds)
  rw [extendType, if_neg (not_not.mpr kind), same, toOptionBind]
  refine congrArg _ (funext fun directives => ?_)
  rw [toOptionBind, Option.map_eq_bind]
  rfl

theorem typeExtendedBy {node more : TypeNode} (same : more.name = node.name)
    (adds : node.members.Adds more.members) :
    (typeOf (node.extendedBy more)).toOption =
      (typeOf node).toOption.bind fun t => (extendType t more).toOption := by
  have inline : (typeOf (node.extendedBy more)).toOption =
      (appliedDirectives node.name node.directives).toOption.bind fun own =>
        (appliedDirectives node.name more.directives).toOption.bind fun added =>
          (bodyOf node.name node.members).toOption.bind fun body =>
            (extendBody node.name body more.members).toOption.map fun grown =>
              ⟨node.name, some node.position, own ++ added, grown⟩ := by
    simp only [typeOf, TypeNode.extendedBy, appliedDirectives, toOptionBind, toOptionMapMAppend,
      bodyAppended _ adds, Option.bind_assoc, Option.map_eq_bind, Option.bind_some, toOptionOk,
      Function.comp_def]
  have apart : (typeOf node).toOption.bind (fun t => (extendType t more).toOption) =
      (appliedDirectives node.name node.directives).toOption.bind fun own =>
        (bodyOf node.name node.members).toOption.bind fun body =>
          (appliedDirectives node.name more.directives).toOption.bind fun added =>
            (extendBody node.name body more.members).toOption.map fun grown =>
              ⟨node.name, some node.position, own ++ added, grown⟩ := by
    rw [Option.bind_congr fun t built => extendTypeAlike same adds (toOptionSome.mp built)]
    simp only [typeOf, toOptionBind, toOptionOk, Option.bind_assoc, Option.bind_some]
  rw [inline, apart]
  exact congrArg _ (funext fun own => Option.bind_comm ..)

theorem addTypeExtended (types : Ordered TypeDef) {node more : TypeNode} (same : more.name = node.name)
    (adds : node.members.Adds more.members) :
    addType types (node.extendedBy more) = (addType types node).bind (extendWith · more) := by
  rw [addType, addNew, addNew, typeExtendedBy same adds, Option.bind_assoc, Option.bind_assoc]
  refine Option.bind_congr fun t built => ?_
  have name : more.name = t.name := same.trans (kindOfType t (toOptionSome.mp built)).1.symm
  have kept : ∀ grown, (extendType t more).toOption = some grown → grown.name = t.name :=
    fun grown ok => congrArg (·.1) (extendedOutline t more grown (toOptionSome.mp ok))
  by_cases known : types.contains t.name = true
  · rw [if_pos known, Option.bind_none, Option.bind_eq_none_iff]
    exact fun grown ok => if_pos (kept grown ok ▸ known)
  · have absent : t.name ∉ types.keys := fun inside => known ((Ordered.containsIff ..).mpr inside)
    have found : (types.insert t.name t).get? more.name = some t := by
      rw [Ordered.getInsert, if_pos name]
    rw [if_neg known, Option.bind_some, extendWith, grownType, found, Option.bind_some,
      Option.map_eq_bind]
    refine Option.bind_congr fun grown ok => ?_
    rw [kept grown ok, if_neg known, name, Function.comp_apply, Ordered.modifyInserted absent]

theorem addTypeInlined (types : Ordered TypeDef) {node : TypeNode} {more : List TypeNode}
    (same : ∀ e ∈ more, e.name = node.name) (adds : AddsOnly node more) :
    addType types (node.inlined more) = (addType types node).bind (more.foldlM extendWith) := by
  induction more generalizing node with
  | nil => simp [TypeNode.inlined]
  | cons e rest ih =>
    obtain ⟨first, others⟩ := List.forall_mem_cons.mp same
    calc addType types (node.inlined (e :: rest))
      _ = (addType types (node.extendedBy e)).bind (rest.foldlM extendWith) := ih others adds.2
      _ = ((addType types node).bind (extendWith · e)).bind (rest.foldlM extendWith) := by
        rw [addTypeExtended types first adds.1]
      _ = (addType types node).bind ((e :: rest).foldlM extendWith) := by
        simp only [Option.bind_assoc, List.foldlM_cons, Option.bind_eq_bind]

theorem addTypeCommutes (types : Ordered TypeDef) {node e : TypeNode} (apart : node.name ≠ e.name) :
    (addType types node).bind (extendWith · e) = (extendWith types e).bind (addType · node) := by
  have later : (extendWith types e).bind (addType · node) =
      (typeOf node).toOption.bind fun t => (grownType types e).bind fun grown =>
        if types.contains t.name then none
        else some ((types.modify e.name fun _ => grown).insert t.name t) := by
    simp only [extendWith, addType, addNew, Option.bind_map, Function.comp_def, Ordered.containsModify]
    exact Option.bind_comm ..
  rw [later, addType, addNew, Option.bind_assoc]
  refine Option.bind_congr fun t built => ?_
  have other : t.name ≠ e.name := (kindOfType t (toOptionSome.mp built)).1 ▸ apart
  by_cases known : types.contains t.name = true
  · simp [known]
  · have absent : t.name ∉ types.keys := fun inside => known ((Ordered.containsIff ..).mpr inside)
    have untouched : grownType (types.insert t.name t) e = grownType types e := by
      rw [grownType, Ordered.getInsert, if_neg other.symm]
      rfl
    simp only [if_neg known, Option.bind_some, extendWith, untouched, Option.map_eq_bind,
      Ordered.insertModified absent other, Function.comp_def]

def ofType (name : String) (nodes : List TypeNode) : List TypeNode := nodes.filter (·.name == name)

def ofOthers (name : String) (nodes : List TypeNode) : List TypeNode := nodes.filter (·.name != name)

theorem extensionsSorted (name : String) (more : List TypeNode) (types : Ordered TypeDef) :
    more.foldlM extendWith types =
      ((ofType name more).foldlM extendWith types).bind ((ofOthers name more).foldlM extendWith) := by
  induction more generalizing types with
  | nil => rfl
  | cons e rest ih =>
    have unfold : (e :: rest).foldlM extendWith types =
        (extendWith types e).bind fun s => ((ofType name rest).foldlM extendWith s).bind
          ((ofOthers name rest).foldlM extendWith) := congrArg _ (funext ih)
    rw [unfold]
    by_cases own : e.name = name
    · have first : ofType name (e :: rest) = e :: ofType name rest := by simp [ofType, own]
      have others : ofOthers name (e :: rest) = ofOthers name rest := by simp [ofOthers, own]
      rw [first, others, List.foldlM_cons, Option.bind_eq_bind, Option.bind_assoc]
    · have first : ofType name (e :: rest) = ofType name rest := by simp [ofType, own]
      have others : ofOthers name (e :: rest) = e :: ofOthers name rest := by simp [ofOthers, own]
      have past : (extendWith types e).bind ((ofType name rest).foldlM extendWith) =
          ((ofType name rest).foldlM extendWith types).bind (extendWith · e) := by
        refine stepPastRun (fun f inside s => extensionsCommute s fun same => own ?_) types
        exact same.trans (beq_iff_eq.mp (List.mem_filter.mp inside).2)
      rw [first, others, ← Option.bind_assoc, past, Option.bind_assoc]
      rfl

def extensionsOf (document : Document) (name : String) : List TypeNode :=
  ofType name (extensions document)

theorem extensionsNamed {document : Document} {name : String} {e : TypeNode}
    (inside : e ∈ extensionsOf document name) : e.name = name :=
  beq_iff_eq.mp (List.mem_filter.mp inside).2

def Definition.inlined (name : String) (more : List TypeNode) : Definition → Option Definition
  | .type node => some (.type (if node.name = name then node.inlined more else node))
  | .extension node => if node.name = name then none else some (.extension node)
  | d => some d

def inlined (document : Document) (name : String) : Document :=
  document.filterMap (Definition.inlined name (extensionsOf document name))

theorem inlinedTypes (document : Document) (name : String) : typeNodes (inlined document name) =
    (typeNodes document).map fun node =>
      if node.name = name then node.inlined (extensionsOf document name) else node := by
  rw [typeNodes, inlined, List.filterMap_filterMap, typeNodes, List.map_filterMap]
  refine List.filterMap_congr fun d _ => ?_
  cases d with
  | extension node =>
    by_cases own : node.name = name <;> simp [Definition.inlined, own, Definition.typeNode?]
  | _ => rfl

theorem inlinedExtensions (document : Document) (name : String) :
    extensions (inlined document name) = ofOthers name (extensions document) := by
  rw [extensions, inlined, List.filterMap_filterMap, ofOthers, extensions, List.filter_filterMap]
  refine List.filterMap_congr fun d _ => ?_
  cases d with
  | extension node =>
    by_cases own : node.name = name <;>
      simp [Definition.inlined, own, Definition.extension?, Option.filter]
  | _ => rfl

theorem inlinedKept {α : Type} {read : Definition → Option α} (types : ∀ node, read (.type node) = none)
    (extensions : ∀ node, read (.extension node) = none) (document : Document) (name : String) :
    (inlined document name).filterMap read = document.filterMap read := by
  rw [inlined, List.filterMap_filterMap]
  refine List.filterMap_congr fun d _ => ?_
  cases d with
  | type node => simp [Definition.inlined, types]
  | extension node => by_cases own : node.name = name <;> simp [Definition.inlined, own, extensions]
  | _ => rfl

theorem definedOnce {document : Document} {node : TypeNode} (member : node ∈ typeNodes document)
    (once : (declaredNames document).count node.name = 1) :
    ∃ before after, typeNodes document = before ++ node :: after ∧
      ∀ other ∈ before ++ after, other.name ≠ node.name := by
  obtain ⟨before, after, split⟩ := List.append_of_mem member
  refine ⟨before, after, split, fun other inside same => ?_⟩
  rw [declaredNames, split] at once
  simp only [List.map_append, List.map_cons, List.count_append, List.count_cons_self] at once
  have absent : node.name ∉ (before ++ after).map (·.name) := by
    refine List.not_mem_of_count_eq_zero ?_
    rw [List.map_append, List.count_append]
    omega
  exact absent (same ▸ List.mem_map_of_mem inside)

theorem typesOfInlined {document : Document} {node : TypeNode} (member : node ∈ typeNodes document)
    (once : (declaredNames document).count node.name = 1)
    (adds : AddsOnly node (extensionsOf document node.name)) :
    typesOf (inlined document node.name) = typesOf document := by
  obtain ⟨before, after, split, others⟩ := definedOnce member once
  have apart : ∀ l : List TypeNode, (∀ n ∈ l, n ∈ before ++ after) → (l.map fun n =>
      if n.name = node.name then n.inlined (extensionsOf document node.name) else n) = l := by
    intro l inside
    exact (List.map_congr_left fun n here => if_neg (others n (inside n here))).trans (List.map_id' l)
  have moved : ∀ s, ((extensionsOf document node.name).foldlM extendWith s).bind (after.foldlM addType) =
      (after.foldlM addType s).bind ((extensionsOf document node.name).foldlM extendWith) :=
    runsCommute fun e inside n here s => ((addTypeCommutes s fun same =>
      others n (List.mem_append_right _ here) (same.trans (extensionsNamed inside))).symm)
  have declared : (typeNodes (inlined document node.name)).foldlM addType .empty =
      ((typeNodes document).foldlM addType .empty).bind
        ((extensionsOf document node.name).foldlM extendWith) := by
    rw [inlinedTypes, split, List.map_append, List.map_cons, if_pos rfl,
      apart before fun n here => List.mem_append_left _ here,
      apart after fun n here => List.mem_append_right _ here]
    simp only [List.foldlM_append, List.foldlM_cons, Option.bind_eq_bind, Option.bind_assoc,
      addTypeInlined _ (fun _ => extensionsNamed) adds, moved]
  rw [typesOf, typesOf, declared, inlinedExtensions, Option.bind_assoc]
  exact congrArg _ (funext fun types => (extensionsSorted node.name _ types).symm)

/- The positions, the order of all members and the implicit scalars are part of the model. -/
theorem inliningAgrees (document : Document) (node : TypeNode) (member : node ∈ typeNodes document)
    (once : (declaredNames document).count node.name = 1)
    (adds : AddsOnly node (extensionsOf document node.name)) :
    Agree (model document) (model (inlined document node.name)) := by
  have directives : directiveNodes (inlined document node.name) = directiveNodes document :=
    inlinedKept (fun _ => rfl) (fun _ => rfl) document node.name
  have schemas : schemaBlocks (inlined document node.name) = schemaBlocks document :=
    inlinedKept (fun _ => rfl) (fun _ => rfl) document node.name
  exact modelsAgree (typesOfInlined member once adds).symm directives.symm schemas.symm

end Inlining

section Examples

def catNode : TypeNode :=
  ⟨⟨2, 1⟩, "Cat", [], .object ["Named"] [⟨⟨2, 9⟩, "name", [], .named "String", []⟩]⟩

def catOwned : TypeNode :=
  ⟨⟨1, 1⟩, "Cat", [⟨"tag", []⟩], .object ["Owned"] [⟨⟨1, 9⟩, "owner", [], .named "ID", []⟩]⟩

def catAged : TypeNode :=
  ⟨⟨6, 1⟩, "Cat", [⟨"late", []⟩], .object [] [⟨⟨6, 9⟩, "age", [], .named "Int", []⟩]⟩

def namedNode : TypeNode :=
  ⟨⟨3, 1⟩, "Named", [], .interface [] [⟨⟨3, 9⟩, "name", [], .named "String", []⟩]⟩

def ownedNode : TypeNode :=
  ⟨⟨4, 1⟩, "Owned", [], .interface [] [⟨⟨4, 9⟩, "owner", [], .named "ID", []⟩]⟩

def namedMore : TypeNode :=
  ⟨⟨5, 1⟩, "Named", [], .interface [] [⟨⟨5, 9⟩, "alias", [], .named "ID", []⟩]⟩

def catExtended : Document :=
  [.extension catOwned, .type catNode, .type namedNode, .type ownedNode, .extension namedMore,
    .extension catAged]

def catInline : Document :=
  [.type ⟨⟨2, 1⟩, "Cat", [⟨"tag", []⟩, ⟨"late", []⟩], .object ["Named", "Owned"]
      [⟨⟨2, 9⟩, "name", [], .named "String", []⟩, ⟨⟨1, 9⟩, "owner", [], .named "ID", []⟩,
        ⟨⟨6, 9⟩, "age", [], .named "Int", []⟩]⟩,
    .type namedNode, .type ownedNode, .extension namedMore]

theorem inliningAgreesOfTwoExtensions :
    ∃ m, model catExtended = .ok m ∧ model catInline = .ok m := by
  obtain ⟨m, built, _⟩ := okOfTest (model catExtended) (fun _ => true) (by decide +kernel)
  have member : catNode ∈ typeNodes catExtended := List.mem_cons_self
  have adds : AddsOnly catNode (extensionsOf catExtended "Cat") :=
    ⟨⟨by decide, by decide⟩, ⟨by decide, by decide⟩, trivial⟩
  exact ⟨m, built, (inliningAgrees catExtended catNode member (by decide) adds).ok built⟩

end Examples

end SchemaDrift.Sdl
