import Mathlib.Data.Option.Basic
import SchemaDrift.Proofs.Sdl.Declarations

/-! Types, directive definitions, schema blocks and extensions of a document as streams of their own.
The model depends on each stream alone, not on how they interleave, and extensions of two types may be
exchanged. Which error a document ends with may depend on the interleaving; whether it does not. -/
namespace SchemaDrift.Sdl

def Definition.directiveNode? : Definition → Option DirectiveNode
  | .directive node => some node
  | _ => none

def Definition.schemaBlock? : Definition → Option (RootOperations × List DirectiveUse)
  | .schema roots directives => some (roots, directives)
  | _ => none

def Definition.extension? : Definition → Option TypeNode
  | .extension node => some node
  | _ => none

def directiveNodes (document : Document) : List DirectiveNode :=
  document.filterMap Definition.directiveNode?

def schemaBlocks (document : Document) : List (RootOperations × List DirectiveUse) :=
  document.filterMap Definition.schemaBlock?

def extensions (document : Document) : List TypeNode := document.filterMap Definition.extension?

section Streams

def addNew {α β : Type} (convert : α → Outcome β) (name : β → String) (store : Ordered β) (x : α) :
    Option (Ordered β) :=
  (convert x).toOption.bind fun b =>
    if store.contains (name b) then none else some (store.insert (name b) b)

def addType : Ordered TypeDef → TypeNode → Option (Ordered TypeDef) := addNew typeOf TypeDef.name

def addDirective : Ordered DirectiveDef → DirectiveNode → Option (Ordered DirectiveDef) :=
  addNew directiveOf DirectiveDef.name

def grownType (types : Ordered TypeDef) (node : TypeNode) : Option TypeDef :=
  (types.get? node.name).bind fun t => (extendType t node).toOption

def extendWith (types : Ordered TypeDef) (node : TypeNode) : Option (Ordered TypeDef) :=
  (grownType types node).map fun grown => types.modify node.name fun _ => grown

def lastRoots (before : RootOperations) (blocks : List (RootOperations × List DirectiveUse)) :
    RootOperations :=
  blocks.foldl (fun _ block => block.1) before

theorem declareType (m : Model) (node : TypeNode) : (declare m (.type node)).toOption =
    (addType m.types node).map fun types => { m with types } := by
  rw [declare, toOptionBind, addType, addNew, Option.map_bind]
  refine congrArg _ (funext fun t => ?_)
  by_cases known : m.types.contains t.name
  · simp [Model.hasType, known, Except.toOption]
  · simp [Model.hasType, Model.insertType, known, Except.toOption]

theorem declareDirective (m : Model) (node : DirectiveNode) :
    (declare m (.directive node)).toOption =
      (addDirective m.directives node).map fun directives => { m with directives } := by
  rw [declare, toOptionBind, addDirective, addNew, Option.map_bind]
  refine congrArg _ (funext fun d => ?_)
  by_cases known : m.directives.contains d.name
  · simp [known, Except.toOption]
  · simp [Model.insertDirective, known, Except.toOption]

theorem declaredStreams (document : Document) (m : Model) :
    (document.foldlM declare m).toOption =
      ((typeNodes document).foldlM addType m.types).bind fun types =>
        ((directiveNodes document).foldlM addDirective m.directives).map fun directives =>
          ⟨types, directives, lastRoots m.roots (schemaBlocks document)⟩ := by
  induction document generalizing m with
  | nil => rfl
  | cons d rest ih =>
    rw [List.foldlM_cons, toOptionBind]
    simp only [ih]
    cases d with
    | schema roots uses => rfl
    | extension node => rfl
    | type node =>
      have types : typeNodes (.type node :: rest) = node :: typeNodes rest := rfl
      rw [declareType, types, List.foldlM_cons]
      cases addType m.types node <;> rfl
    | directive node =>
      have directives : directiveNodes (.directive node :: rest) = node :: directiveNodes rest := rfl
      have types : typeNodes (.directive node :: rest) = typeNodes rest := rfl
      rw [declareDirective, directives, types, List.foldlM_cons]
      cases addDirective m.directives node with
      | none => simp
      | some directives => rfl

theorem extendExtension (m : Model) (node : TypeNode) : (extend m (.extension node)).toOption =
    (extendWith m.types node).map fun types => { m with types } := by
  simp only [extend, extendWith, grownType, Model.type?]
  cases m.types.get? node.name with
  | none => rfl
  | some t =>
    rw [toOptionBind, Option.bind_some]
    cases (extendType t node).toOption <;> rfl

theorem extendedStream (document : Document) (m : Model) :
    (document.foldlM extend m).toOption =
      ((extensions document).foldlM extendWith m.types).map fun types => { m with types } := by
  induction document generalizing m with
  | nil => rfl
  | cons d rest ih =>
    rw [List.foldlM_cons, toOptionBind]
    simp only [ih]
    cases d with
    | extension node =>
      have nodes : extensions (.extension node :: rest) = node :: extensions rest := rfl
      rw [extendExtension, nodes, List.foldlM_cons]
      cases extendWith m.types node <;> rfl
    | _ => rfl

def typesOf (document : Document) : Option (Ordered TypeDef) :=
  ((typeNodes document).foldlM addType .empty).bind ((extensions document).foldlM extendWith)

def directivesOf (document : Document) : Option (Ordered DirectiveDef) :=
  (directiveNodes document).foldlM addDirective .empty

theorem modelStreams (document : Document) : (model document).toOption =
    (typesOf document).bind fun types => (directivesOf document).bind fun directives =>
      (resolve ⟨types, directives, lastRoots .unset (schemaBlocks document)⟩).toOption := by
  have converts : (converted document).toOption = (typesOf document).bind fun types =>
      (directivesOf document).map fun directives =>
        ⟨types, directives, lastRoots .unset (schemaBlocks document)⟩ := by
    simp only [converted, toOptionBind, declaredStreams, extendedStream, typesOf, directivesOf,
      Model.empty]
    cases (typeNodes document).foldlM addType .empty with
    | none => rfl
    | some types =>
      cases (directiveNodes document).foldlM addDirective .empty with
      | none => simp
      | some directives => simp [Option.map_eq_bind]
  rw [modelConverted, toOptionBind, converts, Option.bind_assoc]
  exact congrArg _ (funext fun types => Option.bind_map ..)

theorem grownApart (types : Ordered TypeDef) {key : String} {node : TypeNode} (apart : node.name ≠ key)
    (f : TypeDef → TypeDef) : grownType (types.modify key f) node = grownType types node := by
  rw [grownType, Ordered.getModify, if_neg apart]
  rfl

/- Each sees its own type as the other one leaves it, untouched. -/
theorem extensionsCommute (types : Ordered TypeDef) {a b : TypeNode} (apart : a.name ≠ b.name) :
    (extendWith types a).bind (extendWith · b) = (extendWith types b).bind (extendWith · a) := by
  have first : (extendWith types a).bind (extendWith · b) =
      (grownType types a).bind fun t => (grownType types b).map fun u =>
        (types.modify a.name fun _ => t).modify b.name fun _ => u := by
    simp only [extendWith, Option.bind_map, Function.comp_def, grownApart types apart.symm]
  have second : (extendWith types b).bind (extendWith · a) =
      (grownType types b).bind fun u => (grownType types a).map fun t =>
        (types.modify b.name fun _ => u).modify a.name fun _ => t := by
    simp only [extendWith, Option.bind_map, Function.comp_def, grownApart types apart]
  rw [first, second]
  simp only [Option.map_eq_bind, Ordered.modifyComm _ apart.symm]
  exact Option.bind_comm ..

end Streams

/- The same definitions of each kind, each kind in its order; extensions are left open. -/
structure SameDefinitions (document other : Document) : Prop where
  types : typeNodes document = typeNodes other
  directives : directiveNodes document = directiveNodes other
  schemas : schemaBlocks document = schemaBlocks other

section Interleavings
variable {document other : Document}

theorem modelsAgree (types : typesOf document = typesOf other)
    (directives : directiveNodes document = directiveNodes other)
    (schemas : schemaBlocks document = schemaBlocks other) : Agree (model document) (model other) := by
  rw [agreeIff, modelStreams, modelStreams, types, directivesOf, directivesOf, directives, schemas]

theorem typesOfStreams (same : SameDefinitions document other)
    (extended : extensions document = extensions other) : typesOf document = typesOf other := by
  rw [typesOf, typesOf, same.types, extended]

theorem typesOfExchanged (same : SameDefinitions document other) {before after : List TypeNode}
    {a b : TypeNode} (apart : a.name ≠ b.name) (first : extensions document = before ++ a :: b :: after)
    (second : extensions other = before ++ b :: a :: after) : typesOf document = typesOf other := by
  rw [typesOf, typesOf, same.types, first, second]
  refine congrArg _ (funext fun declared => ?_)
  rw [List.foldlM_append, List.foldlM_append]
  refine congrArg _ (funext fun types => ?_)
  calc (a :: b :: after).foldlM extendWith types
    _ = ((extendWith types a).bind (extendWith · b)).bind (after.foldlM extendWith) := by
      simp only [List.foldlM_cons, Option.bind_eq_bind, Option.bind_assoc]
    _ = ((extendWith types b).bind (extendWith · a)).bind (after.foldlM extendWith) := by
      rw [extensionsCommute types apart]
    _ = (b :: a :: after).foldlM extendWith types := by
      simp only [List.foldlM_cons, Option.bind_eq_bind, Option.bind_assoc]

end Interleavings

/- The exchanged extensions follow each other among the extensions; other definitions may stand
between them. -/
theorem interleavingUndecisive (document other : Document) (same : SameDefinitions document other) :
    (extensions document = extensions other → Agree (model document) (model other)) ∧
    ∀ before a b after, extensions document = before ++ a :: b :: after →
      extensions other = before ++ b :: a :: after → a.name ≠ b.name →
      ∀ m, model document = .ok m → model other = .ok m := by
  refine ⟨fun extended => modelsAgree (typesOfStreams same extended) same.directives same.schemas, ?_⟩
  intro before a b after first second apart m built
  exact (modelsAgree (typesOfExchanged same apart first second) same.directives same.schemas).ok built

section Examples

def queryNode : TypeNode :=
  ⟨⟨1, 1⟩, "Query", [], .object [] [⟨⟨1, 9⟩, "a", [], .named "Color", []⟩]⟩

def colorNode : TypeNode := ⟨⟨2, 1⟩, "Color", [], .enum [⟨⟨2, 9⟩, "RED", []⟩]⟩

def queryMore : TypeNode :=
  ⟨⟨3, 1⟩, "Query", [], .object [] [⟨⟨3, 9⟩, "b", [], .named "ID", []⟩]⟩

def colorMore : TypeNode := ⟨⟨4, 1⟩, "Color", [], .enum [⟨⟨4, 9⟩, "GREEN", []⟩]⟩

def tagNode : DirectiveNode := ⟨⟨5, 1⟩, "tag", [], false, ["OBJECT"]⟩

def queryRoot : RootOperations := ⟨some "Query", none, none⟩

def definitionsFirst : Document :=
  [.type queryNode, .type colorNode, .directive tagNode, .schema queryRoot [], .extension queryMore,
    .extension colorMore]

def extensionsFirst : Document :=
  [.extension queryMore, .schema queryRoot [], .extension colorMore, .directive tagNode,
    .type queryNode, .type colorNode]

def extensionsExchanged : Document :=
  [.type queryNode, .type colorNode, .directive tagNode, .schema queryRoot [], .extension colorMore,
    .extension queryMore]

def undeclaredColor : Document := [.type queryNode, .extension queryMore]

theorem interleavingUndecisiveOfTwoTypes :
    (∃ m, model definitionsFirst = .ok m ∧ model extensionsFirst = .ok m ∧
      model extensionsExchanged = .ok m) ∧
    (∃ e, model undeclaredColor = .error e) ∧ ∃ e, model undeclaredColor.reverse = .error e := by
  obtain ⟨m, built, _⟩ := okOfTest (model definitionsFirst) (fun _ => true) (by decide +kernel)
  have unknown : (model undeclaredColor).isOk = false := by decide +kernel
  cases failed : model undeclaredColor with
  | ok n =>
    rw [failed] at unknown
    contradiction
  | error e =>
    have reordered := (interleavingUndecisive definitionsFirst extensionsFirst ⟨rfl, rfl, rfl⟩).1 rfl
    have exchanged := (interleavingUndecisive definitionsFirst extensionsExchanged ⟨rfl, rfl, rfl⟩).2
      [] queryMore colorMore [] rfl rfl (by decide)
    have reversed := (interleavingUndecisive undeclaredColor undeclaredColor.reverse ⟨rfl, rfl, rfl⟩).1 rfl
    exact ⟨⟨m, built, reordered.ok built, exchanged m built⟩, ⟨e, rfl⟩, reversed.error failed⟩

end Examples

end SchemaDrift.Sdl
