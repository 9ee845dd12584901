import SchemaDrift.Proofs.Sdl.DocumentModel

/-! The types that a document defines. Definitions enter the model in document order, and neither
directive definitions nor extensions change which types there are, of what kind or where defined. -/
namespace SchemaDrift

def TypeDef.outline (t : TypeDef) : String × TypeKind × Option Location := (t.name, t.kind, t.location)

def Model.outlines (m : Model) : List (String × TypeKind × Option Location) :=
  m.typeList.map TypeDef.outline

namespace Sdl

def TypeNode.outline (node : TypeNode) : String × TypeKind × Option Location :=
  (node.name, node.members.kind, some node.position)

def Definition.typeNode? : Definition → Option TypeNode
  | .type node => some node
  | _ => none

def typeNodes (document : Document) : List TypeNode := document.filterMap Definition.typeNode?

theorem bodyKind (owner : String) (members : Members) :
    Gives (bodyOf owner members) fun body => body.kind = members.kind := by
  cases members with
  | scalar => exact givesOk rfl
  | union members => exact givesOk rfl
  | _ => exact givesThen fun _ => givesOk rfl

theorem typeOutline (node : TypeNode) : Gives (typeOf node) fun t => t.outline = node.outline := by
  refine givesThen fun _ => ?_
  refine givesBind (bodyKind node.name node.members) fun body kind => givesOk ?_
  simp only [TypeDef.outline, TypeDef.kind, TypeNode.outline, kind]

theorem declareOutlines (m : Model) (d : Definition) : Gives (declare m d) fun n =>
    n.outlines = m.outlines ++ (typeNodes [d]).map TypeNode.outline := by
  cases d with
  | schema roots uses => exact givesOk (List.append_nil _).symm
  | extension node => exact givesOk (List.append_nil _).symm
  | directive node =>
    refine givesThen fun _ => ?_
    split
    · exact givesError
    · exact givesOk (List.append_nil _).symm
  | type node =>
    refine givesBind (typeOutline node) fun t outline => ?_
    split
    case isTrue => exact givesError
    case isFalse absent =>
      refine givesOk ?_
      rw [Model.outlines, Model.typeList, Model.insertType, Ordered.valuesInsertNew absent,
        List.map_append, List.map_singleton, outline]
      rfl

theorem declaredOutlines (document : Document) (m : Model) : Gives (document.foldlM declare m) fun n =>
    n.outlines = m.outlines ++ (typeNodes document).map TypeNode.outline := by
  induction document generalizing m with
  | nil => exact givesOk (List.append_nil _).symm
  | cons d rest ih =>
    rw [List.foldlM_cons]
    refine givesBind (declareOutlines m d) fun n first => givesMono (ih n) fun k later => ?_
    rw [later, first, List.append_assoc, ← List.map_append]
    exact congrArg _ (congrArg _ List.filterMap_append.symm)

theorem extendedKind {owner : String} {body : TypeBody} {members : Members} :
    Gives (extendBody owner body members) fun c => c.kind = body.kind := by
  unfold extendBody
  split
  · exact givesOk rfl
  · exact givesThen fun _ => givesOk rfl
  · exact givesThen fun _ => givesOk rfl
  · exact givesOk rfl
  · exact givesThen fun _ => givesOk rfl
  · refine givesThen fun _ => ?_
    exact givesThen fun _ => givesOk rfl
  · exact givesError

theorem extendedOutline (t : TypeDef) (node : TypeNode) :
    Gives (extendType t node) fun u => u.outline = t.outline := by
  unfold extendType
  split
  · exact givesError
  · refine givesThen fun _ => ?_
    refine givesBind extendedKind fun body kind => givesOk ?_
    simp only [TypeDef.outline, TypeDef.kind, kind]

theorem extendOutlines (m : Model) (d : Definition) :
    Gives (extend m d) fun n => n.outlines = m.outlines := by
  cases d with
  | extension node =>
    unfold extend
    simp only
    split
    · exact givesError
    · rename_i t found
      refine givesBind (extendedOutline t node) fun u outline => givesOk ?_
      refine Ordered.mapValuesModify TypeDef.outline fun old present => ?_
      cases found.symm.trans present
      exact outline
  | _ => exact givesOk rfl

theorem convertedOutlines (document : Document) :
    Gives (converted document) fun m => m.outlines = (typeNodes document).map TypeNode.outline := by
  refine givesBind (declaredOutlines document Model.empty) fun m declared => ?_
  exact givesFoldlM declared fun d _ n kept => givesMono (extendOutlines n d) fun _ same => same.trans kept

end Sdl
end SchemaDrift
