import SchemaDrift.Change
import SchemaDrift.Compare.Options

/-! Members that unions of both versions lost or gained. -/
namespace SchemaDrift.Compare

def changeAt (new : TypeDef) (category : Category) (message resource : String) : Change :=
  { category, message, resource, location := new.location, wasDeprecated := false
    wasRequired := none }

def missingFrom (names others : List String) : List String := names.filter fun n => !others.contains n

def memberRemoved (old new : TypeDef) (member : String) : Change :=
  changeAt new .typeRemovedFromUnion
    (inTicks member ++ " was removed from union type " ++ inTicks old.name)
    (qualified old.name member)

def memberAdded (new : TypeDef) (member : String) : Change :=
  changeAt new .typeAddedToUnion (inTicks member ++ " was added to union type " ++ inTicks new.name)
    (qualified new.name member)

def membersChanged (old new : TypeDef) : List Change :=
  match old.body, new.body with
  | .union before, .union after =>
    (missingFrom before after).map (memberRemoved old new) ++
      (missingFrom after before).map (memberAdded new)
  | _, _ => []

def unionChanges (old new : Model) : List Change := overPairs old new membersChanged

end SchemaDrift.Compare
