import SchemaDrift.Compare.Unions

/-! Interfaces that objects and interfaces of both versions no longer implement or now do. -/
namespace SchemaDrift.Compare

def interfaceRemoved (old new : TypeDef) (interface : String) : Change :=
  changeAt new .interfaceRemovedFromObject
    (inTicks old.name ++ " no longer implements interface " ++ inTicks interface) old.name

def interfaceAdded (new : TypeDef) (interface : String) : Change :=
  changeAt new .interfaceAddedToObject
    (inTicks interface ++ " added to interfaces implemented by " ++ inTicks new.name) new.name

def interfacesChanged : TypeDef → TypeDef → List Change := onShapes fun o n os ns =>
  (missingFrom os.interfaces ns.interfaces).map (interfaceRemoved o n) ++
    (missingFrom ns.interfaces os.interfaces).map (interfaceAdded n)

def interfaceChanges (old new : Model) : List Change := overPairs old new interfacesChanged

end SchemaDrift.Compare
