import SchemaDrift.Change
import SchemaDrift.Compare.Options

/-! Types that are gone and types that became another kind. Types of the infrastructure are passed
over. -/
namespace SchemaDrift.Compare

def typeRemoved (options : Options) (old : TypeDef) : Change :=
  { category := .typeRemoved
    message := inTicks old.name ++ " removed from schema"
    resource := old.name
    location := none
    wasDeprecated := options.isDeprecated old.directives
    wasRequired := none }

def removedTypes (old new : Model) (options : Options) : List Change :=
  (old.typeList.filter fun t => !isBuiltInType t.name && !new.hasType t.name).map
    (typeRemoved options)

def kindChange (options : Options) (old new : TypeDef) : Change :=
  { category := .typeChangedKind
    message := inTicks old.name ++ " changed from " ++ old.kind.phrase ++ " to " ++ new.kind.phrase
    resource := old.name
    location := new.location
    wasDeprecated := options.isDeprecated old.directives
    wasRequired := none }

def kindChanged (options : Options) (old new : TypeDef) : List Change :=
  if !isBuiltInType old.name && old.kind != new.kind then [kindChange options old new] else []

def changedKinds (old new : Model) (options : Options) : List Change :=
  overPairs old new (kindChanged options)

end SchemaDrift.Compare
