import SchemaDrift.Change
import SchemaDrift.Compare.Options

/-! Values that enums of both versions lost or gained. -/
namespace SchemaDrift.Compare

def onEnums (changes : TypeDef → TypeDef → List EnumValue → List EnumValue → List Change)
    (old new : TypeDef) : List Change :=
  match old.body, new.body with
  | .enum before, .enum after => changes old new before after
  | _, _ => []

def valueRemoved (options : Options) (old new : TypeDef) (value : EnumValue) : Change :=
  { category := .valueRemovedFromEnum
    message := "Value " ++ inTicks value.name ++ " removed from enum " ++ inTicks old.name
    resource := qualified old.name value.name
    location := new.location
    wasDeprecated := options.isDeprecated value.directives
    wasRequired := none }

def valuesRemoved (options : Options) : TypeDef → TypeDef → List Change :=
  onEnums fun o n before after =>
    (before.filter fun v => !after.any (·.name == v.name)).map (valueRemoved options o n)

def removedValues (old new : Model) (options : Options) : List Change :=
  overPairs old new (valuesRemoved options)

def valueAdded (new : TypeDef) (value : EnumValue) : Change :=
  { category := .valueAddedToEnum
    message := inTicks value.name ++ " was added to enum type " ++ inTicks new.name
    resource := qualified new.name value.name
    location := value.location
    wasDeprecated := false
    wasRequired := none }

def valuesAdded : TypeDef → TypeDef → List Change := onEnums fun _ n before after =>
  (after.filter fun v => (enumValueNamed? before v.name).isNone).map (valueAdded n)

def addedValues (old new : Model) : List Change := overPairs old new valuesAdded

end SchemaDrift.Compare
