import SchemaDrift.Change
import SchemaDrift.Compare.Compatibility
import SchemaDrift.Compare.Options

/-! Fields of objects and interfaces that are gone or whose type is no longer safe to read. The two
changes are shared with fields of input objects. -/
namespace SchemaDrift.Compare

def fieldRemoved (resource : String) (location : Option Location) (deprecated : Bool) : Change :=
  { category := .fieldRemoved
    message := inTicks resource ++ " removed from schema"
    resource
    location
    wasDeprecated := deprecated
    wasRequired := none }

def fieldRetyped (resource : String) (old new : TypeRef) (location : Option Location)
    (deprecated : Bool) : Change :=
  { category := .fieldChangedKind
    message := "Field " ++ inTicks resource ++ " changed type from " ++ inTicks old.text ++ " to " ++
      inTicks new.text
    resource
    location
    wasDeprecated := deprecated
    wasRequired := none }

def fieldChange (options : Options) (owner : String) (newFields : Ordered Field) :
    String × Field → List Change
  | (name, old) =>
    let resource := qualified owner name
    let deprecated := options.isDeprecated old.directives
    match newFields.get? name with
    | none => [fieldRemoved resource old.location deprecated]
    | some new =>
      if outputSafe old.type new.type then []
      else [fieldRetyped resource old.type new.type new.location deprecated]

def fieldsChanged (options : Options) : TypeDef → TypeDef → List Change := onShapes fun o _ os ns =>
  os.fields.entries.flatMap (fieldChange options o.name ns.fields)

def fieldChanges (old new : Model) (options : Options) : List Change :=
  overPairs old new (fieldsChanged options)

end SchemaDrift.Compare
