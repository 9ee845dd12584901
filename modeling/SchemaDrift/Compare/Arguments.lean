import SchemaDrift.Change
import SchemaDrift.Compare.Compatibility
import SchemaDrift.Compare.Options

/-! Arguments of fields that both versions have: gone, no longer safe to pass, with another default,
or added. A default counts as kept when both literals are the same after list coercion, each to its
own type; one that is new is no change. -/
namespace SchemaDrift.Compare

def argumentText (path argument : String) : String := inTicks path ++ " arg " ++ inTicks argument

def argumentRemoved (options : Options) (path field : String) (old : Argument) (new : Field) :
    Change :=
  { category := .argRemoved
    message := argumentText path old.name ++ " removed from schema"
    resource := qualified field old.name
    location := new.location
    wasDeprecated := options.isDeprecated old.directives
    wasRequired := none }

def becameRequired (old new : TypeRef) : Bool := new.isNonNull && !old.isNonNull

def argumentRetyped (options : Options) (path field : String) (old new : Argument) : Change :=
  { category := if becameRequired old.type new.type then .argBecameRequired else .argChangedKind
    message := argumentText path old.name ++ " changed type from " ++ inTicks old.type.text ++
      " to " ++ inTicks new.type.text
    resource := qualified field old.name
    location := new.location
    wasDeprecated := options.isDeprecated old.directives
    wasRequired := some (options.isMarkedRequired old.directives) }

def keepsDefault (old new : Argument) : Bool :=
  match old.default, new.default with
  | none, _ => true
  | some _, none => false
  | some d, some e => (d.literal.coerce old.type).same (e.literal.coerce new.type)

def defaultChanged (options : Options) (path field : String) (old new : Argument) : Change :=
  { category := .argDefaultValueChange
    message := argumentText path old.name ++ " has changed defaultValue"
    resource := qualified field old.name
    location := new.location
    wasDeprecated := options.isDeprecated old.directives
    wasRequired := none }

def argumentChange (options : Options) (path field : String) (new : Field) (old : Argument) :
    List Change :=
  match argumentNamed? new.arguments old.name with
  | none => [argumentRemoved options path field old new]
  | some kept =>
    if !inputSafe old.type kept.type then [argumentRetyped options path field old kept]
    else if keepsDefault old kept then []
    else [defaultChanged options path field old kept]

def argumentAdded (path : String) (new : Argument) : Change :=
  { category := if new.isRequired then .requiredArgAdded else .optionalArgAdded
    message := (if new.isRequired then "A required" else "An optional") ++ " arg " ++
      inTicks new.name ++ " on " ++ inTicks path ++ " was added"
    resource := path
    location := new.location
    wasDeprecated := false
    wasRequired := none }

def addedArguments (path : String) (old new : Field) : List Change :=
  (new.arguments.filter fun a => (argumentNamed? old.arguments a.name).isNone).map
    (argumentAdded path)

def fieldArgumentChanges (options : Options) (owner : String) (newFields : Ordered Field) :
    String × Field → List Change
  | (name, old) =>
    match newFields.get? name with
    | none => []
    | some new =>
      let path := qualified owner name
      old.arguments.flatMap (argumentChange options path name new) ++ addedArguments path old new

def argumentsChanged (options : Options) : TypeDef → TypeDef → List Change :=
  onShapes fun o _ os ns => os.fields.entries.flatMap (fieldArgumentChanges options o.name ns.fields)

def argumentChanges (old new : Model) (options : Options) : List Change :=
  overPairs old new (argumentsChanged options)

end SchemaDrift.Compare
