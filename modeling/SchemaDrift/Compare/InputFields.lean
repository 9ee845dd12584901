import SchemaDrift.Compare.Fields

/-! Fields that input objects of both versions lost, retyped or gained. Their types are judged as
clients pass them. -/
namespace SchemaDrift.Compare

def inputFieldChange (options : Options) (owner : String) (newFields : Ordered Argument) :
    String × Argument → List Change
  | (name, old) =>
    let resource := qualified owner name
    let deprecated := options.isDeprecated old.directives
    match newFields.get? name with
    | none => [fieldRemoved resource old.location deprecated]
    | some new =>
      if inputSafe old.type new.type then []
      else [fieldRetyped resource old.type new.type new.location deprecated]

def inputFieldAdded (owner : String) : String × Argument → Change
  | (name, new) =>
    { category := if new.isRequired then .requiredInputFieldAdded else .optionalInputFieldAdded
      message := (if new.isRequired then "A required" else "An optional") ++ " field " ++
        inTicks name ++ " on input type " ++ inTicks owner ++ " was added"
      resource := qualified owner name
      location := new.location
      wasDeprecated := false
      wasRequired := none }

def inputFieldsChanged (options : Options) (old new : TypeDef) : List Change :=
  match old.body, new.body with
  | .inputObject before, .inputObject after =>
    before.entries.flatMap (inputFieldChange options old.name after) ++
      (after.entries.filter fun e => !before.contains e.1).map (inputFieldAdded new.name)
  | _, _ => []

def inputFieldChanges (old new : Model) (options : Options) : List Change :=
  overPairs old new (inputFieldsChanged options)

end SchemaDrift.Compare
