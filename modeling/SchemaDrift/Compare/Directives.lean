import SchemaDrift.Change
import SchemaDrift.Compare.Options

/-! Directive definitions that are gone, lost an argument or a place, or now require an argument.
Built-in directives are passed over. -/
namespace SchemaDrift.Compare

def directiveRemoved (resource : String) : Change :=
  { category := .directiveRemoved
    message := inTicks resource ++ " removed from schema"
    resource
    location := none
    wasDeprecated := false
    wasRequired := none }

def droppedFrom (dropped resource : String) : String :=
  inTicks dropped ++ " was removed from " ++ inTicks resource

def directiveArgumentRemoved (options : Options) (resource : String) (new : DirectiveDef)
    (old : Argument) : Change :=
  { category := .directiveArgRemoved
    message := droppedFrom old.name resource
    resource := qualified resource old.name
    location := new.location
    wasDeprecated := options.isDeprecated old.directives
    wasRequired := none }

def directiveArgumentAdded (resource : String) (new : Argument) : Change :=
  { category := .requiredDirectiveArgAdded
    message := "A required arg " ++ inTicks new.name ++ " on directive " ++ inTicks resource ++
      " was added"
    resource := qualified resource new.name
    location := new.location
    wasDeprecated := false
    wasRequired := none }

def siteRemoved (resource : String) (new : DirectiveDef) (site : String) : Change :=
  { category := .directiveLocationRemoved
    message := droppedFrom site resource
    resource
    location := new.location
    wasDeprecated := false
    wasRequired := none }

def directivePairChanges (options : Options) (resource : String) (old new : DirectiveDef) :
    List Change :=
  (old.arguments.filter fun a => (argumentNamed? new.arguments a.name).isNone).map
      (directiveArgumentRemoved options resource new) ++
    (new.arguments.filter fun a =>
      a.isRequired && (argumentNamed? old.arguments a.name).isNone).map
      (directiveArgumentAdded resource) ++
    (old.sites.filter fun s => !new.sites.contains s).map (siteRemoved resource new)

def directiveChange (options : Options) (new : Model) (old : DirectiveDef) : List Change :=
  if isBuiltInDirective old.name then []
  else
    let resource := "@" ++ old.name
    match new.directive? old.name with
    | none => [directiveRemoved resource]
    | some kept => directivePairChanges options resource old kept

def directiveChanges (old new : Model) (options : Options) : List Change :=
  old.directiveList.flatMap (directiveChange options new)

end SchemaDrift.Compare
