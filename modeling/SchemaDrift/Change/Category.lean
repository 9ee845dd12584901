/-! Kinds of schema change by what they do to clients: breaking ones make a request fail that worked
before, dangerous ones may change what a request means. The order of `all` is the order in which
categories are listed. -/
namespace SchemaDrift

inductive Severity where
  | breaking
  | dangerous
  deriving DecidableEq, Repr

def Severity.name : Severity → String
  | .breaking => "breaking"
  | .dangerous => "dangerous"

inductive Category where
  | typeChangedKind
  | typeRemoved
  | typeRemovedFromUnion
  | fieldChangedKind
  | fieldRemoved
  | requiredInputFieldAdded
  | interfaceRemovedFromObject
  | valueRemovedFromEnum
  | argRemoved
  | argChangedKind
  | argBecameRequired
  | requiredArgAdded
  | directiveRemoved
  | directiveArgRemoved
  | requiredDirectiveArgAdded
  | directiveLocationRemoved
  | argDefaultValueChange
  | valueAddedToEnum
  | interfaceAddedToObject
  | typeAddedToUnion
  | optionalInputFieldAdded
  | optionalArgAdded
  deriving DecidableEq, Hashable, Repr

namespace Category

def all : List Category :=
  [.typeChangedKind, .typeRemoved, .typeRemovedFromUnion, .fieldChangedKind, .fieldRemoved,
   .requiredInputFieldAdded, .interfaceRemovedFromObject, .valueRemovedFromEnum, .argRemoved,
   .argChangedKind, .argBecameRequired, .requiredArgAdded, .directiveRemoved, .directiveArgRemoved,
   .requiredDirectiveArgAdded, .directiveLocationRemoved, .argDefaultValueChange, .valueAddedToEnum,
   .interfaceAddedToObject, .typeAddedToUnion, .optionalInputFieldAdded, .optionalArgAdded]

def name : Category → String
  | .typeChangedKind => "TYPE_CHANGED_KIND"
  | .typeRemoved => "TYPE_REMOVED"
  | .typeRemovedFromUnion => "TYPE_REMOVED_FROM_UNION"
  | .fieldChangedKind => "FIELD_CHANGED_KIND"
  | .fieldRemoved => "FIELD_REMOVED"
  | .requiredInputFieldAdded => "REQUIRED_INPUT_FIELD_ADDED"
  | .interfaceRemovedFromObject => "INTERFACE_REMOVED_FROM_OBJECT"
  | .valueRemovedFromEnum => "VALUE_REMOVED_FROM_ENUM"
  | .argRemoved => "ARG_REMOVED"
  | .argChangedKind => "ARG_CHANGED_KIND"
  | .argBecameRequired => "ARG_BECAME_REQUIRED"
  | .requiredArgAdded => "REQUIRED_ARG_ADDED"
  | .directiveRemoved => "DIRECTIVE_REMOVED"
  | .directiveArgRemoved => "DIRECTIVE_ARG_REMOVED"
  | .requiredDirectiveArgAdded => "REQUIRED_DIRECTIVE_ARG_ADDED"
  | .directiveLocationRemoved => "DIRECTIVE_LOCATION_REMOVED"
  | .argDefaultValueChange => "ARG_DEFAULT_VALUE_CHANGE"
  | .valueAddedToEnum => "VALUE_ADDED_TO_ENUM"
  | .interfaceAddedToObject => "INTERFACE_ADDED_TO_OBJECT"
  | .typeAddedToUnion => "TYPE_ADDED_TO_UNION"
  | .optionalInputFieldAdded => "OPTIONAL_INPUT_FIELD_ADDED"
  | .optionalArgAdded => "OPTIONAL_ARG_ADDED"

def severity : Category → Severity
  | .argDefaultValueChange => .dangerous
  | .valueAddedToEnum => .dangerous
  | .interfaceAddedToObject => .dangerous
  | .typeAddedToUnion => .dangerous
  | .optionalInputFieldAdded => .dangerous
  | .optionalArgAdded => .dangerous
  | _ => .breaking

def isBreaking (c : Category) : Bool := c.severity == .breaking

def parse? (s : String) : Option Category := all.find? (·.name == s)

def unknownMessage (s : String) : String := "unknown change category: " ++ s

theorem memAll (c : Category) : c ∈ all := by cases c <;> decide

end Category
end SchemaDrift
