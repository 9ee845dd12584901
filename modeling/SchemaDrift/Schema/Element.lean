import SchemaDrift.Location
import SchemaDrift.Ordered
import SchemaDrift.Schema.Literal

/-! Elements of a schema: applied directives and what carries them below the types. A marker is the
name of an applied directive that the comparison asks about. -/
namespace SchemaDrift

structure AppliedDirective where
  name : String
  arguments : Ordered Constant
  deriving Repr

def AppliedDirective.bare (name : String) : AppliedDirective := ⟨name, .empty⟩

def hasMarker (directives : List AppliedDirective) (marker : String) : Bool :=
  directives.any (·.name == marker)

def deprecatedMarker : String := "deprecated"

def requiredMarker : String := "required"

/-- An argument of a field or directive, or a field of an input object. Without a default there is
`none`; a default of null is `some .null`. -/
structure Argument where
  name : String
  type : TypeRef
  default : Option Constant
  location : Option Location
  directives : List AppliedDirective
  deriving Repr

namespace Argument

def isRequired (a : Argument) : Bool := a.type.isNonNull && a.default.isNone

end Argument

structure Field where
  name : String
  type : TypeRef
  arguments : List Argument
  location : Option Location
  directives : List AppliedDirective
  deriving Repr

def argumentNamed? (arguments : List Argument) (name : String) : Option Argument :=
  arguments.find? (·.name == name)

structure EnumValue where
  name : String
  location : Option Location
  directives : List AppliedDirective
  deriving Repr

def enumValueNamed? (values : List EnumValue) (name : String) : Option EnumValue :=
  values.find? (·.name == name)

structure DirectiveDef where
  name : String
  location : Option Location
  arguments : List Argument
  sites : List String
  repeatable : Bool
  deriving Repr

end SchemaDrift
