import SchemaDrift.Schema.Element

/-! Named types: what every type has, and a body for each of the six kinds. Objects and interfaces
share one shape. -/
namespace SchemaDrift

inductive TypeKind where
  | scalar
  | object
  | interface
  | union
  | enum
  | inputObject
  deriving DecidableEq, Repr

def TypeKind.phrase : TypeKind → String
  | .scalar => "a Scalar type"
  | .object => "an Object type"
  | .interface => "an Interface type"
  | .union => "a Union type"
  | .enum => "an Enum type"
  | .inputObject => "an Input type"

structure ObjectShape where
  interfaces : List String
  fields : Ordered Field
  deriving Repr

inductive TypeBody where
  | scalar
  | object (shape : ObjectShape)
  | interface (shape : ObjectShape)
  | union (members : List String)
  | enum (values : List EnumValue)
  | inputObject (fields : Ordered Argument)
  deriving Repr

def TypeBody.kind : TypeBody → TypeKind
  | .scalar => .scalar
  | .object _ => .object
  | .interface _ => .interface
  | .union _ => .union
  | .enum _ => .enum
  | .inputObject _ => .inputObject

structure TypeDef where
  name : String
  location : Option Location
  directives : List AppliedDirective
  body : TypeBody
  deriving Repr

namespace TypeDef

def kind (t : TypeDef) : TypeKind := t.body.kind

def shape? (t : TypeDef) : Option ObjectShape :=
  match t.body with
  | .object shape => some shape
  | .interface shape => some shape
  | _ => none

def enumValues? (t : TypeDef) : Option (List EnumValue) :=
  match t.body with
  | .enum values => some values
  | _ => none

def mark (t : TypeDef) (directive : String) : TypeDef :=
  { t with directives := t.directives ++ [.bare directive] }

def implicitScalar (name : String) : TypeDef := ⟨name, none, [], .scalar⟩

end TypeDef

def builtInScalars : List String := ["String", "Int", "Float", "Boolean", "ID"]

def builtInDirectives : List String := ["skip", "include", "deprecated", "specifiedBy"]

/-- Types of the infrastructure: the built-in scalars and, by their leading underscores, the types
of the introspection system. -/
def isBuiltInType (name : String) : Bool :=
  ['_', '_'].isPrefixOf name.toList || builtInScalars.contains name

def isBuiltInDirective (name : String) : Bool := builtInDirectives.contains name

end SchemaDrift
