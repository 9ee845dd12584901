import SchemaDrift.Proofs.Ordered
import SchemaDrift.Schema.Model

/-! Models without their annotations: positions, applied directives, root operations, whether a
directive may repeat, and the scalars of built-in names, which documents need not declare. Two
models differ in nothing else if the same is left of both. -/
namespace SchemaDrift

def Argument.stripped (a : Argument) : Argument := { a with location := none, directives := [] }

def Field.stripped (f : Field) : Field :=
  { f with arguments := f.arguments.map Argument.stripped, location := none, directives := [] }

def EnumValue.stripped (v : EnumValue) : EnumValue := { v with location := none, directives := [] }

def DirectiveDef.stripped (d : DirectiveDef) : DirectiveDef :=
  { d with location := none, arguments := d.arguments.map Argument.stripped, repeatable := false }

def ObjectShape.stripped (s : ObjectShape) : ObjectShape :=
  { s with fields := s.fields.map Field.stripped }

def TypeBody.stripped : TypeBody → TypeBody
  | .scalar => .scalar
  | .object shape => .object shape.stripped
  | .interface shape => .interface shape.stripped
  | .union members => .union members
  | .enum values => .enum (values.map EnumValue.stripped)
  | .inputObject fields => .inputObject (fields.map Argument.stripped)

namespace TypeDef

def stripped (t : TypeDef) : TypeDef :=
  { t with location := none, directives := [], body := t.body.stripped }

def isBuiltInScalar (t : TypeDef) : Bool := isBuiltInType t.name && t.kind == .scalar

end TypeDef

def Model.stripped (m : Model) : Model where
  types := (m.types.filter fun t => !t.isBuiltInScalar).map TypeDef.stripped
  directives := m.directives.map DirectiveDef.stripped
  roots := .unset

namespace Argument
variable (a : Argument)

@[simp] theorem nameStripped : a.stripped.name = a.name := rfl

@[simp] theorem typeStripped : a.stripped.type = a.type := rfl

@[simp] theorem requiredStripped : a.stripped.isRequired = a.isRequired := rfl

end Argument

namespace TypeDef
variable (t : TypeDef)

@[simp] theorem nameStripped : t.stripped.name = t.name := rfl

@[simp] theorem kindStripped : t.stripped.kind = t.kind := by
  unfold kind stripped
  cases t.body <;> rfl

end TypeDef

@[simp] theorem Field.typeStripped (f : Field) : f.stripped.type = f.type := rfl

@[simp] theorem Field.argumentsStripped (f : Field) :
    f.stripped.arguments = f.arguments.map Argument.stripped := rfl

@[simp] theorem EnumValue.nameStripped (v : EnumValue) : v.stripped.name = v.name := rfl

@[simp] theorem DirectiveDef.nameStripped (d : DirectiveDef) : d.stripped.name = d.name := rfl

theorem argumentStripped (arguments : List Argument) (name : String) :
    argumentNamed? (arguments.map Argument.stripped) name =
      (argumentNamed? arguments name).map Argument.stripped := by
  unfold argumentNamed?
  rw [List.find?_map]
  rfl

theorem enumValueStripped (values : List EnumValue) (name : String) :
    enumValueNamed? (values.map EnumValue.stripped) name =
      (enumValueNamed? values name).map EnumValue.stripped := by
  unfold enumValueNamed?
  rw [List.find?_map]
  rfl

namespace Model
variable {m : Model}

theorem typesStripped (m : Model) :
    m.stripped.typeList = (m.typeList.filter fun t => !t.isBuiltInScalar).map TypeDef.stripped := by
  simp only [typeList, Ordered.values, stripped, Ordered.map, Ordered.filter, List.map_map,
    List.filter_map, Function.comp_def]

theorem typeStripped (m : Model) (name : String) :
    m.stripped.type? name =
      ((m.type? name).filter fun t => !t.isBuiltInScalar).map TypeDef.stripped := by
  unfold type? stripped
  rw [Ordered.getMap, Ordered.getFilter]

theorem directivesStripped (m : Model) :
    m.stripped.directiveList = m.directiveList.map DirectiveDef.stripped := by
  simp only [directiveList, Ordered.values, stripped, Ordered.map, List.map_map, Function.comp_def]

theorem directiveStripped (m : Model) (name : String) :
    m.stripped.directive? name = (m.directive? name).map DirectiveDef.stripped :=
  Ordered.getMap _ _ _

end Model
end SchemaDrift
