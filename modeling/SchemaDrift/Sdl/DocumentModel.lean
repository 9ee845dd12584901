import SchemaDrift.Sdl.Document

/-! The model a document describes. Definitions come first in document order, then extensions, which
may precede what they extend, then every reference is resolved; a built-in scalar enters the model
when something refers to it. The first error in that order is the answer. -/
namespace SchemaDrift.Sdl

inductive MemberKind where
  | field
  | enumValue
  deriving DecidableEq, Repr

def MemberKind.phrase : MemberKind → String
  | .field => "field"
  | .enumValue => "enum value"

inductive DocumentError where
  | duplicateType (name : String) (location : Option Location)
  | duplicateDirective (name : String) (location : Option Location)
  | extendedUndefined (name : String)
  | extendedOtherKind (name : String) (actual requested : TypeKind)
  | memberExists (type : String) (kind : MemberKind) (member : String)
  | unknownType (name referencedBy : String)
  | variableInConstant (name context : String)
  deriving DecidableEq, Repr

def locationSuffix : Option Location → String
  | some l => " (at " ++ l.text ++ ")"
  | none => ""

def inQuotes (s : String) : String := "\"" ++ s ++ "\""

def DocumentError.message : DocumentError → String
  | .duplicateType name location =>
    "type " ++ inQuotes name ++ " was defined more than once" ++ locationSuffix location
  | .duplicateDirective name location =>
    "directive " ++ inQuotes ("@" ++ name) ++ " was defined more than once" ++
      locationSuffix location
  | .extendedUndefined name => "cannot extend type " ++ inQuotes name ++ ": it is not defined"
  | .extendedOtherKind name actual requested =>
    "cannot extend type " ++ inQuotes name ++ ": it is " ++ actual.phrase ++ ", not " ++
      requested.phrase
  | .memberExists type kind member =>
    "cannot extend type " ++ inQuotes type ++ ": " ++ kind.phrase ++ " " ++ inQuotes member ++
      " already exists"
  | .unknownType name referencedBy =>
    "unknown type " ++ inQuotes name ++ " referenced by " ++ referencedBy
  | .variableInConstant name context =>
    "variable " ++ inQuotes ("$" ++ name) ++ " is not allowed in the constant value of " ++
      context

abbrev Outcome (α : Type) := Except DocumentError α

mutual
def constant (context : String) : Value → Outcome Constant
  | .variable v => .error (.variableInConstant v context)
  | .null => .ok .null
  | .boolean b => .ok (.boolean b)
  | .integer i => .ok (.integer i)
  | .float x => .ok (.float x)
  | .string s => .ok (.string s)
  | .enumValue name => .ok (.enumValue name)
  | .list items => do .ok (.list (← constants context items))
  | .object entries => do .ok (.object (Ordered.ofList (← constantEntries context entries)))

def constants (context : String) : List Value → Outcome (List Constant)
  | [] => .ok []
  | v :: rest => do
    let head ← constant context v
    let tail ← constants context rest
    .ok (head :: tail)

def constantEntries (context : String) :
    List (String × Value) → Outcome (List (String × Constant))
  | [] => .ok []
  | (key, v) :: rest => do
    let head ← constant context v
    let tail ← constantEntries context rest
    .ok ((key, head) :: tail)
end

def appliedDirective (context : String) (use : DirectiveUse) : Outcome AppliedDirective := do
  let arguments ← use.arguments.mapM fun (key, e) => do
    let given ← constant (context ++ " @" ++ use.name ++ "(" ++ key ++ ":)") e.value
    .ok (key, given)
  .ok ⟨use.name, Ordered.ofList arguments⟩

def appliedDirectives (context : String) (uses : List DirectiveUse) :
    Outcome (List AppliedDirective) :=
  uses.mapM (appliedDirective context)

def argumentOf (owner : String) (node : InputValue) : Outcome Argument := do
  let context := owner ++ "." ++ node.name
  let default ← node.default.mapM fun e => constant context e.value
  let directives ← appliedDirectives context node.directives
  .ok ⟨node.name, node.type.unstack, default, some node.position, directives⟩

def argumentsOf (owner : String) (nodes : List InputValue) : Outcome (List Argument) :=
  nodes.mapM (argumentOf owner)

def fieldOf (owner : String) (node : FieldNode) : Outcome Field := do
  let context := owner ++ "." ++ node.name
  let arguments ← argumentsOf context node.arguments
  let directives ← appliedDirectives context node.directives
  .ok ⟨node.name, node.type.unstack, arguments, some node.position, directives⟩

def fieldsOf (owner : String) (nodes : List FieldNode) : Outcome (Ordered Field) := do
  let fields ← nodes.mapM (fieldOf owner)
  .ok (Ordered.ofList (fields.map fun f => (f.name, f)))

def inputFieldsOf (owner : String) (nodes : List InputValue) : Outcome (Ordered Argument) := do
  let fields ← argumentsOf owner nodes
  .ok (Ordered.ofList (fields.map fun f => (f.name, f)))

def enumValueOf (owner : String) (node : EnumValueNode) : Outcome EnumValue := do
  let directives ← appliedDirectives (owner ++ "." ++ node.name) node.directives
  .ok ⟨node.name, some node.position, directives⟩

def bodyOf (owner : String) : Members → Outcome TypeBody
  | .scalar => .ok .scalar
  | .object interfaces fields => do .ok (.object ⟨interfaces, ← fieldsOf owner fields⟩)
  | .interface interfaces fields => do .ok (.interface ⟨interfaces, ← fieldsOf owner fields⟩)
  | .union members => .ok (.union members)
  | .enum values => do .ok (.enum (← values.mapM (enumValueOf owner)))
  | .inputObject fields => do .ok (.inputObject (← inputFieldsOf owner fields))

def typeOf (node : TypeNode) : Outcome TypeDef := do
  let directives ← appliedDirectives node.name node.directives
  let body ← bodyOf node.name node.members
  .ok ⟨node.name, some node.position, directives, body⟩

def directiveOf (node : DirectiveNode) : Outcome DirectiveDef := do
  let arguments ← argumentsOf ("@" ++ node.name) node.arguments
  .ok ⟨node.name, some node.position, arguments, node.sites, node.repeatable⟩

def declare (m : Model) : Definition → Outcome Model
  | .schema roots _ => .ok (m.setRoots roots)
  | .type node => do
    let t ← typeOf node
    if m.hasType t.name then .error (.duplicateType t.name t.location) else .ok (m.insertType t)
  | .extension _ => .ok m
  | .directive node => do
    let d ← directiveOf node
    if m.directives.contains d.name then .error (.duplicateDirective d.name d.location)
    else .ok (m.insertDirective d)

def addMissing (names added : List String) : List String :=
  added.foldl (fun acc name => if acc.contains name then acc else acc ++ [name]) names

def addField (owner : String) (fields : Ordered Field) (node : FieldNode) :
    Outcome (Ordered Field) := do
  if fields.contains node.name then .error (.memberExists owner .field node.name)
  else .ok (fields.insert node.name (← fieldOf owner node))

def addEnumValue (owner : String) (values : List EnumValue) (node : EnumValueNode) :
    Outcome (List EnumValue) := do
  if (enumValueNamed? values node.name).isSome then
    .error (.memberExists owner .enumValue node.name)
  else .ok (values ++ [← enumValueOf owner node])

def addInputField (owner : String) (fields : Ordered Argument) (field : Argument) :
    Outcome (Ordered Argument) :=
  if fields.contains field.name then .error (.memberExists owner .field field.name)
  else .ok (fields.insert field.name field)

def extendShape (owner : String) (shape : ObjectShape) (interfaces : List String)
    (nodes : List FieldNode) : Outcome ObjectShape := do
  .ok ⟨addMissing shape.interfaces interfaces, ← nodes.foldlM (addField owner) shape.fields⟩

def extendBody (owner : String) : TypeBody → Members → Outcome TypeBody
  | .scalar, .scalar => .ok .scalar
  | .object shape, .object interfaces fields => do
    .ok (.object (← extendShape owner shape interfaces fields))
  | .interface shape, .interface interfaces fields => do
    .ok (.interface (← extendShape owner shape interfaces fields))
  | .union members, .union added => .ok (.union (addMissing members added))
  | .enum values, .enum added => do .ok (.enum (← added.foldlM (addEnumValue owner) values))
  | .inputObject fields, .inputObject added => do
    let converted ← argumentsOf owner added
    .ok (.inputObject (← converted.foldlM (addInputField owner) fields))
  | body, members => .error (.extendedOtherKind owner body.kind members.kind)

def extendType (t : TypeDef) (node : TypeNode) : Outcome TypeDef := do
  if t.kind ≠ node.members.kind then
    .error (.extendedOtherKind node.name t.kind node.members.kind)
  else
    let directives ← appliedDirectives node.name node.directives
    let body ← extendBody node.name t.body node.members
    .ok { t with directives := t.directives ++ directives, body }

def extend (m : Model) : Definition → Outcome Model
  | .extension node =>
    match m.type? node.name with
    | none => .error (.extendedUndefined node.name)
    | some t => do
      let extended ← extendType t node
      .ok (m.modifyType node.name fun _ => extended)
  | _ => .ok m

structure Reference where
  name : String
  user : String
  deriving DecidableEq, Repr

def argumentReferences (owner : String) (arguments : List Argument) : List Reference :=
  arguments.map fun a => ⟨a.type.core, owner ++ "(" ++ a.name ++ ":)"⟩

def shapeReferences (owner : String) (shape : ObjectShape) : List Reference :=
  shape.interfaces.map (⟨·, owner⟩) ++
    shape.fields.values.flatMap fun f =>
      let user := owner ++ "." ++ f.name
      ⟨f.type.core, user⟩ :: argumentReferences user f.arguments

def typeReferences (t : TypeDef) : List Reference :=
  match t.body with
  | .scalar => []
  | .object shape => shapeReferences t.name shape
  | .interface shape => shapeReferences t.name shape
  | .union members => members.map (⟨·, t.name⟩)
  | .enum _ => []
  | .inputObject fields => fields.values.map fun f => ⟨f.type.core, t.name ++ "." ++ f.name⟩

def references (m : Model) : List Reference :=
  m.typeList.flatMap typeReferences ++
    m.directiveList.flatMap (fun d => argumentReferences ("@" ++ d.name) d.arguments) ++
    m.roots.names.map (⟨·, "schema"⟩)

def resolveReference (m : Model) (r : Reference) : Outcome Model :=
  if m.hasType r.name then .ok m
  else if builtInScalars.contains r.name then .ok (m.insertType (.implicitScalar r.name))
  else .error (.unknownType r.name r.user)

def resolve (m : Model) : Outcome Model := (references m).foldlM resolveReference m

def model (document : Document) : Outcome Model := do
  let declared ← document.foldlM declare Model.empty
  let extended ← document.foldlM extend declared
  resolve extended

end SchemaDrift.Sdl
