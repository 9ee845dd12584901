import SchemaDrift.Change.Json
import SchemaDrift.Schema.Json.Value
import SchemaDrift.Schema.Model

/-! The JSON form of models. Stores are objects in their own order; a key that comes again replaces
the value and keeps the place. A type names its kind among its own entries, and all of it has to be
usable, unknown entries too, since the kind may come last. -/
namespace SchemaDrift
open Json

def optionalLocation : Option Location → Json
  | some l => l.toJson
  | none => .null

def storeJson {α : Type} (f : α → Json) (s : Ordered α) : Json :=
  .object (s.entries.map fun e => (e.1, f e.2))

def decodeStore {α : Type} (d : Decoder α) : Decoder (Ordered α)
  | .object entries => do
    let decoded ← entries.mapM fun e => do .ok (e.1, ← d e.2)
    .ok (.ofList decoded)
  | j => .error (.wrongType j "a map")

def listJson {α : Type} (f : α → Json) (xs : List α) : Json := .array (xs.map f)

def stringsJson (xs : List String) : Json := listJson .string xs

def decodeLocation : Decoder (Option Location) := decodeOption Location.decode

namespace AppliedDirective

def toJson (d : AppliedDirective) : Json :=
  .object [("name", .string d.name), ("arguments", storeJson Constant.toJson d.arguments)]

def decode : Decoder AppliedDirective := fun j => do
  let r ← readRecord "a directive" ["name", "arguments"] j
  let name ← r.required (r.cell "name" decodeString)
  let arguments ← r.withDefault (r.cell "arguments" (decodeStore Constant.decode)) .empty
  r.finish
  .ok ⟨name, arguments⟩

end AppliedDirective

def directivesJson (ds : List AppliedDirective) : Json := listJson AppliedDirective.toJson ds

def decodeDirectives : Decoder (List AppliedDirective) := decodeList AppliedDirective.decode

namespace Argument

def toJson (a : Argument) : Json :=
  .object [("name", .string a.name), ("type", a.type.toJson),
    ("default_value", (a.default.map Constant.toJson).getD .null),
    ("location", optionalLocation a.location), ("directives", directivesJson a.directives)]

def decode : Decoder Argument := fun j => do
  let r ← readRecord "an argument" ["name", "type", "default_value", "location", "directives"] j
  let name ← r.required (r.cell "name" decodeString)
  let type ← r.required (r.cell "type" TypeRef.decode)
  let default ← r.withDefault (r.cell "default_value" (decodeOption Constant.decode)) none
  let location ← r.withDefault (r.cell "location" decodeLocation) none
  let directives ← r.withDefault (r.cell "directives" decodeDirectives) []
  r.finish
  .ok ⟨name, type, default, location, directives⟩

end Argument

namespace Field

def toJson (f : Field) : Json :=
  .object [("name", .string f.name), ("type", f.type.toJson),
    ("arguments", listJson Argument.toJson f.arguments),
    ("location", optionalLocation f.location), ("directives", directivesJson f.directives)]

def decode : Decoder Field := fun j => do
  let r ← readRecord "a field" ["name", "type", "arguments", "location", "directives"] j
  let name ← r.required (r.cell "name" decodeString)
  let type ← r.required (r.cell "type" TypeRef.decode)
  let arguments ← r.withDefault (r.cell "arguments" (decodeList Argument.decode)) []
  let location ← r.withDefault (r.cell "location" decodeLocation) none
  let directives ← r.withDefault (r.cell "directives" decodeDirectives) []
  r.finish
  .ok ⟨name, type, arguments, location, directives⟩

end Field

namespace EnumValue

def toJson (v : EnumValue) : Json :=
  .object [("name", .string v.name), ("location", optionalLocation v.location),
    ("directives", directivesJson v.directives)]

def decode : Decoder EnumValue := fun j => do
  let r ← readRecord "an enum value" ["name", "location", "directives"] j
  let name ← r.required (r.cell "name" decodeString)
  let location ← r.withDefault (r.cell "location" decodeLocation) none
  let directives ← r.withDefault (r.cell "directives" decodeDirectives) []
  r.finish
  .ok ⟨name, location, directives⟩

end EnumValue

namespace DirectiveDef

def toJson (d : DirectiveDef) : Json :=
  .object [("name", .string d.name), ("location", optionalLocation d.location),
    ("arguments", listJson Argument.toJson d.arguments), ("locations", stringsJson d.sites),
    ("repeatable", .boolean d.repeatable)]

def decode : Decoder DirectiveDef := fun j => do
  let r ← readRecord "a directive definition"
    ["name", "location", "arguments", "locations", "repeatable"] j
  let name ← r.required (r.cell "name" decodeString)
  let location ← r.optional (r.cell "location" decodeLocation)
  let arguments ← r.required (r.cell "arguments" (decodeList Argument.decode))
  let sites ← r.required (r.cell "locations" (decodeList decodeString))
  let repeatable ← r.required (r.cell "repeatable" decodeBool)
  r.finish
  .ok ⟨name, location, arguments, sites, repeatable⟩

end DirectiveDef

namespace TypeDef

def kindNames : List (String × TypeKind) :=
  [("scalar", .scalar), ("object", .object), ("interface", .interface), ("union", .union),
   ("enum", .enum), ("input_object", .inputObject)]

def kindName : TypeKind → String
  | .scalar => "scalar"
  | .object => "object"
  | .interface => "interface"
  | .union => "union"
  | .enum => "enum"
  | .inputObject => "input_object"

def shapeEntries (s : ObjectShape) : List (String × Json) :=
  [("interfaces", stringsJson s.interfaces), ("fields", storeJson Field.toJson s.fields)]

def bodyEntries : TypeBody → List (String × Json)
  | .scalar => []
  | .object shape => shapeEntries shape
  | .interface shape => shapeEntries shape
  | .union members => [("members", stringsJson members)]
  | .enum values => [("values", listJson EnumValue.toJson values)]
  | .inputObject fields => [("fields", storeJson Argument.toJson fields)]

def toJson (t : TypeDef) : Json :=
  .object ([("kind", .string (kindName t.kind)), ("name", .string t.name),
    ("location", optionalLocation t.location), ("directives", directivesJson t.directives)] ++
    bodyEntries t.body)

def bodyFields : TypeKind → List String
  | .scalar => []
  | .object => ["interfaces", "fields"]
  | .interface => ["interfaces", "fields"]
  | .union => ["members"]
  | .enum => ["values"]
  | .inputObject => ["fields"]

def decodeShape (r : Record) : Except DecodeError ObjectShape := do
  let interfaces ← r.required (r.cell "interfaces" (decodeList decodeString))
  let fields ← r.required (r.cell "fields" (decodeStore Field.decode))
  .ok ⟨interfaces, fields⟩

def decodeBody (r : Record) : TypeKind → Except DecodeError TypeBody
  | .scalar => .ok .scalar
  | .object => (decodeShape r).map .object
  | .interface => (decodeShape r).map .interface
  | .union => (r.required (r.cell "members" (decodeList decodeString))).map .union
  | .enum => (r.required (r.cell "values" (decodeList EnumValue.decode))).map .enum
  | .inputObject => (r.required (r.cell "fields" (decodeStore Argument.decode))).map .inputObject

def decodeAs (kind : TypeKind) : Decoder TypeDef := fun j => do
  let r ← readRecord "a type" (["name", "location", "directives"] ++ bodyFields kind) j
  let name ← r.required (r.cell "name" decodeString)
  let location ← r.optional (r.cell "location" decodeLocation)
  let directives ← r.required (r.cell "directives" decodeDirectives)
  let body ← decodeBody r kind
  r.finish
  .ok ⟨name, location, directives, body⟩

def decodeKind : Decoder TypeKind := fun j => do
  let name ← decodeString j
  match kindNames.lookup name with
  | some kind => .ok kind
  | none => .error (.unknownVariant name (kindNames.map (·.1)))

def takeKind : Decoder (TypeKind × Json)
  | .object entries =>
    match entries.filter (·.1 = "kind") with
    | [] => .error (.missingField "kind")
    | [e] => do .ok (← decodeKind e.2, .object (entries.filter (·.1 ≠ "kind")))
    | _ => .error (.duplicateField "kind")
  | .array (name :: rest) => do .ok (← decodeKind name, .array rest)
  | j => .error (.wrongType j "a type")

def decode : Decoder TypeDef := fun j => do
  if !j.usable then .error (.wrongType j "a type")
  else
    let (kind, rest) ← takeKind j
    decodeAs kind rest

end TypeDef

namespace RootOperations

def toJson (r : RootOperations) : Json :=
  .object [("query", (r.query.map .string).getD .null),
    ("mutation", (r.mutation.map .string).getD .null),
    ("subscription", (r.subscription.map .string).getD .null)]

def decode : Decoder RootOperations := fun j => do
  let r ← readRecord "struct RootOperations" ["query", "mutation", "subscription"] j
  let query := r.cell "query" (decodeOption decodeString)
  let mutation := r.cell "mutation" (decodeOption decodeString)
  let subscription := r.cell "subscription" (decodeOption decodeString)
  settle [query.fault, mutation.fault, subscription.fault]
  let roots : RootOperations :=
    ⟨← r.optional query, ← r.optional mutation, ← r.optional subscription⟩
  r.finish
  .ok roots

end RootOperations

namespace Model

def toJson (m : Model) : Json :=
  .object [("types", storeJson TypeDef.toJson m.types),
    ("directives", storeJson DirectiveDef.toJson m.directives), ("roots", m.roots.toJson)]

def decode : Decoder Model := fun j => do
  let r ← readRecord "a model" ["types", "directives", "roots"] j
  let types ← r.required (r.cell "types" (decodeStore TypeDef.decode))
  let directives ← r.withDefault (r.cell "directives" (decodeStore DirectiveDef.decode)) .empty
  let roots ← r.withDefault (r.cell "roots" RootOperations.decode) .unset
  r.finish
  .ok ⟨types, directives, roots⟩

def jsonText (m : Model) : String := m.toJson.compact

end Model
end SchemaDrift
