import SchemaDrift.Change
import SchemaDrift.Json.Decode

/-! The JSON form of changes and change sets. An absent location or requirement is left out. -/
namespace SchemaDrift
open Json

def Category.decode : Decoder Category := decodeCase (Category.all.map fun c => (c.name, c))

def Location.toJson (l : Location) : Json := .string l.text

def Location.decode : Decoder Location := fun j => do
  let s ← decodeString j
  match Location.parse? s with
  | some l => .ok l
  | none => .error (.refused (Location.invalidMessage s))

def optionalEntry {α : Type} (key : String) (f : α → Json) : Option α → List (String × Json)
  | some a => [(key, f a)]
  | none => []

namespace Change

def toJson (c : Change) : Json :=
  .object ([("type", .string c.category.name), ("message", .string c.message),
    ("resourceName", .string c.resource)] ++ optionalEntry "loc" Location.toJson c.location ++
    [("wasDeprecated", .boolean c.wasDeprecated)] ++
    optionalEntry "wasRequiredByDirective" .boolean c.wasRequired)

def fieldNames : List String :=
  ["type", "message", "resourceName", "loc", "wasDeprecated", "wasRequiredByDirective"]

def decode : Decoder Change := fun j => do
  let r ← readRecord "struct Change" fieldNames j
  let category := r.cell "type" Category.decode
  let message := r.cell "message" decodeString
  let resource := r.cell "resourceName" decodeString
  let location := r.cell "loc" (decodeOption Location.decode)
  let deprecated := r.cell "wasDeprecated" decodeBool
  let required := r.cell "wasRequiredByDirective" (decodeOption decodeBool)
  settle [category.fault, message.fault, resource.fault, location.fault, deprecated.fault,
    required.fault]
  let change : Change :=
    { category := ← r.required category
      message := ← r.required message
      resource := ← r.required resource
      location := ← r.withDefault location none
      wasDeprecated := ← r.withDefault deprecated false
      wasRequired := ← r.withDefault required none }
  r.finish
  .ok change

end Change

namespace ChangeSet

def listJson (changes : List Change) : Json := .array (changes.map Change.toJson)

def toJson (s : ChangeSet) : Json :=
  .object [("breakingChanges", listJson s.breaking), ("dangerousChanges", listJson s.dangerous)]

def decode : Decoder ChangeSet := fun j => do
  let r ← readRecord "struct ChangeSet" ["breakingChanges", "dangerousChanges"] j
  let breaking := r.cell "breakingChanges" (decodeList Change.decode)
  let dangerous := r.cell "dangerousChanges" (decodeList Change.decode)
  settle [breaking.fault, dangerous.fault]
  let set : ChangeSet := ⟨← r.required breaking, ← r.required dangerous⟩
  r.finish
  .ok set

end ChangeSet
end SchemaDrift
