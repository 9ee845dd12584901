import SchemaDrift.Json.Tagged
import SchemaDrift.Schema.Literal
import SchemaDrift.Ordered
import SchemaDrift.Word

/-! The JSON form of type references and constants, which nest: the kind of each under `kind`, what it
holds under `of` or `value`. A float may be read from a whole number, an integer only from one that
fits 64 bits. -/
namespace SchemaDrift
open Json

namespace TypeRef

inductive Shape where
  | named
  | list
  | nonNull
  deriving DecidableEq, Repr

def shapes : List (String × Shape) := [("named", .named), ("list", .list), ("non_null", .nonNull)]

def tagKeys : TagKeys := { tag := "kind", content := "of" }

def toJson : TypeRef → Json
  | .named name => tagKeys.write "named" (.string name)
  | .list item => tagKeys.write "list" item.toJson
  | .nonNull inner => tagKeys.write "non_null" inner.toJson

def decode (j : Json) : Except DecodeError TypeRef :=
  match _h : tagKeys.read shapes j with
  | .error e => .error e
  | .ok (_, none) => .error (.missingField "of")
  | .ok (.named, some content) => (decodeString content).map .named
  | .ok (.list, some content) => (decode content).map .list
  | .ok (.nonNull, some content) => (decode content).map .nonNull
termination_by sizeOf j
decreasing_by all_goals exact TagKeys.contentSmaller _h

end TypeRef

namespace Literal

inductive Kind where
  | null
  | boolean
  | integer
  | float
  | string
  | enumValue
  | list
  | object
  deriving DecidableEq, Repr

def kinds : List (String × Kind) :=
  [("null", .null), ("boolean", .boolean), ("int", .integer), ("float", .float),
   ("string", .string), ("enum", .enumValue), ("list", .list), ("object", .object)]

def tagKeys : TagKeys := { tag := "kind", content := "value" }

mutual
def toJson : Literal → Json
  | .null => tagKeys.writeBare "null"
  | .boolean b => tagKeys.write "boolean" (.boolean b)
  | .integer i => tagKeys.write "int" (.integer i.toInt)
  | .float x => tagKeys.write "float" (.float x)
  | .string s => tagKeys.write "string" (.string s)
  | .enumValue name => tagKeys.write "enum" (.string name)
  | .list items => tagKeys.write "list" (.array (itemsJson items))
  | .object entries => tagKeys.write "object" (.object (entriesJson entries))

def itemsJson : List Literal → List Json
  | [] => []
  | v :: rest => toJson v :: itemsJson rest

def entriesJson : List (String × Literal) → List (String × Json)
  | [] => []
  | (key, v) :: rest => (key, toJson v) :: entriesJson rest
end

end Literal

namespace Constant

def decodeInt64 : Decoder Int64
  | .integer i =>
    match int64? i with
    | some n => .ok n
    | none => .error (.wrongValue (foundText (.integer i)) "i64")
  | j => .error (.wrongType j "i64")

def decodeFloat : Decoder Binary64
  | .integer i => .ok (Binary64.ofInt i)
  | .float x => .ok x
  | j => .error (.wrongType j "f64")

def decodeNull : Option Json → Except DecodeError Constant
  | none => .ok .null
  | some .null => .ok .null
  | some j => .error (.wrongType j "null")

mutual
def decode (j : Json) : Except DecodeError Constant :=
  match _h : Literal.tagKeys.read Literal.kinds j with
  | .error e => .error e
  | .ok (.null, content) => decodeNull content
  | .ok (_, none) => .error (.missingField "value")
  | .ok (.boolean, some content) => (decodeBool content).map .boolean
  | .ok (.integer, some content) => (decodeInt64 content).map .integer
  | .ok (.float, some content) => (decodeFloat content).map .float
  | .ok (.string, some content) => (decodeString content).map .string
  | .ok (.enumValue, some content) => (decodeString content).map .enumValue
  | .ok (.list, some (.array items)) => (decodeItems items).map .list
  | .ok (.list, some content) => .error (.wrongType content "a sequence")
  | .ok (.object, some (.object entries)) =>
    (decodeEntries entries).map fun es => .object (Ordered.ofList es)
  | .ok (.object, some content) => .error (.wrongType content "a map")
termination_by sizeOf j
decreasing_by
  all_goals
    have := TagKeys.contentSmaller _h
    simp only [Json.array.sizeOf_spec, Json.object.sizeOf_spec] at this
    omega

def decodeItems : List Json → Except DecodeError (List Constant)
  | [] => .ok []
  | j :: rest => do
    let c ← decode j
    let cs ← decodeItems rest
    .ok (c :: cs)
termination_by items => sizeOf items

def decodeEntries : List (String × Json) → Except DecodeError (List (String × Constant))
  | [] => .ok []
  | (key, j) :: rest => do
    let c ← decode j
    let es ← decodeEntries rest
    .ok ((key, c) :: es)
termination_by entries => sizeOf entries
end

def toJson (c : Constant) : Json := c.literal.toJson

end Constant
end SchemaDrift
