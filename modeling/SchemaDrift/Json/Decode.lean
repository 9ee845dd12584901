import SchemaDrift.Json.Writer
import SchemaDrift.Text.Quoted

/-! Reading domain values out of JSON values, and why that fails. A record is read from an object in
any order of its keys, unknown keys ignored, or from an array of its fields in order. Of several
faults the first in the order of the entries counts, then the first missing field. -/
namespace SchemaDrift.Json
open Text

inductive DecodeError where
  | missingField (name : String)
  | duplicateField (name : String)
  | unknownVariant (name : String) (expected : List String)
  | wrongType (found : Json) (expected : String)
  | wrongValue (found expected : String)
  | wrongLength (length : Nat) (expected : String)
  | refused (reason : String)
  deriving Repr

abbrev Decoder (α : Type) := Json → Except DecodeError α

def decimalPointed (x : Binary64) : String := String.ofList ((x.exchange?).getD x.plain)

def foundText : Json → String
  | .null => "null"
  | .boolean b => "boolean `" ++ (if b then "true" else "false") ++ "`"
  | .integer i => "integer `" ++ integerText i ++ "`"
  | .float x => "floating point `" ++ decimalPointed x ++ "`"
  | .string s => "string " ++ quoted s
  | .array _ => "sequence"
  | .object _ => "map"
  | .unusable => "unusable value"

def alternatives : List String → String
  | [] => ""
  | [a] => "`" ++ a ++ "`"
  | a :: rest => "`" ++ a ++ "`, " ++ alternatives rest

def expectedVariants : List String → String
  | [] => "there are no variants"
  | [a] => "expected `" ++ a ++ "`"
  | [a, b] => "expected `" ++ a ++ "` or `" ++ b ++ "`"
  | names => "expected one of " ++ alternatives names

def DecodeError.message : DecodeError → String
  | .missingField name => "missing field `" ++ name ++ "`"
  | .duplicateField name => "duplicate field `" ++ name ++ "`"
  | .unknownVariant name expected =>
    "unknown variant `" ++ name ++ "`, " ++ expectedVariants expected
  | .wrongType found expected => "invalid type: " ++ foundText found ++ ", expected " ++ expected
  | .wrongValue found expected => "invalid value: " ++ found ++ ", expected " ++ expected
  | .wrongLength n expected => "invalid length " ++ decimalText n ++ ", expected " ++ expected
  | .refused reason => reason

def decodeString : Decoder String
  | .string s => .ok s
  | j => .error (.wrongType j "a string")

def decodeBool : Decoder Bool
  | .boolean b => .ok b
  | j => .error (.wrongType j "a boolean")

def decodeBelow (bound : Nat) (expected : String) : Decoder (Fin bound)
  | .integer i =>
    if below : 0 ≤ i ∧ i < bound then .ok ⟨i.toNat, (Int.toNat_lt below.1).mpr below.2⟩
    else .error (.wrongValue (foundText (.integer i)) expected)
  | j => .error (.wrongType j expected)

def decodeOption {α : Type} (d : Decoder α) : Decoder (Option α)
  | .null => .ok none
  | j => (d j).map some

def decodeList {α : Type} (d : Decoder α) : Decoder (List α)
  | .array items => items.mapM d
  | j => .error (.wrongType j "a sequence")

/-- The name of a case without content: a string, or an object with null under that name alone. -/
def decodeCaseName : Decoder (String × Option Json)
  | .string s => .ok (s, none)
  | .object [(name, content)] => .ok (name, some content)
  | .object _ => .error (.wrongValue "map" "map with a single key")
  | j => .error (.wrongType j "string or map")

def decodeCase {α : Type} (cases : List (String × α)) : Decoder α := fun j => do
  let (name, content) ← decodeCaseName j
  match cases.lookup name with
  | none => .error (.unknownVariant name (cases.map (·.1)))
  | some value =>
    match content with
    | none => .ok value
    | some .null => .ok value
    | some other => .error (.wrongType other "unit")

structure Record where
  title : String
  fields : List String
  cells : List (String × Nat × Json)
  positional : Bool
  length : Nat
  deriving Repr

def placed (entries : List (String × Json)) : List (String × Nat × Json) :=
  entries.zipIdx.map fun (e, n) => (e.1, n, e.2)

def repeated? : List String → Option String
  | [] => none
  | name :: rest => if rest.contains name then some name else repeated? rest

def readRecord (title : String) (fields : List String) : Decoder Record
  | .object entries =>
    let known := (placed entries).filter fun c => fields.contains c.1
    match repeated? (known.map (·.1)) with
    | some name => .error (.duplicateField name)
    | none => .ok ⟨title, fields, known, false, entries.length⟩
  | .array items => .ok ⟨title, fields, placed (fields.zip items), true, items.length⟩
  | j => .error (.wrongType j title)

structure Cell (α : Type) where
  name : String
  content : Option (Nat × Except DecodeError α)

def Record.cell {α : Type} (r : Record) (name : String) (d : Decoder α) : Cell α :=
  ⟨name, (r.cells.lookup name).map fun c => (c.1, d c.2)⟩

def Cell.fault {α : Type} (c : Cell α) : Option (Nat × DecodeError) :=
  match c.content with
  | some (place, .error e) => some (place, e)
  | _ => none

def earlier (a b : Option (Nat × DecodeError)) : Option (Nat × DecodeError) :=
  match a, b with
  | some x, some y => if y.1 < x.1 then some y else some x
  | some x, none => some x
  | none, b => b

def settle (faults : List (Option (Nat × DecodeError))) : Except DecodeError Unit :=
  match faults.foldl earlier none with
  | some (_, e) => .error e
  | none => .ok ()

def Record.countPhrase (r : Record) : String :=
  r.title ++ " with " ++ decimalText r.fields.length ++ " elements"

def Record.missing (r : Record) (name : String) : DecodeError :=
  if r.positional then .wrongLength (r.fields.idxOf name) r.countPhrase else .missingField name

def Record.required {α : Type} (r : Record) (c : Cell α) : Except DecodeError α :=
  match c.content with
  | some (_, result) => result
  | none => .error (r.missing c.name)

def Record.withDefault {α : Type} (_ : Record) (c : Cell α) (default : α) : Except DecodeError α :=
  match c.content with
  | some (_, result) => result
  | none => .ok default

/-- The value of a field that may be left out of an object, but not of an array. -/
def Record.optional {α : Type} (r : Record) (c : Cell (Option α)) : Except DecodeError (Option α) :=
  match c.content with
  | some (_, result) => result
  | none => if r.positional then .error (r.missing c.name) else .ok none

def Record.finish (r : Record) : Except DecodeError Unit :=
  if r.positional ∧ r.fields.length < r.length then
    .error (.wrongLength r.length "fewer elements in array")
  else .ok ()

end SchemaDrift.Json
