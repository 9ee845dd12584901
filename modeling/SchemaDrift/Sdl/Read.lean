import SchemaDrift.FileStore
import SchemaDrift.Sdl.DocumentModel
import SchemaDrift.Sdl.Grammar

/-! From the text of a schema, or a file of it, to its model. -/
namespace SchemaDrift.Sdl

inductive SchemaError where
  | malformed (location : Location)
  | unreadable (path : String) (fault : FileFault)
  | document (error : DocumentError)
  deriving DecidableEq, Repr

def SchemaError.message : SchemaError → String
  | .malformed location => "schema parse error: Parse error at " ++ location.text
  | .unreadable path fault => "failed to read schema " ++ path ++ ": " ++ fault.message
  | .document error => error.message

def SchemaError.isMalformed : SchemaError → Bool
  | .malformed _ => true
  | _ => false

def readSchema (text : String) : Except SchemaError Model :=
  match parseDocument text with
  | .error location => .error (.malformed location)
  | .ok document =>
    match model document with
    | .error e => .error (.document e)
    | .ok m => .ok m

def readSchemaFile (files : FileStore) (path : String) : Except SchemaError Model :=
  match files.readText path with
  | .error fault => .error (.unreadable path fault)
  | .ok text => readSchema text

end SchemaDrift.Sdl
