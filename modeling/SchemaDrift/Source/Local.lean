import SchemaDrift.FileStore
import SchemaDrift.Source

/-! Schema files of a directory, which have no revisions. -/
namespace SchemaDrift.Local

def name : String := "local"

def resolve (root : Option String) (path : String) : String :=
  match root with
  | none => path
  | some root =>
    if FileStore.isAbsolute path then path
    else if root.isEmpty ∨ root.toList.getLast? = some '/' then root ++ path
    else root ++ "/" ++ path

def fetchError (path : String) : FileFault → FetchError
  | .missing => ⟨.notFound, path⟩
  | fault => ⟨.file, path ++ ": " ++ fault.message⟩

def answer (root : Option String) (a : Address) (read : Except FileFault String) :
    Except FetchError String :=
  match a.revision with
  | some revision =>
    .error ⟨.configuration, "local file " ++ a.path ++ " cannot be read at revision " ++ revision⟩
  | none =>
    match read with
    | .ok text => .ok text
    | .error fault => .error (fetchError (resolve root a.path) fault)

def fetch (files : FileStore) (root : Option String) (a : Address) : Except FetchError String :=
  answer root a (files.readText (resolve root a.path))

end SchemaDrift.Local
