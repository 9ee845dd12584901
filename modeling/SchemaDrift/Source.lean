/-! Where schema texts come from: an address in a source, and why nothing could be fetched. -/
namespace SchemaDrift

structure Address where
  path : String
  revision : Option String
  deriving DecidableEq, Repr

def Address.text (a : Address) : String :=
  match a.revision with
  | some revision => a.path ++ "@" ++ revision
  | none => a.path

inductive FetchFault where
  | notFound
  | permissionDenied
  | invalidResponse
  | network
  | file
  | configuration
  deriving DecidableEq, Repr

def FetchFault.phrase : FetchFault → String
  | .notFound => "Schema not found"
  | .permissionDenied => "Permission denied"
  | .invalidResponse => "Invalid response"
  | .network => "Network error"
  | .file => "IO error"
  | .configuration => "Configuration error"

structure FetchError where
  fault : FetchFault
  detail : String
  deriving DecidableEq, Repr

def FetchError.message (e : FetchError) : String := e.fault.phrase ++ ": " ++ e.detail

end SchemaDrift
