import SchemaDrift.Change
import SchemaDrift.Compare.Options
import SchemaDrift.FileStore
import SchemaDrift.Text.Glob

/-! Configurations: what counts as a failure, which checks run, which changes are ignored, the names
of the markers, and where schemas are fetched from when nothing else says so. -/
namespace SchemaDrift

structure IgnoreRules where
  resources : List String
  categories : List Category
  deriving DecidableEq, Repr

namespace IgnoreRules

def none : IgnoreRules := ⟨[], []⟩

def isEmpty (r : IgnoreRules) : Bool := r.resources.isEmpty && r.categories.isEmpty

def ignores (r : IgnoreRules) (c : Change) : Bool :=
  r.categories.contains c.category || r.resources.any fun p => Text.matchesPattern p c.resource

end IgnoreRules

structure Markers where
  deprecated : String
  required : String
  deriving DecidableEq, Repr

def Markers.standard : Markers := ⟨deprecatedMarker, requiredMarker⟩

structure HostConfig where
  repository : Option String
  path : Option String
  apiUrl : String
  timeoutSeconds : UInt64
  deriving DecidableEq, Repr

def HostConfig.standard : HostConfig := ⟨none, none, "https://api.github.com", 30⟩

structure Config where
  failOnDangerous : Bool
  extendedChecks : Bool
  ignore : IgnoreRules
  markers : Markers
  host : HostConfig
  deriving DecidableEq, Repr

namespace Config

def standard : Config := ⟨false, false, .none, .standard, .standard⟩

def compareOptions (c : Config) : Compare.Options :=
  ⟨c.extendedChecks, c.markers.deprecated, c.markers.required⟩

end Config

inductive ConfigError where
  | file (fault : FileFault)
  | malformed
  | timeoutTooLong
  deriving DecidableEq, Repr

def ConfigError.message : ConfigError → String
  | .file fault => "IO error: " ++ fault.message
  | .malformed => "Parse error: TOML parse error"
  | .timeoutTooLong => "Serialize error: out-of-range value for u64 type"

end SchemaDrift
