import SchemaDrift.Change.Json
import SchemaDrift.Config

/-! The JSON form of configurations. Every field has a default. -/
namespace SchemaDrift
open Json

def stringList (xs : List String) : Json := .array (xs.map .string)

def optionalString : Option String → Json
  | some s => .string s
  | none => .null

namespace IgnoreRules

def toJson (r : IgnoreRules) : Json :=
  .object [("resources", stringList r.resources),
    ("categories", stringList (r.categories.map (·.name)))]

def decode : Decoder IgnoreRules := fun j => do
  let r ← readRecord "struct IgnoreRules" ["resources", "categories"] j
  let resources := r.cell "resources" (decodeList decodeString)
  let categories := r.cell "categories" (decodeList Category.decode)
  settle [resources.fault, categories.fault]
  let rules : IgnoreRules := ⟨← r.withDefault resources [], ← r.withDefault categories []⟩
  r.finish
  .ok rules

end IgnoreRules

namespace Markers

def toJson (m : Markers) : Json :=
  .object [("deprecated", .string m.deprecated), ("required", .string m.required)]

def decode : Decoder Markers := fun j => do
  let r ← readRecord "struct MarkerConfig" ["deprecated", "required"] j
  let deprecated := r.cell "deprecated" decodeString
  let required := r.cell "required" decodeString
  settle [deprecated.fault, required.fault]
  let markers : Markers :=
    ⟨← r.withDefault deprecated Markers.standard.deprecated,
     ← r.withDefault required Markers.standard.required⟩
  r.finish
  .ok markers

end Markers

namespace HostConfig

def toJson (h : HostConfig) : Json :=
  .object [("repository", optionalString h.repository), ("path", optionalString h.path),
    ("api_url", .string h.apiUrl), ("timeout_secs", .integer h.timeoutSeconds.toNat)]

def decode : Decoder HostConfig := fun j => do
  let r ← readRecord "struct GitHubConfig" ["repository", "path", "api_url", "timeout_secs"] j
  let repository := r.cell "repository" (decodeOption decodeString)
  let path := r.cell "path" (decodeOption decodeString)
  let apiUrl := r.cell "api_url" decodeString
  let timeout := r.cell "timeout_secs" (decodeBelow (UInt64.size) "u64")
  settle [repository.fault, path.fault, apiUrl.fault, timeout.fault]
  let host : HostConfig :=
    { repository := ← r.withDefault repository none
      path := ← r.withDefault path none
      apiUrl := ← r.withDefault apiUrl standard.apiUrl
      timeoutSeconds := UInt64.ofFin (← r.withDefault timeout standard.timeoutSeconds.toFin) }
  r.finish
  .ok host

end HostConfig

namespace Config

def toJson (c : Config) : Json :=
  .object [("fail_on_dangerous", .boolean c.failOnDangerous),
    ("extended_checks", .boolean c.extendedChecks), ("ignore", c.ignore.toJson),
    ("markers", c.markers.toJson), ("github", c.host.toJson)]

def decode : Decoder Config := fun j => do
  let r ← readRecord "struct Config"
    ["fail_on_dangerous", "extended_checks", "ignore", "markers", "github"] j
  let failOnDangerous := r.cell "fail_on_dangerous" decodeBool
  let extendedChecks := r.cell "extended_checks" decodeBool
  let ignore := r.cell "ignore" IgnoreRules.decode
  let markers := r.cell "markers" Markers.decode
  let host := r.cell "github" HostConfig.decode
  settle [failOnDangerous.fault, extendedChecks.fault, ignore.fault, markers.fault, host.fault]
  let config : Config :=
    { failOnDangerous := ← r.withDefault failOnDangerous false
      extendedChecks := ← r.withDefault extendedChecks false
      ignore := ← r.withDefault ignore .none
      markers := ← r.withDefault markers .standard
      host := ← r.withDefault host .standard }
  r.finish
  .ok config

end Config
end SchemaDrift
