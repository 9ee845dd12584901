import SchemaDrift.Config
import SchemaDrift.Toml.Reader
import SchemaDrift.Toml.Writer
import SchemaDrift.Word

/-! Configurations as TOML. Every key has a default, unknown keys are passed over, and a group may be
given as an array of its values in order. -/
namespace SchemaDrift
open Toml

def groupEntries? (names : List String) : Toml → Option Entries
  | .table _ entries => some entries
  | .array items => some (names.zip items)
  | .tables items => some (names.zip (items.map (.table .header)))
  | .moment => some []
  | _ => none

def readOr {α : Type} (entries : Entries) (name : String) (read : Toml → Option α) (default : α) :
    Option α :=
  match entries.lookup name with
  | none => some default
  | some v => read v

def readString? : Toml → Option String
  | .string s => some s
  | _ => none

def readBool? : Toml → Option Bool
  | .boolean b => some b
  | _ => none

def readSeconds? : Toml → Option UInt64
  | .integer i => if 0 ≤ i then some (UInt64.ofNat i.toNat) else none
  | _ => none

def readList? {α : Type} (read : Toml → Option α) : Toml → Option (List α)
  | .array items => items.mapM read
  | .tables items => (items.map (Toml.table .header)).mapM read
  | _ => none

def isEmptyContent : Toml → Bool
  | .table _ entries => entries.isEmpty
  | .array items => items.isEmpty
  | _ => false

def readCategory? : Toml → Option Category
  | .string s => Category.parse? s
  | .table _ [(name, content)] => if isEmptyContent content then Category.parse? name else none
  | _ => none

def IgnoreRules.ofToml? (t : Toml) : Option IgnoreRules := do
  let entries ← groupEntries? ["resources", "categories"] t
  some ⟨← readOr entries "resources" (readList? readString?) [],
    ← readOr entries "categories" (readList? readCategory?) []⟩

def Markers.ofToml? (t : Toml) : Option Markers := do
  let entries ← groupEntries? ["deprecated", "required"] t
  some ⟨← readOr entries "deprecated" readString? Markers.standard.deprecated,
    ← readOr entries "required" readString? Markers.standard.required⟩

def HostConfig.ofToml? (t : Toml) : Option HostConfig := do
  let entries ← groupEntries? ["repository", "path", "api_url", "timeout_secs"] t
  some
    { repository := ← readOr entries "repository" (fun v => (readString? v).map some) none
      path := ← readOr entries "path" (fun v => (readString? v).map some) none
      apiUrl := ← readOr entries "api_url" readString? standard.apiUrl
      timeoutSeconds := ← readOr entries "timeout_secs" readSeconds? standard.timeoutSeconds }

namespace Config

def ofEntries? (entries : Entries) : Option Config := do
  some
    { failOnDangerous := ← readOr entries "fail_on_dangerous" readBool? false
      extendedChecks := ← readOr entries "extended_checks" readBool? false
      ignore := ← readOr entries "ignore" IgnoreRules.ofToml? .none
      markers := ← readOr entries "markers" Markers.ofToml? .standard
      host := ← readOr entries "github" HostConfig.ofToml? .standard }

def parse (text : String) : Except ConfigError Config :=
  match (Toml.parse? text).bind ofEntries? with
  | some c => .ok c
  | none => .error .malformed

def boolText (b : Bool) : List Char := (if b then "true" else "false").toList

def optionalAssignment (key : String) : Option String → List Char
  | some s => assignmentText key (Toml.stringText s)
  | none => []

def textChars (c : Config) : List Char :=
  assignmentText "fail_on_dangerous" (boolText c.failOnDangerous) ++
    assignmentText "extended_checks" (boolText c.extendedChecks) ++ headerText "ignore" ++
    assignmentText "resources" (arrayText (c.ignore.resources.map Toml.stringText)) ++
    assignmentText "categories" (arrayText (c.ignore.categories.map fun k => Toml.stringText k.name)) ++
    headerText "markers" ++ assignmentText "deprecated" (Toml.stringText c.markers.deprecated) ++
    assignmentText "required" (Toml.stringText c.markers.required) ++ headerText "github" ++
    optionalAssignment "repository" c.host.repository ++ optionalAssignment "path" c.host.path ++
    assignmentText "api_url" (Toml.stringText c.host.apiUrl) ++
    assignmentText "timeout_secs" (Text.decimal c.host.timeoutSeconds.toNat)

/-- The configuration as a TOML text. TOML integers have 63 bits and a sign, so a longer timeout has
no text. -/
def toToml (c : Config) : Except ConfigError String :=
  if (int64? c.host.timeoutSeconds.toNat).isSome then .ok (String.ofList c.textChars)
  else .error .timeoutTooLong

end Config
end SchemaDrift
