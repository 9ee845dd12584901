import SchemaDrift.Change.Json
import SchemaDrift.Report

/-! The JSON form of reports. Absent fingerprints are left out. -/
namespace SchemaDrift
open Json

namespace ReportVersion

def toJson (v : ReportVersion) : Json :=
  .object [("major", .integer v.major.toNat), ("minor", .integer v.minor.toNat)]

def decode : Decoder ReportVersion := fun j => do
  let r ← readRecord "struct ReportVersion" ["major", "minor"] j
  let major := r.cell "major" (decodeBelow (UInt32.size) "u32")
  let minor := r.cell "minor" (decodeBelow (UInt32.size) "u32")
  settle [major.fault, minor.fault]
  let version : ReportVersion :=
    ⟨UInt32.ofFin (← r.required major), UInt32.ofFin (← r.required minor)⟩
  r.finish
  .ok version

end ReportVersion

namespace Summary

def toJson (s : Summary) : Json :=
  .object [("total", .integer s.total), ("breaking", .integer s.breaking),
    ("dangerous", .integer s.dangerous), ("deprecated", .integer s.deprecated),
    ("ignored", .integer s.ignored)]

def decodeCount : Decoder (Fin UInt64.size) := decodeBelow (UInt64.size) "usize"

def decode : Decoder SizedSummary := fun j => do
  let r ← readRecord "struct ReportSummary"
    ["total", "breaking", "dangerous", "deprecated", "ignored"] j
  let total := r.cell "total" decodeCount
  let breaking := r.cell "breaking" decodeCount
  let dangerous := r.cell "dangerous" decodeCount
  let deprecated := r.cell "deprecated" decodeCount
  let ignored := r.cell "ignored" decodeCount
  settle [total.fault, breaking.fault, dangerous.fault, deprecated.fault, ignored.fault]
  let summary := .ofCounts (← r.required total) (← r.required breaking) (← r.required dangerous)
    (← r.required deprecated) (← r.required ignored)
  r.finish
  .ok summary

end Summary

namespace Fingerprint

def toJson (f : Fingerprint) : Json :=
  .object [("label", .string f.label), ("sha256", .string f.sha256)]

def decode : Decoder Fingerprint := fun j => do
  let r ← readRecord "struct SchemaFingerprint" ["label", "sha256"] j
  let label := r.cell "label" decodeString
  let sha256 := r.cell "sha256" decodeString
  settle [label.fault, sha256.fault]
  let fingerprint : Fingerprint := ⟨← r.required label, ← r.required sha256⟩
  r.finish
  .ok fingerprint

end Fingerprint

namespace Report

def toJson (r : Report) : Json :=
  .object ([("version", r.version.toJson), ("timestamp", .string r.timestamp),
    ("summary", r.summary.toJson)] ++ optionalEntry "from" Fingerprint.toJson r.source ++
    optionalEntry "to" Fingerprint.toJson r.target ++
    [("breakingChanges", ChangeSet.listJson r.breaking),
     ("dangerousChanges", ChangeSet.listJson r.dangerous)])

def fieldNames : List String :=
  ["version", "timestamp", "summary", "from", "to", "breakingChanges", "dangerousChanges"]

def decode : Decoder SizedReport := fun j => do
  let r ← readRecord "struct Report" fieldNames j
  let version := r.cell "version" ReportVersion.decode
  let timestamp := r.cell "timestamp" decodeString
  let summary := r.cell "summary" Summary.decode
  let source := r.cell "from" (decodeOption Fingerprint.decode)
  let target := r.cell "to" (decodeOption Fingerprint.decode)
  let breaking := r.cell "breakingChanges" (decodeList Change.decode)
  let dangerous := r.cell "dangerousChanges" (decodeList Change.decode)
  settle [version.fault, timestamp.fault, summary.fault, source.fault, target.fault,
    breaking.fault, dangerous.fault]
  let report := .ofParts (← r.required version) (← r.required timestamp) (← r.required summary)
    (← r.optional source) (← r.optional target) (← r.required breaking) (← r.required dangerous)
  r.finish
  .ok report

def jsonText (r : Report) : String := r.toJson.pretty

end Report
end SchemaDrift
