import SchemaDrift.Change
import SchemaDrift.Report.Digest

/-! Reports of one comparison: the changes that count, what their numbers are, and which texts were
compared. A report built here counts its own lists; one read from elsewhere says what it says. -/
namespace SchemaDrift

structure ReportVersion where
  major : UInt32
  minor : UInt32
  deriving DecidableEq, Repr

def ReportVersion.current : ReportVersion := ⟨1, 0⟩

def ReportVersion.text (v : ReportVersion) : String :=
  Text.decimalText v.major.toNat ++ "." ++ Text.decimalText v.minor.toNat

structure Summary where
  total : Nat
  breaking : Nat
  dangerous : Nat
  deprecated : Nat
  ignored : Nat
  deriving DecidableEq, Repr

structure Summary.Fits (s : Summary) : Prop where
  total : s.total < UInt64.size
  breaking : s.breaking < UInt64.size
  dangerous : s.dangerous < UInt64.size
  deprecated : s.deprecated < UInt64.size
  ignored : s.ignored < UInt64.size

abbrev SizedSummary := { s : Summary // s.Fits }

def SizedSummary.ofCounts (total breaking dangerous deprecated ignored : Fin UInt64.size) : SizedSummary :=
  ⟨⟨total, breaking, dangerous, deprecated, ignored⟩,
    ⟨total.isLt, breaking.isLt, dangerous.isLt, deprecated.isLt, ignored.isLt⟩⟩

structure Fingerprint where
  label : String
  sha256 : String
  deriving DecidableEq, Repr

def Fingerprint.of (label text : String) : Fingerprint := ⟨label, Digest.sha256 text⟩

structure Report where
  version : ReportVersion
  timestamp : String
  summary : Summary
  source : Option Fingerprint
  target : Option Fingerprint
  breaking : List Change
  dangerous : List Change
  deriving DecidableEq, Repr

abbrev SizedReport := { r : Report // r.summary.Fits }

def SizedReport.ofParts (version : ReportVersion) (timestamp : String) (summary : SizedSummary)
    (source target : Option Fingerprint) (breaking dangerous : List Change) : SizedReport :=
  ⟨⟨version, timestamp, summary.val, source, target, breaking, dangerous⟩, summary.property⟩

namespace Report

def summarize (s : ChangeSet) : Summary :=
  { total := s.size
    breaking := s.breaking.length
    dangerous := s.dangerous.length
    deprecated := s.toList.countP (·.wasDeprecated)
    ignored := 0 }

def ofChanges (timestamp : String) (s : ChangeSet) : Report :=
  ⟨.current, timestamp, summarize s, none, none, s.breaking, s.dangerous⟩

def withSources (source target : Fingerprint) (r : Report) : Report :=
  { r with source := some source, target := some target }

def withIgnored (ignored : Nat) (r : Report) : Report :=
  { r with summary := { r.summary with ignored } }

def hasBreaking (r : Report) : Bool := 0 < r.summary.breaking

def hasDangerous (r : Report) : Bool := 0 < r.summary.dangerous

def changes (r : Report) : List Change := r.breaking ++ r.dangerous

def exitCode (r : Report) (failOnDangerous : Bool) : Nat :=
  if r.hasBreaking || (failOnDangerous && r.hasDangerous) then 1 else 0

end Report
end SchemaDrift
