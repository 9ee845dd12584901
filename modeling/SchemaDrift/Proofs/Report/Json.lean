import SchemaDrift.Proofs.Change.Json
import SchemaDrift.Report.Json

/-! Reports are what their JSON form is read as, whatever they say: the numbers need not be those of
the lists, nor the digests those of any text. -/
namespace SchemaDrift
open Json

namespace ReportVersion

theorem readBack (v : ReportVersion) : decode v.toJson = .ok v := by
  refine readThen (by decide) (.refl _) fun r own => ?_
  have major : (r.cell "major" _).Holds _ := own.read rfl (belowRead v.major.toFin "u32")
  have minor : (r.cell "minor" _).Holds _ := own.read rfl (belowRead v.minor.toFin "u32")
  simp only [bind, Except.bind, major.faultless, minor.faultless, settleNone, settleNil,
    major.required, minor.required, own.finish, UInt32.ofFin_toFin]

end ReportVersion

namespace Summary

theorem readBack (s : SizedSummary) : decode s.val.toJson = .ok s := by
  obtain ⟨s, fits⟩ := s
  have count {n : Nat} (below : n < UInt64.size) : decodeCount (.integer n) = .ok ⟨n, below⟩ :=
    belowRead ⟨n, below⟩ "usize"
  refine readThen (by decide) (.refl _) fun r own => ?_
  have total : (r.cell "total" _).Holds _ := own.read rfl (count fits.total)
  have breaking : (r.cell "breaking" _).Holds _ := own.read rfl (count fits.breaking)
  have dangerous : (r.cell "dangerous" _).Holds _ := own.read rfl (count fits.dangerous)
  have deprecated : (r.cell "deprecated" _).Holds _ := own.read rfl (count fits.deprecated)
  have ignored : (r.cell "ignored" _).Holds _ := own.read rfl (count fits.ignored)
  simp only [bind, Except.bind, total.faultless, breaking.faultless, dangerous.faultless,
    deprecated.faultless, ignored.faultless, settleNone, settleNil, total.required,
    breaking.required, dangerous.required, deprecated.required, ignored.required, own.finish]
  rfl

end Summary

theorem Fingerprint.readBack (f : Fingerprint) : Fingerprint.decode f.toJson = .ok f := by
  refine readThen (by decide) (.refl _) fun r own => ?_
  have label : (r.cell "label" _).Holds _ := own.read rfl (stringRead f.label)
  have sha256 : (r.cell "sha256" _).Holds _ := own.read rfl (stringRead f.sha256)
  simp only [bind, Except.bind, label.faultless, sha256.faultless, settleNone, settleNil,
    label.required, sha256.required, own.finish]

namespace Report

def entries (r : Report) : List (String × Json) :=
  [("version", r.version.toJson), ("timestamp", .string r.timestamp),
    ("summary", r.summary.toJson)] ++ optionalEntry "from" Fingerprint.toJson r.source ++
    optionalEntry "to" Fingerprint.toJson r.target ++
    [("breakingChanges", ChangeSet.listJson r.breaking),
     ("dangerousChanges", ChangeSet.listJson r.dangerous)]

theorem entriesInOrder (r : Report) : (r.entries.map (·.1)).Sublist fieldNames := by
  simp only [entries, List.map_append]
  exact (((List.Sublist.refl ["version", "timestamp", "summary"]).append optionalKeys).append
    optionalKeys).append (.refl ["breakingChanges", "dangerousChanges"])

theorem laterEntries (r : Report) :
    r.entries.lookup "from" = r.source.map Fingerprint.toJson ∧
    r.entries.lookup "to" = r.target.map Fingerprint.toJson ∧
    r.entries.lookup "breakingChanges" = some (ChangeSet.listJson r.breaking) ∧
    r.entries.lookup "dangerousChanges" = some (ChangeSet.listJson r.dangerous) := by
  simp [entries, List.lookup_append, List.lookup_cons]

theorem readBack (r : SizedReport) : decode r.val.toJson = .ok r := by
  obtain ⟨r, fits⟩ := r
  obtain ⟨sourceEntry, targetEntry, breakingEntry, dangerousEntry⟩ := r.laterEntries
  refine readThen (by decide) r.entriesInOrder fun record own => ?_
  have version : (record.cell "version" _).Holds _ := own.read rfl r.version.readBack
  have timestamp : (record.cell "timestamp" _).Holds _ := own.read rfl (stringRead r.timestamp)
  have summary : (record.cell "summary" _).Holds _ := own.read rfl (Summary.readBack ⟨r.summary, fits⟩)
  have source : (record.cell "from" _).Holds _ :=
    own.optional sourceEntry Fingerprint.readBack fun _ => nofun
  have target : (record.cell "to" _).Holds _ :=
    own.optional targetEntry Fingerprint.readBack fun _ => nofun
  have breaking : (record.cell "breakingChanges" _).Holds _ :=
    own.read breakingEntry (ChangeSet.changesRead r.breaking)
  have dangerous : (record.cell "dangerousChanges" _).Holds _ :=
    own.read dangerousEntry (ChangeSet.changesRead r.dangerous)
  simp only [bind, Except.bind, version.faultless, timestamp.faultless, summary.faultless,
    source.faultless, target.faultless, breaking.faultless, dangerous.faultless, settleNone,
    settleNil, version.required, timestamp.required, summary.required, source.optional own.object,
    target.optional own.object, breaking.required, dangerous.required, own.finish]
  rfl

theorem reportsReadBack :
    (∀ r : SizedReport, decode r.val.toJson = .ok r) ∧
    (∀ s : ChangeSet, ChangeSet.decode s.toJson = .ok s) ∧
    (∀ c : Change, Change.decode c.toJson = .ok c ∧
      entry? c.toJson "loc" = c.location.map Location.toJson ∧
      entry? c.toJson "wasRequiredByDirective" = c.wasRequired.map .boolean) ∧
    ∀ c d : Change, c ≠ d → c.toJson ≠ d.toJson :=
  ⟨readBack, ChangeSet.readBack,
    fun c => ⟨c.readBack, c.laterEntries.1, c.laterEntries.2.2⟩,
    fun _ _ different same => different (Change.toJsonInjective same)⟩

theorem reportsReadBackLargest :
    let last : Nat := 18446744073709551615
    let change : Change := ⟨.argRemoved, "`a` removed", "Query.f.a",
      some ⟨UInt64.ofNat last, UInt64.ofNat last⟩, true, some false⟩
    let report : SizedReport := .ofParts ⟨4294967295, 0⟩ "2024-05-01T00:00:00Z"
      (.ofCounts (Fin.last last) (Fin.last last) 0 (Fin.last last) 0) none
      (some ⟨"new.graphql", "e3b0"⟩) [change] [{ change with location := none }]
    decode report.val.toJson = .ok report ∧
      entry? change.toJson "wasRequiredByDirective" = some (.boolean false) ∧
      { change with wasRequired := none } ≠ change ∧
      Change.toJson { change with wasRequired := none } ≠ change.toJson := by
  intro last change report
  have different : { change with wasRequired := none } ≠ change := by decide
  exact ⟨reportsReadBack.1 report, (reportsReadBack.2.2.1 _).2.2, different,
    reportsReadBack.2.2.2 _ _ different⟩

end Report
end SchemaDrift
