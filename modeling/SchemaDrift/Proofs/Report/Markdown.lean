import SchemaDrift.Proofs.Report.Layout
import SchemaDrift.Report.Markdown

/-! Reports as Markdown, line by line. -/
namespace SchemaDrift

theorem Digest.unbrokenDigest (text : String) : Text.Unbroken (sha256 text) := by
  have digit : ∀ d < 16, Text.digitChar d ≠ '\n' := by decide
  intro inside
  rw [sha256, String.toList_ofList] at inside
  obtain ⟨w, _, inside⟩ := List.mem_flatMap.mp inside
  obtain ⟨i, _, same⟩ := List.mem_map.mp inside
  exact digit _ (Nat.mod_lt _ (by decide)) same

namespace Markdown
open Text (Unbroken unlines unbrokenDecimal)

def clean : String := "✅ **No breaking or dangerous changes!**"

theorem unbrokenPosition (l : Option Location) : Unbroken (position l) := by
  cases l <;> simp +decide [position]

def layout : Layout where
  clean := clean
  mark k := "### " ++ sign k ++ " "
  size _ := ""
  gap := [""]
  bullet := "- "
  details c := position c.location
  closing := []
  unbroken := by decide
  headings k _ := by
    have lead : OtherLead clean "### " := by decide
    have rest : Unbroken (sign k ++ " " ++ k.name ++ "") := by
      cases k <;> simp [Unbroken, sign, Category.isBreaking, Category.severity, Category.name]
    simpa [String.append_assoc] using otherLine lead rest
  entries c message := by
    rw [String.append_assoc]
    exact otherLine (by decide) (Text.unbrokenAppend.mpr ⟨message, unbrokenPosition _⟩)
  others := by decide

theorem entryWritten : changeLine = fun c => layout.entry c ++ "\n" := by
  funext c
  simp only [changeLine, Layout.entry, layout]

theorem groupWritten : group = fun g => unlines (layout.group g) := by
  funext g
  rw [group, entryWritten, ← Text.unlinesMap]
  simp [Layout.group, layout, unlines, ← String.toList_inj]

def sourceLines : Option Fingerprint → Option Fingerprint → List String
  | some source, some target =>
    ["**From:** `" ++ source.label ++ "` (`" ++ shortDigest source.sha256 ++ "`)", "",
      "**To:** `" ++ target.label ++ "` (`" ++ shortDigest target.sha256 ++ "`)", ""]
  | _, _ => []

def summaryLines (s : Summary) : List String :=
  ["## Summary", "", "- Total changes: " ++ Text.decimalText s.total,
    "- Breaking: " ++ Text.decimalText s.breaking, "- Dangerous: " ++ Text.decimalText s.dangerous,
    "- Ignored: " ++ Text.decimalText s.ignored, ""]

def titleLines (r : Report) : List String :=
  ["# Schema Compatibility Report", "", "**Version:** " ++ r.version.text, "",
    "**Timestamp:** " ++ r.timestamp, ""]

def head (r : Report) : List String :=
  titleLines r ++ sourceLines r.source r.target ++ summaryLines r.summary

theorem sourcesWritten (source target : Option Fingerprint) :
    sources source target = unlines (sourceLines source target) := by
  cases source <;> cases target <;>
    simp [sources, sourceLine, sourceLines, unlines, ← String.toList_inj]

theorem titleWritten (r : Report) :
    "# Schema Compatibility Report\n\n**Version:** " ++ r.version.text ++ "\n\n**Timestamp:** " ++
      r.timestamp ++ "\n\n" = unlines (titleLines r) := by
  simp [titleLines, unlines, ← String.toList_inj]

theorem summaryWritten (s : Summary) :
    "## Summary\n\n" ++ countLine "Total changes" s.total ++ countLine "Breaking" s.breaking ++
      countLine "Dangerous" s.dangerous ++ countLine "Ignored" s.ignored ++ "\n" =
      unlines (summaryLines s) := by
  simp [summaryLines, countLine, unlines, ← String.toList_inj]

theorem headWritten (r : Report) : header r = unlines (head r) := by
  rw [head, Text.unlinesAppend, Text.unlinesAppend, ← titleWritten, ← sourcesWritten, ← summaryWritten]
  unfold header
  simp only [String.append_assoc]

theorem renderWritten (r : Report) :
    render r = unlines (head r) ++ unlines (layout.body r.summary.total r.changes) := by
  have clean : cleanLine = unlines (layout.clean :: layout.closing) := by decide
  rw [render, headWritten, clean, groupWritten, ← Text.unlinesFlatMap, Layout.body]
  split <;> simp [Layout.listing, layout]

theorem unbrokenShort {digest : String} (unbroken : Unbroken digest) : Unbroken (shortDigest digest) := by
  have kept (n : Nat) (cs : List Char) : (Text.takeOctets n cs).Sublist cs := by
    induction cs generalizing n with
    | nil => exact .slnil
    | cons c cs ih =>
      simp only [Text.takeOctets]
      split
      · exact (ih _).cons_cons c
      · exact List.nil_sublist _
  intro inside
  rw [shortDigest, String.toList_ofList] at inside
  exact unbroken ((kept _ _).subset inside)

theorem sourcesOther {source target : Option Fingerprint}
    (plain : ∀ f, source = some f ∨ target = some f → Unbroken f.label ∧ Unbroken f.sha256) :
    ∀ s ∈ sourceLines source target, OtherLine clean s := by
  have written {lead : String} (other : OtherLead clean lead) {f : Fingerprint}
      (parts : Unbroken f.label ∧ Unbroken f.sha256) :
      OtherLine clean (lead ++ f.label ++ "` (`" ++ shortDigest f.sha256 ++ "`)") := by
    have rest : Unbroken (f.label ++ "` (`" ++ shortDigest f.sha256 ++ "`)") := by
      simp +decide [parts.1, unbrokenShort parts.2]
    simpa [String.append_assoc] using otherLine other rest
  unfold sourceLines
  split
  · have blank : OtherLine clean "" := by decide
    simp only [List.forall_mem_cons]
    exact ⟨written (by decide) (plain _ (.inl rfl)), blank, written (by decide) (plain _ (.inr rfl)), blank,
      List.forall_mem_nil _⟩
  · exact List.forall_mem_nil _

theorem summaryOther (s : Summary) : ∀ l ∈ summaryLines s, OtherLine clean l := by
  have counted {lead : String} (other : OtherLead clean lead) (n : Nat) :
      OtherLine clean (lead ++ Text.decimalText n) := otherLine other (unbrokenDecimal n)
  simp only [summaryLines, List.forall_mem_cons]
  exact ⟨by decide, by decide, counted (by decide) _, counted (by decide) _, counted (by decide) _,
    counted (by decide) _, by decide, List.forall_mem_nil _⟩

theorem headOther {r : Report} (time : Unbroken r.timestamp)
    (plain : ∀ f, r.source = some f ∨ r.target = some f → Unbroken f.label ∧ Unbroken f.sha256) :
    ∀ s ∈ head r, OtherLine clean s := by
  have version : Unbroken r.version.text := by simp +decide [ReportVersion.text]
  have title : ∀ s ∈ titleLines r, OtherLine clean s := by
    simp only [titleLines, List.forall_mem_cons]
    exact ⟨by decide, by decide, otherLine (by decide) version, by decide, otherLine (by decide) time,
      by decide, List.forall_mem_nil _⟩
  exact List.forall_mem_append.mpr ⟨List.forall_mem_append.mpr ⟨title, sourcesOther plain⟩, summaryOther _⟩

end Markdown
end SchemaDrift
