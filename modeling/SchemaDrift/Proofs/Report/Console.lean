import SchemaDrift.Proofs.Report.Layout
import SchemaDrift.Report.Console

/-! Reports for a terminal, line by line. -/
namespace SchemaDrift.Console
open Text (Unbroken unlines unbrokenDecimal)

def clean (colors : Bool) : String :=
  if colors then "\x1b[1;32m✓ No breaking or dangerous changes!\x1b[0m"
  else "✓ No breaking or dangerous changes!"

def ruler (colors : Bool) : String := styled colors [.brightBlue] (String.ofList (List.replicate 60 '='))

theorem cleanWritten (colors : Bool) : cleanLine colors = unlines [clean colors] := by
  cases colors <;> simp [cleanLine, clean, unlines, styled, escape, joinCodes, Style.code]

theorem ruleWritten (colors : Bool) : rule colors = unlines [ruler colors] := by
  simp [rule, ruler, unlines]

section Styles
variable (colors : Bool) (styles : List Style) {text : String}

def before : String := if colors then escape ++ "[" ++ joinCodes styles ++ "m" else ""

def after : String := if colors then escape ++ "[0m" else ""

theorem styledBetween (text : String) :
    styled colors styles text = before colors styles ++ text ++ after colors := by
  cases colors <;> simp [styled, before, after, String.append_assoc]

theorem unbrokenCodes : Unbroken (joinCodes styles) := by
  have code (s : Style) : Unbroken s.code := by cases s <;> decide
  induction styles using joinCodes.induct with
  | case1 => decide
  | case2 s => exact code s
  | case3 s rest _ ih => simp +decide [joinCodes, code, ih]

@[simp] theorem unbrokenBefore : Unbroken (before colors styles) := by
  cases colors <;> simp +decide [before, unbrokenCodes]

@[simp] theorem unbrokenAfter : Unbroken (after colors) := by
  cases colors <;> decide

@[simp] theorem unbrokenStyled : Unbroken (styled colors styles text) ↔ Unbroken text := by
  simp [styledBetween]

end Styles

@[simp] theorem unbrokenLocation (l : Location) : Unbroken l.text := by
  simp +decide [Location.text]

theorem unbrokenCategory (k : Category) : Unbroken k.name := by
  cases k <;> simp [Unbroken, Category.name]

theorem blankOther (colors : Bool) : OtherLine (clean colors) "" := by
  cases colors <;> simp [OtherLine, Unbroken, clean]

theorem rulerOther (colors : Bool) : OtherLine (clean colors) (ruler colors) := by
  have signs : Unbroken (String.ofList (List.replicate 60 '=')) := by
    intro inside
    rw [String.toList_ofList] at inside
    exact absurd (List.eq_of_mem_replicate inside) (by decide)
  refine ⟨(unbrokenStyled colors _).mpr signs, fun same => ?_⟩
  have starts := congrArg (fun line => line.toList.take 3) same
  cases colors <;> simp [ruler, styled, clean, escape, joinCodes, Style.code] at starts

def position (colors : Bool) : Option Location → String
  | some l => " " ++ styled colors [.dimmed] ("at " ++ l.text)
  | none => ""

def details (colors : Bool) (c : Change) : String :=
  position colors c.location ++
    if c.wasDeprecated then " " ++ styled colors [.dimmed] "(was deprecated)" else ""

theorem unbrokenDetails (colors : Bool) (c : Change) : Unbroken (details colors c) := by
  have place : Unbroken (position colors c.location) := by
    cases c.location <;> simp +decide [position]
  cases deprecated : c.wasDeprecated <;> simp +decide [details, deprecated, place]

def layout (colors : Bool) : Layout where
  clean := clean colors
  mark k := before colors [.bold, if k.isBreaking then .red else .yellow]
  size n := " (" ++ Text.decimalText n ++ ")" ++ after colors
  gap := []
  bullet := "  - "
  details := details colors
  closing := [ruler colors]
  unbroken := by cases colors <;> simp [Unbroken, clean]
  headings k n := by
    have size : Unbroken (" (" ++ Text.decimalText n ++ ")" ++ after colors) := by simp +decide
    cases colors with
    | false =>
      have lead : OtherLead (clean false) ("" ++ k.name) := by
        cases k <;> simp [OtherLead, Unbroken, clean, Category.name]
      exact otherLine lead size
    | true =>
      have lead : OtherLead (clean true) (before true [.bold, if k.isBreaking then .red else .yellow]) := by
        cases k.isBreaking <;> simp [OtherLead, Unbroken, clean, before, escape, joinCodes, Style.code]
      rw [String.append_assoc]
      exact otherLine lead (Text.unbrokenAppend.mpr ⟨unbrokenCategory k, size⟩)
  entries c message := by
    have lead : OtherLead (clean colors) "  - " := by cases colors <;> decide
    rw [String.append_assoc]
    exact otherLine lead (Text.unbrokenAppend.mpr ⟨message, unbrokenDetails colors c⟩)
  others := List.forall_mem_cons.mpr ⟨blankOther colors, List.forall_mem_singleton.mpr (rulerOther colors)⟩

theorem entryWritten (colors : Bool) : changeLine colors = fun c => (layout colors).entry c ++ "\n" := by
  funext c
  cases place : c.location <;>
    simp only [changeLine, Layout.entry, layout, details, position, place, String.append_assoc]

theorem groupWritten (colors : Bool) : group colors = fun g => unlines ((layout colors).group g) := by
  funext g
  have heading : heading colors g.1 g.2.length =
      (layout colors).mark g.1 ++ g.1.name ++ (layout colors).size g.2.length := by
    simp only [heading, styledBetween, layout, String.append_assoc]
  have blank : unlines [""] = "\n" := rfl
  rw [group, heading, entryWritten, ← Text.unlinesMap, ← blank]
  simp [Layout.group, layout, unlines, String.append_assoc]

def sourceLines : Option Fingerprint → Option Fingerprint → List String
  | some source, some target => ["From: " ++ source.label, "To:   " ++ target.label, ""]
  | _, _ => []

def summaryLines (colors : Bool) (s : Summary) : List String :=
  [styled colors [.bold] "Summary:", "  Total changes: " ++ Text.decimalText s.total,
    "  Breaking:  " ++ count colors [.bold, .red] s.breaking,
    "  Dangerous: " ++ count colors [.yellow] s.dangerous] ++
    (if 0 < s.ignored then ["  Ignored:   " ++ Text.decimalText s.ignored] else []) ++ [""]

def head (colors : Bool) (r : Report) : List String :=
  ["", ruler colors, styled colors [.bold, .brightBlue] "Schema Compatibility Report", ruler colors, ""] ++
    sourceLines r.source r.target ++ summaryLines colors r.summary

theorem sourcesWritten (source target : Option Fingerprint) :
    sources source target = unlines (sourceLines source target) := by
  cases source <;> cases target <;> simp [sources, sourceLines, unlines, ← String.toList_inj]

theorem ignoredWritten (n : Nat) :
    ignoredLine n = unlines (if 0 < n then ["  Ignored:   " ++ Text.decimalText n] else []) := by
  unfold ignoredLine
  split <;> simp [unlines]

theorem summaryWritten (colors : Bool) (s : Summary) :
    summary colors s = unlines (summaryLines colors s) := by
  rw [summaryLines, Text.unlinesAppend, Text.unlinesAppend, ← ignoredWritten, summary]
  simp [unlines, ← String.toList_inj]

theorem bodyWritten (colors : Bool) (r : Report) :
    (if r.summary.total = 0 then cleanLine colors
      else String.join ((groupByCategory r.changes).map (group colors))) ++ rule colors =
      unlines ((layout colors).body r.summary.total r.changes) := by
  rw [cleanWritten, groupWritten, ruleWritten, ← Text.unlinesFlatMap, Layout.body]
  split <;> exact Text.unlinesAppend.symm

theorem renderWritten (colors : Bool) (r : Report) : render colors r =
    unlines (head colors r) ++ unlines ((layout colors).body r.summary.total r.changes) := by
  rw [← bodyWritten, head, Text.unlinesAppend, Text.unlinesAppend, ← sourcesWritten, ← summaryWritten, render,
    ruleWritten]
  simp [unlines, String.append_assoc]

theorem sourcesOther (colors : Bool) {source target : Option Fingerprint}
    (labels : ∀ f, source = some f ∨ target = some f → Unbroken f.label) :
    ∀ s ∈ sourceLines source target, OtherLine (clean colors) s := by
  unfold sourceLines
  split
  · rename_i source target
    have leads : OtherLead (clean colors) "From: " ∧ OtherLead (clean colors) "To:   " := by
      cases colors <;> decide +kernel
    simp only [List.forall_mem_cons]
    exact ⟨otherLine leads.1 (labels _ (.inl rfl)), otherLine leads.2 (labels _ (.inr rfl)),
      blankOther colors, List.forall_mem_nil _⟩
  · exact List.forall_mem_nil _

theorem summaryOther (colors : Bool) (s : Summary) :
    ∀ l ∈ summaryLines colors s, OtherLine (clean colors) l := by
  have title : OtherLine (clean colors) (styled colors [.bold] "Summary:") := by
    cases colors <;> decide +kernel
  have leads : OtherLead (clean colors) "  Total changes: " ∧ OtherLead (clean colors) "  Breaking:  " ∧
      OtherLead (clean colors) "  Dangerous: " ∧ OtherLead (clean colors) "  Ignored:   " := by
    cases colors <;> decide +kernel
  have counts (styles : List Style) (n : Nat) : Unbroken (count colors styles n) := by
    simp [count]
  obtain ⟨total, breaking, dangerous, ignored⟩ := leads
  simp only [summaryLines, List.forall_mem_append, List.forall_mem_cons]
  refine ⟨⟨⟨title, otherLine total (unbrokenDecimal _), otherLine breaking (counts _ _),
    otherLine dangerous (counts _ _), List.forall_mem_nil _⟩, ?_⟩, blankOther colors, List.forall_mem_nil _⟩
  split
  · exact List.forall_mem_singleton.mpr (otherLine ignored (unbrokenDecimal _))
  · exact List.forall_mem_nil _

theorem headOther (colors : Bool) {r : Report}
    (labels : ∀ f, r.source = some f ∨ r.target = some f → Unbroken f.label) :
    ∀ s ∈ head colors r, OtherLine (clean colors) s := by
  have name : OtherLine (clean colors) (styled colors [.bold, .brightBlue] "Schema Compatibility Report") := by
    cases colors <;> decide +kernel
  have title : ∀ s ∈ ["", ruler colors, styled colors [.bold, .brightBlue] "Schema Compatibility Report",
      ruler colors, ""], OtherLine (clean colors) s := by
    simp only [List.forall_mem_cons]
    exact ⟨blankOther colors, rulerOther colors, name, rulerOther colors, blankOther colors,
      List.forall_mem_nil _⟩
  exact List.forall_mem_append.mpr ⟨List.forall_mem_append.mpr ⟨title, sourcesOther colors labels⟩,
    summaryOther colors _⟩

end SchemaDrift.Console
