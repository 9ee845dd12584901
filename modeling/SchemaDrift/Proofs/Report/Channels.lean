import SchemaDrift.Proofs.Compare.Categories
import SchemaDrift.Proofs.Compare.Messages
import SchemaDrift.Proofs.Report.Console
import SchemaDrift.Proofs.Report.Markdown
import SchemaDrift.Proofs.Report.Review
import SchemaDrift.Proofs.Report.WorkflowCommand
import SchemaDrift.Proofs.Sdl.Names

/-! Channels of one report. The annotations, the exit code, the terminal and Markdown say the same of a
review: their lists, counters and categories agree because every pass of the comparison writes each
change to the list of its severity, and ignoring changes keeps it there. What they print of a change is
one line, since the names in a schema document have no line feeds. -/
namespace SchemaDrift

namespace WorkflowCommand

structure Announces (c : Change) (l : String) : Prop where
  told : ∃ properties, l = "::" ++ level c ++ " " ++ properties ++ "::" ++ escapedData c.message
  oneLine : '\n' ∉ l.toList

theorem lineAnnounces (file : String) (c : Change) : Announces c (line file c) where
  told := by
    have apart : " file=" = " " ++ "file=" := rfl
    refine ⟨"file=" ++ escapedProperty file ++ position c.location ++ ",title=" ++
      escapedProperty c.category.name, ?_⟩
    simp only [line, apart, String.append_assoc]
  oneLine := lineUnbroken file c (by simp)

theorem errorLine {c : Change} (breaks : c.isBreaking = true) (file : String) :
    (line file c).startsWith "::error" = true := by
  rw [String.startsWith_string_iff]
  simp [line, level, breaks]

theorem warningLine {c : Change} (mild : c.isBreaking = false) (file : String) :
    (line file c).startsWith "::warning" = true ∧ (line file c).startsWith "::error" = false := by
  rw [String.startsWith_string_iff, String.startsWith_string_eq_false_iff]
  simp [line, level, mild]

end WorkflowCommand

namespace Review
open WorkflowCommand (line lines Announces lineAnnounces errorLine warningLine)

variable {timestamp : String} {old new : LabeledText} {config : Config} {options : Compare.Options}
  {r : Report}

structure Sorted (r : Report) : Prop where
  severe : ∀ c ∈ r.breaking, c.isBreaking = true
  mild : ∀ c ∈ r.dangerous, c.isBreaking = false
  breakingCount : r.summary.breaking = r.breaking.length
  dangerousCount : r.summary.dangerous = r.dangerous.length
  total : r.summary.total = r.changes.length

theorem Filters.sorted {rules : IgnoreRules} {before after : Model}
    (filters : Filters rules (Compare.gathered before after options) r) : Sorted r where
  severe c inside := by
    rw [filters.breaking, Compare.gatheredIsCompared] at inside
    exact (List.mem_filter.mp (List.mem_filter.mp inside).1).2
  mild c inside := by
    rw [filters.dangerous, Compare.gatheredIsCompared] at inside
    simpa using (List.mem_filter.mp (List.mem_filter.mp inside).1).2
  breakingCount := filters.breakingCount
  dangerousCount := filters.dangerousCount
  total := by rw [filters.total, filters.breakingCount, filters.dangerousCount, Report.changes,
    List.length_append]

structure Annotates (r : Report) (annotations : List String) : Prop where
  each : List.Forall₂ Announces r.changes annotations
  counted : annotations.length = r.summary.breaking + r.summary.dangerous
  errors : ∀ l ∈ annotations.take r.summary.breaking, l.startsWith "::error" = true
  warnings : ∀ l ∈ annotations.drop r.summary.breaking, l.startsWith "::warning" = true
  failing : r.exitCode false = 1 ↔ ∃ l ∈ annotations, l.startsWith "::error" = true
  failingStrict : r.exitCode true = 1 ↔ annotations ≠ []

theorem exitOne (r : Report) (strict : Bool) :
    r.exitCode strict = 1 ↔ 0 < r.summary.breaking ∨ strict = true ∧ 0 < r.summary.dangerous := by
  simp only [Report.exitCode, Report.hasBreaking, Report.hasDangerous, Bool.or_eq_true,
    Bool.and_eq_true, decide_eq_true_eq]
  split <;> simp [*]

theorem Sorted.annotates (sorted : Sorted r) (file : String) : Annotates r (lines r file) := by
  have halves : lines r file = r.breaking.map (line file) ++ r.dangerous.map (line file) :=
    List.map_append
  have first : (r.breaking.map (line file)).length = r.summary.breaking := by
    rw [List.length_map, sorted.breakingCount]
  have second : (r.dangerous.map (line file)).length = r.summary.dangerous := by
    rw [List.length_map, sorted.dangerousCount]
  constructor
  case each => exact List.forall₂_map_right_iff.mpr (List.forall₂_same.mpr fun c _ => lineAnnounces file c)
  case counted => rw [halves, List.length_append, first, second]
  case errors =>
    rw [halves, List.take_left' first]
    exact List.forall_mem_map.mpr fun c inside => errorLine (sorted.severe c inside) file
  case warnings =>
    rw [halves, List.drop_left' first]
    exact List.forall_mem_map.mpr fun c inside => (warningLine (sorted.mild c inside) file).1
  case failing =>
    rw [exitOne, or_iff_left (fun strict => Bool.false_ne_true strict.1), sorted.breakingCount,
      List.length_pos_iff_exists_mem]
    constructor
    · rintro ⟨c, inside⟩
      exact ⟨_, List.mem_map_of_mem (List.mem_append_left _ inside), errorLine (sorted.severe c inside) file⟩
    · rintro ⟨l, inside, error⟩
      obtain ⟨c, told, rfl⟩ := List.mem_map.mp inside
      rcases List.mem_append.mp told with breaking | dangerous
      · exact ⟨c, breaking⟩
      · rw [(warningLine (sorted.mild c dangerous) file).2] at error
        contradiction
  case failingStrict =>
    rw [exitOne, ← List.length_pos_iff_ne_nil, halves, List.length_append, first, second]
    simp only [true_and]
    omega

section Texts
variable {before after : Model} (readOld : Sdl.readSchema old.text = .ok before)
  (readNew : Sdl.readSchema new.text = .ok after)
  (filters : Filters config.ignore (Compare.gathered before after options) r)
include readOld readNew filters

theorem messagesPlain : ∀ c ∈ r.changes, Text.Unbroken c.message := by
  intro c inside
  obtain ⟨namesBefore, typesBefore⟩ := Sdl.readNamed readOld
  obtain ⟨namesAfter, typesAfter⟩ := Sdl.readNamed readNew
  have told : c ∈ (Compare.compare before after options).toList := by
    rw [Report.changes, filters.breaking, filters.dangerous, Compare.gatheredIsCompared] at inside
    exact List.mem_append.mpr ((List.mem_append.mp inside).imp (fun breaking => (List.mem_filter.mp breaking).1)
      fun dangerous => (List.mem_filter.mp dangerous).1)
  exact Compare.messagesUnbroken ⟨namesBefore, typesBefore⟩ ⟨namesAfter, typesAfter⟩
    (Compare.toldPerm.mem_iff.mp told)

end Texts

theorem channelsAgree (reviewed : review timestamp old new config options = .ok r) (file : String)
    (colors : Bool) :
    (∃ before after, Sdl.readSchema old.text = .ok before ∧ Sdl.readSchema new.text = .ok after ∧
      Filters config.ignore (Compare.gathered before after options) r) ∧
    Annotates r (lines r file) ∧
    (Console.layout colors).Prints [old.label, new.label] r.changes (lines r file)
      (Console.render colors r) ∧
    Markdown.layout.Prints [timestamp, old.label, new.label] r.changes (lines r file)
      (Markdown.render r) := by
  obtain ⟨before, after, readOld, readNew, reported⟩ := reviewedReads reviewed
  have filters : Filters config.ignore (Compare.gathered before after options) r := by
    rw [reported, Compare.gatheredIsCompared]
    exact reportFilters
  have sorted := filters.sorted
  have messages := messagesPlain readOld readNew filters
  have sources : ∀ f, r.source = some f ∨ r.target = some f → f = old.fingerprint ∨ f = new.fingerprint := by
    rw [reported]
    exact fun f named => named.imp (fun same => (Option.some.inj same).symm) fun same => (Option.some.inj same).symm
  have time : r.timestamp = timestamp := by rw [reported]; rfl
  refine ⟨⟨before, after, readOld, readNew, filters⟩, sorted.annotates file, ?_, ?_⟩
  · refine Layout.prints sorted.severe sorted.mild messages _ sorted.total ?_ (Console.renderWritten colors r)
    intro plain
    refine Console.headOther colors fun f named => ?_
    rcases sources f named with rfl | rfl <;> exact plain _ (by simp [LabeledText.fingerprint, Fingerprint.of])
  · refine Layout.prints sorted.severe sorted.mild messages _ sorted.total ?_ (Markdown.renderWritten r)
    intro plain
    refine Markdown.headOther (time ▸ plain _ List.mem_cons_self) fun f named => ?_
    rcases sources f named with rfl | rfl <;>
      exact ⟨plain _ (by simp [LabeledText.fingerprint, Fingerprint.of]), Digest.unbrokenDigest _⟩

theorem channelsAgreeOfThreeChanges :
    ∃ r, review "now" oldVersion newVersion .standard .standard = .ok r ∧
      (lines r "new.graphql").length = 3 ∧
      (∀ l ∈ (lines r "new.graphql").take 2, l.startsWith "::error" = true) ∧
      (∀ l ∈ (lines r "new.graphql").drop 2, l.startsWith "::warning" = true) ∧
      r.exitCode false = 1 ∧
      "✓ No breaking or dangerous changes!" ∉ Text.lines (Console.render false r) ∧
      "✅ **No breaking or dangerous changes!**" ∉ Text.lines (Markdown.render r) := by
  obtain ⟨before, after, readOld, readNew, found⟩ := Sdl.modelsRead oldVersion.text newVersion.text
    (fun before after => decide ((Compare.compare before after .standard).breaking.length = 2) &&
      decide ((Compare.compare before after .standard).dangerous.length = 1)) (by decide +kernel)
  simp only [Bool.and_eq_true, decide_eq_true_eq] at found
  obtain ⟨breaking, dangerous⟩ := found
  obtain ⟨r, reviewed, two, one⟩ : ∃ r, review "now" oldVersion newVersion .standard .standard = .ok r ∧
      r.summary.breaking = 2 ∧ r.summary.dangerous = 1 :=
    ⟨_, bothRead readOld readNew, breaking, dangerous⟩
  obtain ⟨_, annotated, console, markdown⟩ := channelsAgree reviewed "new.graphql" false
  have all : (lines r "new.graphql").length = 3 := by rw [annotated.counted, two, one]
  have told : lines r "new.graphql" ≠ [] := List.ne_nil_of_length_eq_add_one all
  refine ⟨r, reviewed, all, two ▸ annotated.errors, two ▸ annotated.warnings, ?_,
    fun clean => told ((console.clean (by decide)).mp clean),
    fun clean => told ((markdown.clean (by decide)).mp clean)⟩
  rw [exitOne, two]
  exact .inl Nat.two_pos

end Review
end SchemaDrift
