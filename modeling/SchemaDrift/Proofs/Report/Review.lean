import SchemaDrift.Proofs.Sdl.DocumentModel
import SchemaDrift.Report.Review

/-! Reviews. A review fails only where a text is no schema, with the error of the old text before that
of the new one. Otherwise its report lists what the comparison found and the rules let through, in
order; all numbers and the exit code follow from these lists. -/
namespace SchemaDrift.Review

variable {rules : IgnoreRules} {found : ChangeSet} {timestamp : String} {old new : LabeledText}

theorem emptyIgnoresNothing (empty : rules.isEmpty = true) (c : Change) : rules.ignores c = false := by
  obtain ⟨resources, categories⟩ := Bool.and_eq_true_iff.mp empty
  rw [List.isEmpty_iff] at resources categories
  simp [IgnoreRules.ignores, resources, categories]

theorem keptRetains (rules : IgnoreRules) (found : ChangeSet) :
    kept rules found = found.retain fun c => !rules.ignores c := by
  unfold kept
  split
  · rename_i empty
    have all : ∀ changes : List Change, changes.filter (fun c => !rules.ignores c) = changes :=
      fun changes => List.filter_eq_self.mpr fun c _ => by simp [emptyIgnoresNothing empty]
    simp only [ChangeSet.retain, all]
  · rfl

theorem keptSmaller (rules : IgnoreRules) (found : ChangeSet) : (kept rules found).size ≤ found.size := by
  rw [keptRetains]
  exact Nat.add_le_add (List.length_filter_le ..) (List.length_filter_le ..)

structure Filters (rules : IgnoreRules) (found : ChangeSet) (r : Report) : Prop where
  breaking : r.breaking = found.breaking.filter fun c => !rules.ignores c
  dangerous : r.dangerous = found.dangerous.filter fun c => !rules.ignores c
  breakingCount : r.summary.breaking = r.breaking.length
  dangerousCount : r.summary.dangerous = r.dangerous.length
  total : r.summary.total = r.summary.breaking + r.summary.dangerous
  ignored : r.summary.total + r.summary.ignored = found.size
  deprecated : r.summary.deprecated = r.changes.countP (·.wasDeprecated)

theorem reportFilters : Filters rules found (report timestamp rules old new found) where
  breaking := congrArg ChangeSet.breaking (keptRetains rules found)
  dangerous := congrArg ChangeSet.dangerous (keptRetains rules found)
  breakingCount := rfl
  dangerousCount := rfl
  total := rfl
  ignored := Nat.add_sub_cancel' (keptSmaller rules found)
  deprecated := rfl

theorem someKept {changes : List Change} :
    0 < (changes.filter fun c => !rules.ignores c).length ↔ ∃ c ∈ changes, rules.ignores c = false := by
  simp [List.length_pos_iff_exists_mem]

theorem Filters.exitCode {r : Report} (filters : Filters rules found r) (strict : Bool) :
    r.exitCode strict =
      if (∃ c ∈ found.breaking, rules.ignores c = false) ∨
        strict = true ∧ ∃ c ∈ found.dangerous, rules.ignores c = false then 1 else 0 := by
  have breaking : r.hasBreaking = true ↔ ∃ c ∈ found.breaking, rules.ignores c = false := by
    rw [Report.hasBreaking, decide_eq_true_iff, filters.breakingCount, filters.breaking, someKept]
  have dangerous : r.hasDangerous = true ↔ ∃ c ∈ found.dangerous, rules.ignores c = false := by
    rw [Report.hasDangerous, decide_eq_true_iff, filters.dangerousCount, filters.dangerous, someKept]
  simp only [Report.exitCode, Bool.or_eq_true, Bool.and_eq_true, breaking, dangerous]

section Outcomes
variable {config : Config} {options : Compare.Options}

theorem oldUnread {e : Sdl.SchemaError} (failed : Sdl.readSchema old.text = .error e) :
    review timestamp old new config options = .error ⟨old.label, e⟩ := by
  simp only [review, LabeledText.model, failed]
  rfl

theorem newUnread {before : Model} {e : Sdl.SchemaError} (read : Sdl.readSchema old.text = .ok before)
    (failed : Sdl.readSchema new.text = .error e) :
    review timestamp old new config options = .error ⟨new.label, e⟩ := by
  simp only [review, LabeledText.model, read, failed]
  rfl

theorem bothRead {before after : Model} (readOld : Sdl.readSchema old.text = .ok before)
    (readNew : Sdl.readSchema new.text = .ok after) :
    review timestamp old new config options =
      .ok (report timestamp config.ignore old new (Compare.compare before after options)) := by
  simp only [review, LabeledText.model, readOld, readNew]
  rfl

theorem failsIff : (∃ e, review timestamp old new config options = .error e) ↔
    (∃ e, Sdl.readSchema old.text = .error e) ∨ ∃ e, Sdl.readSchema new.text = .error e := by
  cases readOld : Sdl.readSchema old.text with
  | error e => simp [oldUnread readOld]
  | ok before =>
    cases readNew : Sdl.readSchema new.text with
    | error e => simp [newUnread readOld readNew]
    | ok after => simp [bothRead readOld readNew]

theorem reviewedReads {r : Report} (reviewed : review timestamp old new config options = .ok r) :
    ∃ before after, Sdl.readSchema old.text = .ok before ∧ Sdl.readSchema new.text = .ok after ∧
      r = report timestamp config.ignore old new (Compare.compare before after options) := by
  cases readOld : Sdl.readSchema old.text with
  | error e =>
    rw [oldUnread readOld] at reviewed
    contradiction
  | ok before =>
    cases readNew : Sdl.readSchema new.text with
    | error e =>
      rw [newUnread readOld readNew] at reviewed
      contradiction
    | ok after =>
      rw [bothRead readOld readNew] at reviewed
      cases reviewed
      exact ⟨before, after, rfl, rfl, rfl⟩

end Outcomes

theorem reviewExact (timestamp : String) (old new : LabeledText) (config : Config)
    (options : Compare.Options) :
    ((∃ e, review timestamp old new config options = .error e) ↔
      (∃ e, Sdl.readSchema old.text = .error e) ∨ ∃ e, Sdl.readSchema new.text = .error e) ∧
    (∀ e, Sdl.readSchema old.text = .error e →
      review timestamp old new config options = .error ⟨old.label, e⟩) ∧
    (∀ before e, Sdl.readSchema old.text = .ok before → Sdl.readSchema new.text = .error e →
      review timestamp old new config options = .error ⟨new.label, e⟩) ∧
    ∀ before after, Sdl.readSchema old.text = .ok before → Sdl.readSchema new.text = .ok after →
      ∃ r, review timestamp old new config options = .ok r ∧
        Filters config.ignore (Compare.compare before after options) r ∧
        ∀ strict, r.exitCode strict =
          if (∃ c ∈ (Compare.compare before after options).breaking, config.ignore.ignores c = false) ∨
            strict = true ∧
              ∃ c ∈ (Compare.compare before after options).dangerous, config.ignore.ignores c = false
          then 1 else 0 := by
  refine ⟨failsIff, fun _ => oldUnread, fun _ _ => newUnread, ?_⟩
  intro before after readOld readNew
  exact ⟨_, bothRead readOld readNew, reportFilters, reportFilters.exitCode⟩

def oldVersion : LabeledText := ⟨"old.graphql", "type Q \x7b a(x: Int): Q b: Q c: Q @deprecated \x7d"⟩

def newVersion : LabeledText := ⟨"new.graphql", "type Q \x7b a(x: Int, y: Int): Q \x7d"⟩

def noVersion : LabeledText := ⟨"none.graphql", "type Q \x7b a: \x7d"⟩

def lenient : Config := { Config.standard with ignore := ⟨["Q.b", "Q.c"], []⟩ }

/- Two of three changes are ignored, the deprecated field among them; only the strict exit code
tells the third one. The text that is no schema ends the review on either side. -/
theorem reviewExactOfIgnored :
    (∃ r, review "now" oldVersion newVersion lenient .standard = .ok r ∧
      r.summary = ⟨1, 0, 1, 0, 2⟩ ∧ r.exitCode false = 0 ∧ r.exitCode true = 1) ∧
    (∃ e, review "now" noVersion noVersion lenient .standard = .error ⟨noVersion.label, e⟩) ∧
    ∃ e, review "now" oldVersion noVersion lenient .standard = .error ⟨noVersion.label, e⟩ := by
  obtain ⟨before, after, readOld, readNew, found⟩ := Sdl.modelsRead oldVersion.text newVersion.text
    (fun before after => decide ((Compare.compare before after .standard).size = 3) &&
      (Compare.compare before after .standard).breaking.all lenient.ignore.ignores &&
      decide (((Compare.compare before after .standard).dangerous.map fun c =>
        (lenient.ignore.ignores c, c.wasDeprecated)) = [(false, false)])) (by decide +kernel)
  simp only [Bool.and_eq_true, decide_eq_true_eq, List.all_eq_true, List.map_eq_singleton_iff,
    Prod.mk.injEq] at found
  obtain ⟨⟨size, ignored⟩, c, told, kept, fresh⟩ := found
  have invalid : (Sdl.readSchema noVersion.text).isOk = false := by decide +kernel
  cases unread : Sdl.readSchema noVersion.text with
  | ok m =>
    rw [unread] at invalid
    contradiction
  | error e =>
    refine ⟨?_, ⟨e, (reviewExact ..).2.1 e unread⟩, e, (reviewExact ..).2.2.1 before e readOld unread⟩
    obtain ⟨r, reviewed, filters, exit⟩ :=
      (reviewExact "now" oldVersion newVersion lenient .standard).2.2.2 before after readOld readNew
    have breaking : r.breaking = [] := by simpa [filters.breaking] using ignored
    have dangerous : r.dangerous = [c] := by simp [filters.dangerous, told, kept]
    have noBreaking : r.summary.breaking = 0 := by rw [filters.breakingCount, breaking]; rfl
    have oneDangerous : r.summary.dangerous = 1 := by rw [filters.dangerousCount, dangerous]; rfl
    have one : r.summary.total = 1 := by rw [filters.total, noBreaking, oneDangerous]
    have two : r.summary.ignored = 2 := by have counted := filters.ignored; omega
    have noDeprecated : r.summary.deprecated = 0 := by
      simp [filters.deprecated, Report.changes, breaking, dangerous, fresh]
    refine ⟨r, reviewed, ?_, ?_, ?_⟩
    · calc r.summary
        _ = ⟨r.summary.total, r.summary.breaking, r.summary.dangerous, r.summary.deprecated,
            r.summary.ignored⟩ := rfl
        _ = ⟨1, 0, 1, 0, 2⟩ := by rw [one, noBreaking, oneDangerous, noDeprecated, two]
    · rw [exit]
      simpa using ignored
    · rw [exit, told]
      simp [kept]

end SchemaDrift.Review
