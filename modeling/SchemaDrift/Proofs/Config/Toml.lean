import Mathlib.Data.List.Forall2
import SchemaDrift.Config.File
import SchemaDrift.Proofs.FileStore
import SchemaDrift.Proofs.Ordered
import SchemaDrift.Proofs.Toml.Documents
import SchemaDrift.Proofs.Toml.Integers

/-! Configurations survive saving. Their text is a document of two settings and three tables with keys
of their own, whose values read back; the timeout does so if it fits a signed word, and what was read
from a text has such a timeout. -/
namespace SchemaDrift.Config
open Toml

def optionalLine (key : String) : Option String → List Line
  | some s => [⟨key, stringText s, .string s⟩]
  | none => []

def listLine (key : String) (values : List String) : Line :=
  ⟨key, arrayText (values.map stringText), .array (values.map .string)⟩

def lines (c : Config) : List Line :=
  [⟨"fail_on_dangerous", boolText c.failOnDangerous, .boolean c.failOnDangerous⟩,
   ⟨"extended_checks", boolText c.extendedChecks, .boolean c.extendedChecks⟩]

def hostLines (h : HostConfig) : List Line :=
  optionalLine "repository" h.repository ++ optionalLine "path" h.path ++
    [⟨"api_url", stringText h.apiUrl, .string h.apiUrl⟩,
     ⟨"timeout_secs", Text.decimal h.timeoutSeconds.toNat, .integer h.timeoutSeconds.toNat⟩]

def groups (c : Config) : Groups :=
  [("ignore", [listLine "resources" c.ignore.resources,
      listLine "categories" (c.ignore.categories.map (·.name))]),
   ("markers", [⟨"deprecated", stringText c.markers.deprecated, .string c.markers.deprecated⟩,
      ⟨"required", stringText c.markers.required, .string c.markers.required⟩]),
   ("github", hostLines c.host)]

theorem textLines (c : Config) : c.textChars = linesText c.lines ++ groupsText c.groups := by
  have optional (key : String) (s : Option String) :
      optionalAssignment key s = linesText (optionalLine key s) := by
    cases s <;> simp [optionalAssignment, optionalLine, linesText]
  simp [textChars, lines, groups, hostLines, listLine, linesText, groupsText, optional,
    Function.comp_def]

def keyNames : List String :=
  ["fail_on_dangerous", "extended_checks", "ignore", "resources", "categories", "markers", "deprecated",
   "required", "github", "repository", "path", "api_url", "timeout_secs"]

theorem bare {key : String} (known : key ∈ keyNames) : BareKey key := by
  have checked : ∀ key ∈ keyNames, key.toList ≠ [] ∧ key.toList.all isBareKey = true := by decide
  obtain ⟨nonempty, bare⟩ := checked key known
  exact ⟨nonempty, List.all_eq_true.mp bare⟩

theorem lineSound {key : String} {text : List Char} {v : Toml} (known : key ∈ keyNames)
    (assigned : Assigned text v) : Line.Sound ⟨key, text, v⟩ :=
  ⟨bare known, assigned⟩

theorem optionalSound {key : String} (known : key ∈ keyNames) (s : Option String) :
    ∀ l ∈ optionalLine key s, l.Sound := by
  cases s with
  | none => simp [optionalLine]
  | some s => exact List.forall_mem_singleton.mpr (lineSound known (stringShows s).assigned)

theorem listSound {key : String} (known : key ∈ keyNames) (values : List String) :
    (listLine key values).Sound := by
  refine lineSound known (arrayAssigned ?_)
  rw [List.forall₂_map_left_iff, List.forall₂_map_right_iff, List.forall₂_same]
  exact fun s _ => stringShows s

theorem linesSound (c : Config) : ∀ l ∈ c.lines, l.Sound := by
  simp only [lines, List.forall_mem_cons]
  exact ⟨lineSound (by decide) (boolShows _).assigned, lineSound (by decide) (boolShows _).assigned,
    by simp⟩

theorem groupsSound {c : Config} (bounded : (int64? c.host.timeoutSeconds.toNat).isSome) :
    ∀ g ∈ c.groups, ∀ l ∈ g.2, l.Sound := by
  simp only [groups, hostLines, List.forall_mem_cons, List.forall_mem_append]
  have host := lineSound (by decide : "timeout_secs" ∈ keyNames) (integerShows bounded).assigned
  exact ⟨⟨listSound (by decide) _, listSound (by decide) _, by simp⟩,
    ⟨lineSound (by decide) (stringShows _).assigned, lineSound (by decide) (stringShows _).assigned,
      by simp⟩,
    ⟨⟨optionalSound (by decide) _, optionalSound (by decide) _⟩,
      lineSound (by decide) (stringShows _).assigned, host, by simp⟩, by simp⟩

theorem groupsNamed (c : Config) : ∀ g ∈ c.groups, BareKey g.1 := by
  simp only [groups, List.forall_mem_cons]
  exact ⟨bare (by decide), bare (by decide), bare (by decide), by simp⟩

theorem hostDistinct (h : HostConfig) : DistinctKeys (linesEntries (hostLines h)) := by
  cases repository : h.repository <;> cases path : h.path <;>
    simp [DistinctKeys, linesEntries, hostLines, optionalLine, repository, path]

theorem groupsDistinct (c : Config) : ∀ g ∈ c.groups, DistinctKeys (linesEntries g.2) := by
  simp only [groups, List.forall_mem_cons]
  exact ⟨by simp [DistinctKeys, linesEntries, listLine], by simp [DistinctKeys, linesEntries],
    hostDistinct c.host, by simp⟩

theorem documentDistinct (c : Config) :
    DistinctKeys (linesEntries c.lines ++ groupsEntries c.groups) := by
  simp [DistinctKeys, linesEntries, groupsEntries, lines, groups]

theorem valuesRead {α : Type} {read : Toml → Option α} {write : α → Toml}
    (inverse : ∀ a, read (write a) = some a) (as : List α) :
    readList? read (.array (as.map write)) = some as := by
  rw [readList?, List.mapM_map]
  exact (Ordered.mapMEach fun a _ => inverse a).trans (congrArg some (List.map_id as))

theorem categoryRead (k : Category) : readCategory? (.string k.name) = some k := by
  cases k <;> decide

theorem secondsRead (w : UInt64) : readSeconds? (.integer w.toNat) = some w := by
  simp [readSeconds?]

theorem hostRead (h : HostConfig) :
    HostConfig.ofToml? (.table .header (linesEntries (hostLines h))) = some h := by
  obtain ⟨repository, path, apiUrl, timeout⟩ := h
  cases repository <;> cases path <;>
    simp [HostConfig.ofToml?, groupEntries?, readOr, linesEntries, hostLines, optionalLine, readString?,
      secondsRead, List.lookup_cons]

theorem ignoreRead (r : IgnoreRules) :
    IgnoreRules.ofToml? (.table .header (linesEntries [listLine "resources" r.resources,
      listLine "categories" (r.categories.map (·.name))])) = some r := by
  have strings : readList? readString? (.array (r.resources.map .string)) = some r.resources :=
    @valuesRead String readString? .string (fun _ => rfl) r.resources
  have categories : readList? readCategory? (.array (r.categories.map fun k => .string k.name)) =
      some r.categories :=
    @valuesRead Category readCategory? (fun k => .string k.name) categoryRead r.categories
  simp [IgnoreRules.ofToml?, groupEntries?, readOr, linesEntries, listLine, List.lookup_cons, strings,
    categories, Function.comp_def]

theorem markersRead (m : Markers) : Markers.ofToml? (.table .header
    [("deprecated", .string m.deprecated), ("required", .string m.required)]) = some m := by
  simp [Markers.ofToml?, groupEntries?, readOr, List.lookup_cons, readString?]

theorem entriesRead (c : Config) :
    ofEntries? (linesEntries c.lines ++ groupsEntries c.groups) = some c := by
  have ignore := ignoreRead c.ignore
  have markers := markersRead c.markers
  have host := hostRead c.host
  simp [ofEntries?, linesEntries, groupsEntries, lines, groups, readOr, List.lookup_cons, readBool?] at *
  simp [ignore, markers, host]

theorem parseText {c : Config} (bounded : (int64? c.host.timeoutSeconds.toNat).isSome) :
    parse (String.ofList c.textChars) = .ok c := by
  rw [parse, textLines, documentRead (linesSound c) (groupsNamed c) (groupsSound bounded)
    (groupsDistinct c) (documentDistinct c), Option.bind_some, entriesRead]

section Bounds
variable {entries : Entries} {t : Toml}

theorem standardBounded : HostConfig.standard.timeoutSeconds.toNat ≤ 2 ^ 63 - 1 := by decide

theorem wordOfNat {n : Nat} : (int64? n).isSome = true ↔ n ≤ 2 ^ 63 - 1 := by
  have low : Int64.minValue.toInt = -2 ^ 63 := rfl
  have high : Int64.maxValue.toInt = 2 ^ 63 - 1 := rfl
  rw [int64?, Option.isSome_ite, low, high]
  omega

theorem groupFits {names : List String} (fits : Fits t) (found : groupEntries? names t = some entries) :
    EntriesFit entries := by
  cases fits with
  | table each =>
    cases found
    exact each
  | array each =>
    cases found
    exact fun e inside => each _ (List.of_mem_zip inside).2
  | tables each =>
    cases found
    intro e inside
    obtain ⟨inner, member, same⟩ := List.mem_map.mp (List.of_mem_zip inside).2
    rw [← same]
    exact .table (each inner member)
  | moment =>
    cases found
    simp [EntriesFit]
  | string => contradiction
  | integer => contradiction
  | float => contradiction
  | boolean => contradiction

theorem readOrFound {α : Type} {name : String} {read : Toml → Option α} {default a : α}
    (fit : EntriesFit entries) (found : readOr entries name read default = some a) :
    a = default ∨ ∃ v, Fits v ∧ read v = some a := by
  unfold readOr at found
  split at found
  case h_1 =>
    cases found
    exact .inl rfl
  case h_2 v given => exact .inr ⟨v, fitFound fit given, found⟩

theorem secondsBounded {w : UInt64} (fits : Fits t) (read : readSeconds? t = some w) :
    w.toNat ≤ 2 ^ 63 - 1 := by
  cases fits with
  | @integer i word =>
    rw [readSeconds?] at read
    split_ifs at read with positive
    cases read
    have bounded : i.toNat ≤ 2 ^ 63 - 1 := wordOfNat.mp (by rwa [Int.toNat_of_nonneg positive])
    rwa [UInt64.toNat_ofNat_of_lt' (by rw [UInt64.size]; omega)]
  | _ => contradiction

theorem hostBounded {h : HostConfig} (fits : Fits t) (read : HostConfig.ofToml? t = some h) :
    h.timeoutSeconds.toNat ≤ 2 ^ 63 - 1 := by
  simp only [HostConfig.ofToml?, Option.bind_eq_bind, Option.bind_eq_some_iff] at read
  obtain ⟨entries, group, repository, -, path, -, apiUrl, -, timeout, given, same⟩ := read
  cases same
  rcases readOrFound (groupFits fits group) given with same | ⟨v, value, found⟩
  · exact same ▸ standardBounded
  · exact secondsBounded value found

theorem parsedBounded {text : String} {c : Config} (read : parse text = .ok c) :
    c.host.timeoutSeconds.toNat ≤ 2 ^ 63 - 1 := by
  unfold parse at read
  split at read
  case h_1 found =>
    cases read
    obtain ⟨entries, document, found⟩ := Option.bind_eq_some_iff.mp found
    simp only [ofEntries?, Option.bind_eq_bind, Option.bind_eq_some_iff] at found
    obtain ⟨dangerous, -, extended, -, ignore, -, markers, -, host, given, same⟩ := found
    cases same
    -- No table of the host at all, or one from which the timeout was read.
    rcases readOrFound (documentFits document) given with same | ⟨v, value, found⟩
    · exact same ▸ standardBounded
    · exact hostBounded value found
  case h_2 => contradiction

end Bounds

structure SavedAs (c : Config) (text : String) (files : FileStore) (path : String) : Prop where
  written : files.Writable path → ∃ after, c.save files path = (.ok (), after) ∧
    load after path = .ok c ∧ files.Rewritten path (Text.encodeUtf8 text.toList) after
  refused : ¬ files.Writable path → ∃ fault, c.save files path = (.error (.file fault), files)

def Survives (c : Config) : Prop := ∃ text, c.toToml = .ok text ∧ parse text = .ok c ∧
  ∀ files path, c.SavedAs text files path

theorem textSaved {c : Config} {text : String} (written : c.toToml = .ok text)
    (read : parse text = .ok c) (files : FileStore) (path : String) : c.SavedAs text files path where
  written := by
    rintro ⟨target, place⟩
    have saved := place.written (Text.encodeUtf8 text.toList)
    have rewritten := place.rewritten (Text.encodeUtf8 text.toList)
    refine ⟨_, ?_, ?_, rewritten⟩
    · rw [save, written]
      dsimp only
      rw [FileStore.writeText, saved]
    · rw [load, rewritten.readText]
      exact read
  refused closed := by
    obtain ⟨fault, failed⟩ := FileStore.unwritable closed (Text.encodeUtf8 text.toList)
    refine ⟨fault, ?_⟩
    rw [save, written]
    dsimp only
    rw [FileStore.writeText, failed]

theorem boundedSurvives {c : Config} (bounded : c.host.timeoutSeconds.toNat ≤ 2 ^ 63 - 1) :
    c.Survives := by
  have word := wordOfNat.mpr bounded
  have text : c.toToml = .ok (String.ofList c.textChars) := if_pos word
  exact ⟨_, text, parseText word, textSaved text (parseText word)⟩

theorem savedReadBack :
    (∀ c : Config, c.host.timeoutSeconds.toNat ≤ 2 ^ 63 - 1 → c.Survives) ∧
    (∀ c : Config, 2 ^ 63 - 1 < c.host.timeoutSeconds.toNat →
      ∀ (files : FileStore) (path : String), c.save files path = (.error .timeoutTooLong, files)) ∧
    ∀ (text : String) (c : Config), parse text = .ok c → c.Survives := by
  refine ⟨fun c bounded => boundedSurvives bounded, fun c beyond files path => ?_,
    fun text c read => boundedSurvives (parsedBounded read)⟩
  have long : ¬ (int64? c.host.timeoutSeconds.toNat).isSome = true := fun word =>
    absurd (wordOfNat.mp word) (by omega)
  have text : c.toToml = .error .timeoutTooLong := if_neg long
  rw [save, text]

def oddConfig : Config :=
  ⟨true, false, ⟨["Query.*", "C:\\dir", "don't \"quote\"", "two\nlines \"\"\" ''", "\x00"],
      [.fieldRemoved, .argDefaultValueChange]⟩,
    ⟨"'''\\", "\r\n\"\"\"'''"⟩, ⟨none, some "", "", UInt64.ofNat (2 ^ 63 - 1)⟩⟩

def overlongConfig : Config :=
  { oddConfig with host := { oddConfig.host with timeoutSeconds := UInt64.ofNat (2 ^ 63) } }

theorem oddSavedReadBack :
    (∃ after, oddConfig.save (FileStore.blank []) "/odd.toml" = (.ok (), after) ∧
      load after "/odd.toml" = .ok oddConfig) ∧
    overlongConfig.save (FileStore.blank []) "/odd.toml" = (.error .timeoutTooLong, FileStore.blank []) ∧
    parse "" = .ok standard ∧ standard.Survives := by
  obtain ⟨saved, refused, read⟩ := savedReadBack
  have nothing : parse "" = .ok standard := by decide
  have place : (FileStore.blank []).WritesTo "/odd.toml" ["odd.toml"] :=
    ⟨by decide, ⟨[[]], "odd.toml".toList, [], by decide, by decide, by decide, by decide, by decide,
      by decide⟩, by decide⟩
  obtain ⟨text, -, -, everywhere⟩ := saved oddConfig (by decide)
  obtain ⟨after, done, loaded, -⟩ := (everywhere (FileStore.blank []) "/odd.toml").written ⟨_, place⟩
  exact ⟨⟨after, done, loaded⟩, refused overlongConfig (by decide) _ _, nothing, read "" _ nothing⟩

end SchemaDrift.Config
