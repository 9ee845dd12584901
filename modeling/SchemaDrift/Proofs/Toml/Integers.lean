import SchemaDrift.Proofs.Ordered
import SchemaDrift.Toml.Reader

/-! Every integer in a document that was read fits a signed word of 64 bits: the readers of numbers
refuse others, and whatever grows a document keeps the integers that it holds. -/
namespace SchemaDrift.Toml

inductive Fits : Toml → Prop where
  | string (s : String) : Fits (.string s)
  | integer {i : Int} (word : (int64? i).isSome = true) : Fits (.integer i)
  | float (x : Binary64) : Fits (.float x)
  | boolean (b : Bool) : Fits (.boolean b)
  | moment : Fits .moment
  | array {items : List Toml} (each : ∀ v ∈ items, Fits v) : Fits (.array items)
  | table {origin : TableOrigin} {entries : Entries} (each : ∀ e ∈ entries, Fits e.2) :
    Fits (.table origin entries)
  | tables {items : List Entries} (each : ∀ entries ∈ items, ∀ e ∈ entries, Fits e.2) :
    Fits (.tables items)

def EntriesFit (entries : Entries) : Prop := ∀ e ∈ entries, Fits e.2

section Scalars
variable {cs rest : List Char} {v : Toml}

theorem wordKept {i j : Int} (kept : inInt64 i = some j) : (int64? j).isSome = true := by
  obtain ⟨w, word, same⟩ := Option.map_eq_some_iff.mp kept
  rw [← same, word]
  rfl

theorem basedFits {base : Nat} {digit : Char → Option Nat} (read : based? base digit cs = some (v, rest)) :
    Fits v := by
  simp only [based?, Option.bind_eq_bind, Option.bind_eq_some_iff] at read
  obtain ⟨run, -, n, -, i, kept, same⟩ := read
  cases same
  exact .integer (wordKept kept)

theorem signedFits {n : Option Nat} {f : Nat → Int}
    (read : (n.bind fun n => (inInt64 (f n)).bind fun i => some (.integer i, cs)) = some (v, rest)) :
    Fits v := by
  simp only [Option.bind_eq_some_iff] at read
  obtain ⟨n, -, i, kept, same⟩ := read
  cases same
  exact .integer (wordKept kept)

theorem fractionFits {n : Option Nat} {f : Nat → Binary64} {big : Binary64}
    (read : (n.bind fun n => if f n = big then none else some (.float (f n), cs)) = some (v, rest)) :
    Fits v := by
  obtain ⟨n, -, read⟩ := Option.bind_eq_some_iff.mp read
  split_ifs at read
  cases read
  exact .float _

theorem wholeFits {negative : Bool} (read : wholeOrFraction? negative cs = some (v, rest)) : Fits v := by
  simp only [wholeOrFraction?, Option.bind_eq_bind] at read
  obtain ⟨whole, -, read⟩ := Option.bind_eq_some_iff.mp read
  split at read
  all_goals
    obtain ⟨fraction, -, read⟩ := Option.bind_eq_some_iff.mp read
    split at read
  all_goals
    try split_ifs at read
  all_goals
    obtain ⟨power, -, read⟩ := Option.bind_eq_some_iff.mp read
    split at read
  all_goals first
    | exact signedFits read
    | exact fractionFits read

theorem numberFits (read : number? cs = some (v, rest)) : Fits v := by
  unfold number? at read
  split at read
  case h_1 => exact basedFits read
  case h_2 => exact basedFits read
  case h_3 => exact basedFits read
  case h_4 =>
    split at read
    case h_1 =>
      cases read
      exact .float _
    case h_2 =>
      cases read
      exact .float _
    case h_3 => exact wholeFits read

theorem momentFits (read : moment? cs = some (v, rest)) : Fits v := by
  unfold moment? at read
  grind [Fits.moment, Option.map_eq_some_iff]

theorem scalarFits (read : scalar? cs = some (v, rest)) : Fits v := by
  unfold scalar? at read
  split at read
  case h_1 =>
    cases read
    exact .boolean _
  case h_2 =>
    cases read
    exact .boolean _
  case h_3 =>
    split_ifs at read
    · obtain ⟨s, -, same⟩ := Option.map_eq_some_iff.mp read
      cases same
      exact .string _
    · split at read
      case h_1 moment =>
        cases read
        exact momentFits moment
      case h_2 => exact numberFits read
  case h_4 => contradiction

end Scalars

section Growth
variable {entries : Entries} {key : String} {v : Toml}

def KeepsFit (grow : Growth) : Prop :=
  ∀ (origin : TableOrigin) (entries grown : Entries), EntriesFit entries →
    grow origin entries = some grown → EntriesFit grown

theorem fitAppended (fit : EntriesFit entries) (new : Fits v) : EntriesFit (entries ++ [(key, v)]) := by
  rw [EntriesFit, List.forall_mem_append]
  exact ⟨fit, List.forall_mem_singleton.mpr new⟩

theorem fitSet (fit : EntriesFit entries) (new : Fits v) : EntriesFit (setEntry key v entries) := by
  intro e inside
  obtain ⟨old, member, rfl⟩ := List.mem_map.mp inside
  split
  case isTrue => exact new
  case isFalse => exact fit old member

theorem fitFound (fit : EntriesFit entries) (found : entries.lookup key = some v) : Fits v :=
  fit _ (Ordered.memOfLookup found)

theorem valueKeeps (dotted : Bool) (new : Fits v) : KeepsFit (addValue dotted key v) := by
  intro origin entries grown fit added
  rw [addValue] at added
  split_ifs at added
  cases added
  exact fitAppended fit new

theorem alongKeeps {grow : Growth} (dotted : Bool) (keeps : KeepsFit grow) (path : List String) :
    KeepsFit (along dotted grow path) := by
  induction path with
  | nil => exact keeps
  | cons key path ih =>
    intro origin entries grown fit grew
    rw [along] at grew
    split at grew
    case h_1 =>
      obtain ⟨inner, made, same⟩ := Option.bind_eq_some_iff.mp grew
      cases same
      exact fitAppended fit (.table (ih _ _ _ (by simp [EntriesFit]) made))
    case h_2 origin inner found =>
      split_ifs at grew
      obtain ⟨grown, made, same⟩ := Option.bind_eq_some_iff.mp grew
      cases same
      cases fitFound fit found with
      | table each => exact fitSet fit (.table (ih _ _ _ each made))
    case h_3 items found =>
      split at grew
      case h_1 => contradiction
      case h_2 last final =>
        obtain ⟨grown, made, same⟩ := Option.bind_eq_some_iff.mp grew
        cases same
        cases fitFound fit found with
        | tables each =>
          have before := each last (List.mem_of_getLast? final)
          refine fitSet fit (.tables (List.forall_mem_append.mpr ⟨fun entries inside => ?_, ?_⟩))
          · exact each entries (List.dropLast_subset items inside)
          · exact List.forall_mem_singleton.mpr (ih _ _ _ before made)
    case h_4 => contradiction

theorem dottedKeeps (path : List String) (new : Fits v) : KeepsFit (addDotted path key v) :=
  alongKeeps true (valueKeeps _ new) path

theorem tableKeeps (key : String) : KeepsFit (openTable key) := by
  intro origin entries grown fit opened
  unfold openTable at opened
  split at opened
  case h_1 =>
    cases opened
    exact fitAppended fit (.table (by simp))
  case h_2 inner found =>
    cases opened
    cases fitFound fit found with
    | table each => exact fitSet fit (.table each)
  case h_3 => contradiction

theorem elementKeeps (key : String) : KeepsFit (openElement key) := by
  intro origin entries grown fit opened
  unfold openElement at opened
  split at opened
  case h_1 =>
    cases opened
    exact fitAppended fit (.tables (by simp))
  case h_2 items found =>
    cases opened
    cases fitFound fit found with
    | tables each =>
      exact fitSet fit (.tables (List.forall_mem_append.mpr ⟨each, by simp⟩))
  case h_3 => contradiction

end Growth

section Values
variable {cs rest : List Char} {v : Toml}

theorem assignmentFits {fuel : Nat} {value : Reader Toml} {path : List String} {key : String}
    (fit : ∀ {cs rest v}, value cs = some (v, rest) → Fits v)
    (read : assignment? fuel value cs = some ((path, key, v), rest)) : Fits v := by
  simp only [assignment?, Option.bind_eq_bind, Option.bind_eq_some_iff] at read
  obtain ⟨parts, -, read⟩ := read
  split_ifs at read
  simp only [Option.bind_eq_some_iff] at read
  obtain ⟨split, -, read⟩ := read
  split at read
  case h_1 =>
    obtain ⟨found, value, same⟩ := Option.bind_eq_some_iff.mp read
    cases same
    exact fit value
  case h_2 => contradiction

/- A value, the items of an array and the entries between braces, each with less fuel. -/
theorem valueFits (fuel : Nat) :
    (∀ {depth cs v rest}, valueFrom? fuel depth cs = some (v, rest) → Fits v) ∧
    (∀ {depth cs items rest}, itemsFrom? fuel depth cs = some (items, rest) → ∀ v ∈ items, Fits v) ∧
    ∀ {depth entries cs out rest}, EntriesFit entries →
      inlineFrom? fuel depth entries cs = some (out, rest) → EntriesFit out := by
  induction fuel with
  | zero => exact ⟨nofun, nofun, fun _ => nofun⟩
  | succ fuel ih =>
    obtain ⟨value, items, inline⟩ := ih
    refine ⟨fun {depth cs v rest} read => ?_, fun {depth cs found rest} read => ?_,
      fun {depth entries cs out rest} fit read => ?_⟩
    · unfold valueFrom? at read
      split at read
      case h_1 =>
        split_ifs at read
        obtain ⟨found, between, same⟩ := Option.map_eq_some_iff.mp read
        cases same
        exact .array (items between)
      case h_2 =>
        split_ifs at read
        split at read
        case h_1 =>
          cases read
          exact .table (by simp)
        case h_2 =>
          obtain ⟨found, between, same⟩ := Option.map_eq_some_iff.mp read
          cases same
          exact .table (inline (by simp [EntriesFit]) between)
      case h_3 => exact scalarFits read
    · unfold itemsFrom? at read
      split at read
      case h_1 =>
        cases read
        simp
      case h_2 =>
        obtain ⟨⟨v, after⟩, first, line⟩ := Option.bind_eq_some_iff.mp read
        dsimp only at line
        split at line
        case h_1 =>
          obtain ⟨⟨others, tail⟩, more, same⟩ := Option.bind_eq_some_iff.mp line
          cases same
          exact List.forall_mem_cons.mpr ⟨value first, items more⟩
        case h_2 =>
          cases line
          exact List.forall_mem_singleton.mpr (value first)
        case h_3 => contradiction
    · unfold inlineFrom? at read
      obtain ⟨⟨⟨path, key, v⟩, after⟩, assigned, read⟩ := Option.bind_eq_some_iff.mp read
      obtain ⟨grown, grew, read⟩ := Option.bind_eq_some_iff.mp read
      have fits : EntriesFit grown := dottedKeeps path (assignmentFits value assigned) _ _ _ fit grew
      split at read
      case h_1 => exact inline fits read
      case h_2 =>
        cases read
        exact fits
      case h_3 => contradiction

end Values

section Documents
variable {d next : Draft} {cs rest : List Char}

theorem growFits {path : List String} {grow : Growth} (keeps : KeepsFit grow) (fit : EntriesFit d.entries)
    (grown : d.grow path grow = some next) : EntriesFit next.entries := by
  obtain ⟨entries, grew, same⟩ := Option.map_eq_some_iff.mp grown
  cases same
  exact alongKeeps false keeps path _ _ _ fit grew

theorem statementFits (fit : EntriesFit d.entries) (read : statement? d cs = some (next, rest)) :
    EntriesFit next.entries := by
  unfold statement? at read
  split at read
  case h_1 =>
    obtain ⟨⟨⟨path, key⟩, after⟩, -, line⟩ := Option.bind_eq_some_iff.mp read
    dsimp only at line
    split at line
    case h_1 =>
      obtain ⟨grown, grew, same⟩ := Option.bind_eq_some_iff.mp line
      cases same
      have kept := growFits (elementKeeps key) fit grew
      exact kept
    case h_2 => contradiction
  case h_2 =>
    obtain ⟨⟨⟨path, key⟩, after⟩, -, read⟩ := Option.bind_eq_some_iff.mp read
    obtain ⟨grown, grew, same⟩ := Option.bind_eq_some_iff.mp read
    cases same
    have kept := growFits (tableKeeps key) fit grew
    exact kept
  case h_3 =>
    obtain ⟨⟨⟨path, key, v⟩, after⟩, assigned, read⟩ := Option.bind_eq_some_iff.mp read
    obtain ⟨grown, grew, same⟩ := Option.bind_eq_some_iff.mp read
    cases same
    have new : Fits v := assignmentFits (fun read => (valueFits _).1 read) assigned
    exact growFits (dottedKeeps path new) fit grew

theorem statementsFit {fuel : Nat} {out : Draft} (fit : EntriesFit d.entries)
    (read : statements? fuel d cs = some out) : EntriesFit out.entries := by
  induction fuel generalizing d cs with
  | zero => contradiction
  | succ fuel ih =>
    rw [statements?] at read
    split at read
    case h_1 =>
      cases read
      exact fit
    case h_2 =>
      obtain ⟨⟨next, after⟩, line, read⟩ := Option.bind_eq_some_iff.mp read
      obtain ⟨rest, -, read⟩ := Option.bind_eq_some_iff.mp read
      exact ih (statementFits fit line) read

theorem documentFits {text : String} {entries : Entries} (read : parse? text = some entries) :
    EntriesFit entries := by
  obtain ⟨out, read, same⟩ := Option.map_eq_some_iff.mp read
  rw [← same]
  exact statementsFit (by simp [EntriesFit, Draft.empty]) read

end Documents
end SchemaDrift.Toml
