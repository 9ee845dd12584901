import SchemaDrift.Json.Decode
import SchemaDrift.Proofs.Ordered

/-! Reading back what was written. An object whose keys are fields, in the order of the fields, has no
key twice and none that is unknown, so every cell holds its own entry, or nothing where the entry was
left out. Whoever reads each field on its own so reads the record, and has no fault to settle. -/
namespace SchemaDrift.Json
variable {α : Type}

section Values
variable {d : Decoder α}

theorem stringRead (s : String) : decodeString (.string s) = .ok s := rfl

theorem boolRead (b : Bool) : decodeBool (.boolean b) = .ok b := rfl

theorem belowRead {bound : Nat} (n : Fin bound) (expected : String) :
    decodeBelow bound expected (.integer n) = .ok n := by
  rw [decodeBelow, dif_pos ⟨Int.natCast_nonneg _, Int.ofNat_lt.mpr n.isLt⟩]
  rfl

theorem listRead {write : α → Json} {xs : List α} (reads : ∀ x ∈ xs, d (write x) = .ok x) :
    decodeList d (.array (xs.map write)) = .ok xs := by
  rw [decodeList, List.mapM_map]
  exact (Ordered.mapMEach reads).trans (congrArg Except.ok (List.map_id xs))

theorem optionRead {j : Json} {a : α} (solid : j ≠ .null) (reads : d j = .ok a) :
    decodeOption d j = .ok (some a) := by
  unfold decodeOption
  split
  case h_1 => contradiction
  case h_2 => rw [reads]; rfl

theorem caseRead {cases : List (String × α)} {name : String} {a : α}
    (known : cases.lookup name = some a) : decodeCase cases (.string name) = .ok a := by
  simp only [decodeCase, decodeCaseName, bind, Except.bind, known]

end Values

inductive Cell.Holds (c : Cell α) : Option α → Prop where
  | read {place : Nat} {a : α} (found : c.content = some (place, .ok a)) : Holds c (some a)
  | absent (found : c.content = none) : Holds c none

namespace Cell.Holds

section Values
variable {c : Cell α} {o : Option α}

theorem faultless (holds : c.Holds o) : c.fault = none := by
  cases holds with
  | read found => rw [Cell.fault, found]
  | absent found => rw [Cell.fault, found]

theorem required {a : α} (holds : c.Holds (some a)) (r : Record) : r.required c = .ok a := by
  cases holds with
  | read found => rw [Record.required, found]

theorem withDefault (holds : c.Holds o) (r : Record) (a : α) :
    r.withDefault c a = .ok (o.getD a) := by
  cases holds with
  | read found => rw [Record.withDefault, found]; rfl
  | absent found => rw [Record.withDefault, found]; rfl

end Values

section Options
variable {c : Cell (Option α)} {o : Option α}

theorem withoutDefault (holds : c.Holds (o.map some)) (r : Record) :
    r.withDefault c none = .ok o := by
  rw [holds.withDefault]
  cases o <;> rfl

theorem present (holds : c.Holds (some o)) (r : Record) : r.optional c = .ok o := by
  cases holds with
  | read found => rw [Record.optional, found]

theorem optional (holds : c.Holds (o.map some)) {r : Record} (object : r.positional = false) :
    r.optional c = .ok o := by
  cases o with
  | none =>
    cases holds with
    | absent found => simp [Record.optional, found, object]
  | some a =>
    cases holds with
    | read found => simp [Record.optional, found]

end Options

end Cell.Holds

def entry? (j : Json) (key : String) : Option Json :=
  match j with
  | .object entries => entries.lookup key
  | _ => none

section Records
variable {title name : String} {fields : List String} {entries : List (String × Json)} {r : Record}

structure Record.Of (entries : List (String × Json)) (r : Record) : Prop where
  object : r.positional = false
  lookup (name : String) : (r.cells.lookup name).map (·.2) = entries.lookup name

namespace Record.Of
variable {d : Decoder α}

theorem finish (own : r.Of entries) : r.finish = .ok () := by simp [Record.finish, own.object]

theorem read (own : r.Of entries) {j : Json} {a : α} (found : entries.lookup name = some j)
    (reads : d j = .ok a) : (r.cell name d).Holds (some a) := by
  rw [← own.lookup] at found
  obtain ⟨⟨place, j⟩, entry, rfl⟩ := Option.map_eq_some_iff.mp found
  exact .read (by rw [Record.cell, entry, Option.map_some, reads])

theorem absent (own : r.Of entries) (missing : entries.lookup name = none) :
    (r.cell name d).Holds none := by
  rw [← own.lookup] at missing
  exact .absent (by rw [Record.cell, Option.map_eq_none_iff.mp missing]; rfl)

theorem optional (own : r.Of entries) {o : Option α} {write : α → Json}
    (found : entries.lookup name = o.map write) (reads : ∀ a, d (write a) = .ok a)
    (solid : ∀ a, write a ≠ .null) : (r.cell name (decodeOption d)).Holds (o.map some) := by
  cases o with
  | none => exact own.absent found
  | some a => exact own.read found (optionRead (solid a) (reads a))

end Record.Of

theorem repeatedNone {names : List String} (once : names.Nodup) : repeated? names = none := by
  induction names with
  | nil => rfl
  | cons name names ih =>
    rw [List.nodup_cons] at once
    rw [repeated?, if_neg (by simpa using once.1), ih once.2]

theorem placedKeys (entries : List (String × Json)) :
    (placed entries).map (·.1) = entries.map (·.1) := by
  calc (placed entries).map (·.1) = (entries.zipIdx.map (·.1)).map (·.1) := by
        rw [placed, List.map_map, List.map_map]
        rfl
    _ = entries.map (·.1) := by rw [List.zipIdx_map_fst]

theorem placedLookup (entries : List (String × Json)) (name : String) :
    ((placed entries).lookup name).map (·.2) = entries.lookup name := by
  unfold placed
  generalize 0 = start
  induction entries generalizing start with
  | nil => rfl
  | cons e rest ih =>
    rw [List.zipIdx_cons, List.map_cons, List.lookup_cons, List.lookup_cons]
    cases name == e.1 with
    | true => rfl
    | false => exact ih _

theorem readThen {β : Type} {next : Record → Except DecodeError β} {out : Except DecodeError β}
    (once : fields.Nodup) (inOrder : (entries.map (·.1)).Sublist fields)
    (reads : ∀ r : Record, r.Of entries → next r = out) :
    (readRecord title fields (.object entries) >>= next) = out := by
  have known : (placed entries).filter (fun c => fields.contains c.1) = placed entries := by
    refine List.filter_eq_self.mpr fun c member => ?_
    have key := List.mem_map_of_mem (f := (·.1)) member
    rw [placedKeys] at key
    exact List.contains_iff_mem.mpr (inOrder.subset key)
  simp only [readRecord, known, placedKeys, repeatedNone (once.sublist inOrder)]
  exact reads _ ⟨rfl, placedLookup entries⟩

end Records

theorem settleNil : settle [] = .ok () := rfl

theorem settleNone (faults : List (Option (Nat × DecodeError))) :
    settle (none :: faults) = settle faults := rfl

end SchemaDrift.Json
