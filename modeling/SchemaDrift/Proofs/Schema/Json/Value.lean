import SchemaDrift.Proofs.Json.Record
import SchemaDrift.Proofs.Json.Text
import SchemaDrift.Proofs.Schema.Literal
import SchemaDrift.Schema.Json.Value

/-! Type references and constants are what their JSON forms are read as. -/
namespace SchemaDrift
open Json

section Cases
variable {κ : Type} {k : TagKeys} {cases : List (String × κ)} {name : String} {c : κ}

theorem writtenRead (known : cases.lookup name = some c) (content : Json) :
    k.read cases (k.write name content) = .ok (c, some content) := by
  have apart : ¬ k.content = k.tag := fun same => k.distinct same.symm
  simp [TagKeys.write, TagKeys.read, TagKeys.pair, k.distinct, caseRead known, Except.map]

theorem bareRead (known : cases.lookup name = some c) :
    k.read cases (k.writeBare name) = .ok (c, none) := by
  simp [TagKeys.writeBare, TagKeys.read, caseRead known, Except.map]

variable {reads : Binary64 → Prop}

theorem writtenExact (k : TagKeys) (name : String) {content : Json} (exact : Exact reads content) :
    Exact reads (k.write name content) := by
  refine .object fun e inside => ?_
  rcases List.mem_pair.mp inside with rfl | rfl
  · exact .string name
  · exact exact

theorem bareExact (k : TagKeys) (name : String) : Exact reads (k.writeBare name) :=
  .object (List.forall_mem_singleton.mpr (.string name))

end Cases

namespace TypeRef

def ofShape : Shape → Json → Except DecodeError TypeRef
  | .named, content => (decodeString content).map .named
  | .list, content => (decode content).map .list
  | .nonNull, content => (decode content).map .nonNull

theorem decodeRead {j content : Json} {shape : Shape}
    (read : tagKeys.read shapes j = .ok (shape, some content)) : decode j = ofShape shape content := by
  rw [decode]
  split
  case h_1 other => simp [read] at other
  case h_2 other => simp [read] at other
  all_goals
    rename_i found
    rw [read] at found
    cases found
    rfl

theorem readBack (t : TypeRef) : decode t.toJson = .ok t := by
  induction t with
  | named name =>
    have known : shapes.lookup "named" = some .named := rfl
    exact decodeRead (writtenRead known (.string name))
  | list item ih =>
    have known : shapes.lookup "list" = some .list := rfl
    rw [toJson, decodeRead (writtenRead known item.toJson), ofShape, ih]
    rfl
  | nonNull inner ih =>
    have known : shapes.lookup "non_null" = some .nonNull := rfl
    rw [toJson, decodeRead (writtenRead known inner.toJson), ofShape, ih]
    rfl

theorem exact (reads : Binary64 → Prop) (t : TypeRef) : Exact reads t.toJson := by
  induction t with
  | named name => exact writtenExact _ _ (.string name)
  | list item ih => exact writtenExact _ _ ih
  | nonNull inner ih => exact writtenExact _ _ ih

end TypeRef

namespace Constant

def ofKind : Literal.Kind → Json → Except DecodeError Constant
  | .null, content => decodeNull (some content)
  | .boolean, content => (decodeBool content).map .boolean
  | .integer, content => (decodeInt64 content).map .integer
  | .float, content => (decodeFloat content).map .float
  | .string, content => (decodeString content).map .string
  | .enumValue, content => (decodeString content).map .enumValue
  | .list, .array items => (decodeItems items).map .list
  | .list, content => .error (.wrongType content "a sequence")
  | .object, .object entries => (decodeEntries entries).map fun es => .object (Ordered.ofList es)
  | .object, content => .error (.wrongType content "a map")

theorem decodeBare {j : Json} (read : Literal.tagKeys.read Literal.kinds j = .ok (.null, none)) :
    decode j = .ok .null := by
  rw [decode]
  split
  case h_2 found =>
    rw [read] at found
    cases found
    rfl
  all_goals simp_all

theorem decodeRead {j content : Json} {kind : Literal.Kind}
    (read : Literal.tagKeys.read Literal.kinds j = .ok (kind, some content)) :
    decode j = ofKind kind content := by
  rw [decode]
  split
  case h_1 other => simp [read] at other
  case h_3 other => simp [read] at other
  all_goals
    rename_i found
    rw [read] at found
    cases found
    simp [ofKind]

theorem itemsRead {items : List Constant} (reads : ∀ c ∈ items, decode c.toJson = .ok c) :
    decodeItems (Literal.itemsJson (items.map (·.literal))) = .ok items := by
  induction items with
  | nil => rw [List.map_nil, Literal.itemsJson, decodeItems]
  | cons c rest ih =>
    obtain ⟨first, others⟩ := List.forall_mem_cons.mp reads
    rw [List.map_cons, Literal.itemsJson, decodeItems, ← toJson, first, ih others]
    rfl

theorem entriesRead {entries : List (String × Constant)}
    (reads : ∀ e ∈ entries, decode e.2.toJson = .ok e.2) :
    decodeEntries (Literal.entriesJson (entries.map fun e => (e.1, e.2.literal))) = .ok entries := by
  induction entries with
  | nil => rw [List.map_nil, Literal.entriesJson, decodeEntries]
  | cons e rest ih =>
    obtain ⟨first, others⟩ := List.forall_mem_cons.mp reads
    rw [List.map_cons, Literal.entriesJson, decodeEntries, ← toJson, first, ih others]
    rfl

theorem integerRead (i : Int64) : decodeInt64 (.integer i.toInt) = .ok i := by
  have word : int64? i.toInt = some i := by
    rw [int64?, if_pos ⟨i.minValue_le_toInt, i.toInt_le⟩, Int64.ofInt_toInt]
  rw [decodeInt64, word]

theorem readBack (c : Constant) : decode c.toJson = .ok c := by
  have written {name : String} {kind : Literal.Kind} (known : Literal.kinds.lookup name = some kind)
      (content : Json) : decode (Literal.tagKeys.write name content) = ofKind kind content :=
    decodeRead (writtenRead known content)
  induction c using nestedInduction with
  | null => exact decodeBare (bareRead rfl)
  | boolean b => exact written (rfl : Literal.kinds.lookup "boolean" = some .boolean) _
  | integer i =>
    refine (written (rfl : Literal.kinds.lookup "int" = some .integer) _).trans ?_
    rw [ofKind, integerRead]
    rfl
  | float x => exact written (rfl : Literal.kinds.lookup "float" = some .float) _
  | string s => exact written (rfl : Literal.kinds.lookup "string" = some .string) _
  | enumValue name => exact written (rfl : Literal.kinds.lookup "enum" = some .enumValue) _
  | list items ih =>
    refine (written (rfl : Literal.kinds.lookup "list" = some .list) _).trans ?_
    rw [ofKind, itemsRead ih]
    rfl
  | object s ih =>
    refine (written (rfl : Literal.kinds.lookup "object" = some .object) _).trans ?_
    have store : Ordered.ofList s.entries = s := Ordered.ext (Ordered.entriesOfList s.distinct)
    rw [ofKind, Ordered.entriesMap, entriesRead ih, Except.map, store]

end Constant

namespace Literal

section Exact
variable {reads : Binary64 → Prop}

theorem itemsExact {items : List Literal} (each : ∀ v ∈ items, Exact reads v.toJson) :
    ∀ j ∈ itemsJson items, Exact reads j := by
  induction items with
  | nil => simp [itemsJson]
  | cons v rest ih =>
    obtain ⟨first, others⟩ := List.forall_mem_cons.mp each
    rw [itemsJson]
    exact List.forall_mem_cons.mpr ⟨first, ih others⟩

theorem entriesExact {entries : List (String × Literal)} (each : ∀ e ∈ entries, Exact reads e.2.toJson) :
    ∀ e ∈ entriesJson entries, Exact reads e.2 := by
  induction entries with
  | nil => simp [entriesJson]
  | cons e rest ih =>
    obtain ⟨first, others⟩ := List.forall_mem_cons.mp each
    rw [entriesJson]
    exact List.forall_mem_cons.mpr ⟨first, ih others⟩

theorem exact (v : Literal) :
    (∀ x, .float x ∈ v.scalars → reads x) → Exact reads v.toJson := by
  induction v using nestedInduction with
  | null => exact fun _ => bareExact _ _
  | boolean b => exact fun _ => writtenExact _ _ (.boolean b)
  | integer i =>
    have low : -2 ^ 63 ≤ i.toInt := i.minValue_le_toInt
    have high : i.toInt ≤ 2 ^ 63 - 1 := i.toInt_le
    exact fun _ => writtenExact _ _ (.integer low (by omega))
  | float x => exact fun known => writtenExact _ _ (.float (known x (by simp [scalars])))
  | string s => exact fun _ => writtenExact _ _ (.string s)
  | enumValue name => exact fun _ => writtenExact _ _ (.string name)
  | list items ih =>
    intro known
    refine writtenExact _ _ (.array (itemsExact fun v inside => ih v inside fun x scalar => ?_))
    exact known x (memItemScalars.mpr ⟨v, inside, scalar⟩)
  | object entries ih =>
    intro known
    refine writtenExact _ _ (.object (entriesExact fun e inside => ih e inside fun x scalar => ?_))
    exact known x (memEntryScalars.mpr ⟨e, inside, scalar⟩)

end Exact

end Literal

end SchemaDrift
