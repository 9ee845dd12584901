import SchemaDrift.Change.Json
import SchemaDrift.Proofs.Json.Record
import SchemaDrift.Proofs.Location

/-! Changes and change sets are what their JSON form is read as. A location or a requirement that is
not there has no entry, so none is what its cell comes to; two changes of one form are one change. -/
namespace SchemaDrift
open Json

theorem Category.readBack (c : Category) : Category.decode (.string c.name) = .ok c := by
  have distinct : ((Category.all.map fun c => (c.name, c)).map (·.1)).Nodup := by decide
  have member := List.mem_map_of_mem (f := fun c => (c.name, c)) (Category.memAll c)
  exact caseRead (Ordered.lookupOfMem distinct member)

theorem Location.readBack (l : Location) : Location.decode l.toJson = .ok l := by
  simp only [Location.decode, Location.toJson, decodeString, bind, Except.bind, Location.textRead]

section Entries
variable {α : Type} {key : String} {f : α → Json} {o : Option α}

@[simp] theorem optionalLookup (name : String) :
    (optionalEntry key f o).lookup name = if name = key then o.map f else none := by
  cases o with
  | none => simp [optionalEntry]
  | some a =>
    by_cases same : name = key
    · simp [optionalEntry, same]
    · simp [optionalEntry, List.lookup_cons, beq_eq_false_iff_ne.mpr same, same]

theorem optionalKeys : ((optionalEntry key f o).map (·.1)).Sublist [key] := by
  cases o with
  | none => exact List.nil_sublist _
  | some a => exact List.Sublist.refl _

end Entries

namespace Change

def entries (c : Change) : List (String × Json) :=
  [("type", .string c.category.name), ("message", .string c.message),
    ("resourceName", .string c.resource)] ++ optionalEntry "loc" Location.toJson c.location ++
    [("wasDeprecated", .boolean c.wasDeprecated)] ++
    optionalEntry "wasRequiredByDirective" .boolean c.wasRequired

theorem entriesInOrder (c : Change) : (c.entries.map (·.1)).Sublist fieldNames := by
  simp only [entries, List.map_append]
  exact (((List.Sublist.refl ["type", "message", "resourceName"]).append optionalKeys).append
    (.refl ["wasDeprecated"])).append optionalKeys

theorem laterEntries (c : Change) :
    c.entries.lookup "loc" = c.location.map Location.toJson ∧
    c.entries.lookup "wasDeprecated" = some (.boolean c.wasDeprecated) ∧
    c.entries.lookup "wasRequiredByDirective" = c.wasRequired.map .boolean := by
  simp [entries, List.lookup_append, List.lookup_cons]

theorem readBack (c : Change) : decode c.toJson = .ok c := by
  obtain ⟨locationEntry, deprecatedEntry, requiredEntry⟩ := c.laterEntries
  refine readThen (by decide) c.entriesInOrder fun r own => ?_
  have category : (r.cell "type" _).Holds _ := own.read rfl c.category.readBack
  have message : (r.cell "message" _).Holds _ := own.read rfl (stringRead c.message)
  have resource : (r.cell "resourceName" _).Holds _ := own.read rfl (stringRead c.resource)
  have location : (r.cell "loc" _).Holds _ :=
    own.optional locationEntry Location.readBack fun _ => nofun
  have deprecated : (r.cell "wasDeprecated" _).Holds _ := own.read deprecatedEntry (boolRead _)
  have required : (r.cell "wasRequiredByDirective" _).Holds _ :=
    own.optional requiredEntry boolRead fun _ => nofun
  simp only [bind, Except.bind, category.faultless, message.faultless, resource.faultless,
    location.faultless, deprecated.faultless, required.faultless, settleNone, settleNil,
    category.required, message.required, resource.required, location.withoutDefault,
    deprecated.withDefault, required.withoutDefault, Option.getD_some, own.finish]

theorem toJsonInjective {c d : Change} (same : c.toJson = d.toJson) : c = d := by
  have read := c.readBack
  rw [same, d.readBack] at read
  exact (Except.ok.inj read).symm

end Change

namespace ChangeSet

theorem changesRead (changes : List Change) :
    decodeList Change.decode (listJson changes) = .ok changes :=
  listRead fun c _ => c.readBack

theorem readBack (s : ChangeSet) : decode s.toJson = .ok s := by
  refine readThen (by decide) (.refl _) fun r own => ?_
  have breaking : (r.cell "breakingChanges" _).Holds _ := own.read rfl (changesRead s.breaking)
  have dangerous : (r.cell "dangerousChanges" _).Holds _ := own.read rfl (changesRead s.dangerous)
  simp only [bind, Except.bind, breaking.faultless, dangerous.faultless, settleNone, settleNil,
    breaking.required, dangerous.required, own.finish]

end ChangeSet
end SchemaDrift
