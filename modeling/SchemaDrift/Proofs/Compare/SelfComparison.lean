import SchemaDrift.Proofs.Compare.Compatibility
import SchemaDrift.Proofs.Compare.Passes
import SchemaDrift.Proofs.Schema.Growth
import SchemaDrift.Proofs.Sdl.DocumentModel

/-! A model against itself. All passes are silent but one: an argument is compared with the first of
its name, so a field that names an argument twice may be reported against its own other argument. -/
namespace SchemaDrift.Compare

theorem missingNone {names others : List String} (h : ∀ n ∈ names, n ∈ others) :
    missingFrom names others = [] := by
  simpa [missingFrom] using h

theorem shapesSelf (t : TypeDef) : shapes? t t = t.shape?.map fun s => (s, s) := by
  unfold shapes? TypeDef.shape?
  cases t.body <;> rfl

theorem onShapesNil {changes : TypeDef → TypeDef → ObjectShape → ObjectShape → List Change}
    {t : TypeDef} : onShapes changes t t = [] ↔ ∀ s, t.shape? = some s → changes t t s s = [] := by
  rw [onShapes, shapesSelf]
  cases t.shape? <;> simp

theorem fieldsSelf (options : Options) (t : TypeDef) : fieldsChanged options t t = [] := by
  refine onShapesNil.mpr fun s _ => List.flatMap_eq_nil_iff.mpr fun e member => ?_
  have found : s.fields.get? e.1 = some e.2 := Ordered.getIffMem.mpr member
  simp [fieldChange, found, outputSafeRefl]

theorem valuesKept {options : Options} {o n : TypeDef} {before after : List EnumValue}
    (old : o.body = .enum before) (new : n.body = .enum after)
    (names : before.map (·.name) ⊆ after.map (·.name)) :
    valuesRemoved options o n = [] := by
  have nothing : (before.filter fun v => !after.any (·.name == v.name)) = [] := by
    refine List.filter_eq_nil_iff.mpr fun v member => ?_
    obtain ⟨w, inside, same⟩ := List.mem_map.mp (names (List.mem_map_of_mem member))
    simpa using ⟨w, inside, same⟩
  simp only [valuesRemoved, onEnums, old, new, nothing, List.map_nil]

theorem valuesRemovedSelf (options : Options) (t : TypeDef) : valuesRemoved options t t = [] := by
  cases body : t.body with
  | enum values => exact valuesKept body body (List.Subset.refl _)
  | _ => simp [valuesRemoved, onEnums, body]

theorem valuesAddedSelf (t : TypeDef) : valuesAdded t t = [] := by
  unfold valuesAdded onEnums
  cases t.body with
  | enum values => simpa [enumValueNamed?] using fun v member => ⟨v, member, rfl⟩
  | _ => rfl

theorem membersSelf (t : TypeDef) : membersChanged t t = [] := by
  unfold membersChanged
  cases t.body with
  | union members => simp [missingNone fun _ h => h]
  | _ => rfl

theorem interfacesSelf (t : TypeDef) : interfacesChanged t t = [] :=
  onShapesNil.mpr fun s _ => by simp [missingNone fun _ h => h]

theorem inputFieldsSelf (options : Options) (t : TypeDef) : inputFieldsChanged options t t = [] := by
  unfold inputFieldsChanged
  cases t.body with
  | inputObject fields =>
    have kept : fields.entries.flatMap (inputFieldChange options t.name fields) = [] := by
      refine List.flatMap_eq_nil_iff.mpr fun e member => ?_
      have found : fields.get? e.1 = some e.2 := Ordered.getIffMem.mpr member
      simp [inputFieldChange, found, inputSafeRefl]
    have nothing : (fields.entries.filter fun e => !fields.contains e.1) = [] := by
      refine List.filter_eq_nil_iff.mpr fun e member => ?_
      have present : fields.contains e.1 = true :=
        (Ordered.containsIff fields e.1).mpr (List.mem_map_of_mem member)
      simp [present]
    simp [kept, nothing]
  | _ => rfl

theorem directivePairKept {d e : DirectiveDef} (kept : d.Extends e) (options : Options)
    (resource : String) : directivePairChanges options resource d e = [] := by
  have removed : (d.arguments.filter fun a => (argumentNamed? e.arguments a.name).isNone) = [] :=
    allFound fun a member => kept.arguments (List.mem_map_of_mem member)
  have added : (e.arguments.filter fun a =>
      a.isRequired && (argumentNamed? d.arguments a.name).isNone) = [] := by
    refine List.filter_eq_nil_iff.mpr fun a member new => ?_
    obtain ⟨required, missing⟩ := Bool.and_eq_true_iff.mp new
    exact argumentMissing.mp missing (List.mem_map_of_mem (kept.optional a member required))
  have sites : (d.sites.filter fun s => !e.sites.contains s) = [] := by
    simpa using fun s member => kept.sites member
  simp only [directivePairChanges, removed, added, sites, List.map_nil, List.append_nil]

theorem directivesKept {old new : Model} (keyed : old.Keyed) (kept : old.Extends new)
    (options : Options) : directiveChanges old new options = [] := by
  refine List.flatMap_eq_nil_iff.mpr fun d member => ?_
  obtain ⟨e, found, extended⟩ := kept.directives d.name d (Model.directiveOfMem keyed member)
  unfold directiveChange
  split
  · rfl
  · simp [found, directivePairKept extended]

theorem directivePassKept {old new : Model} (keyed : old.Keyed) (kept : old.Extends new)
    (options : Options) : directivePass old new options = [] := by
  unfold directivePass
  rw [directivesKept keyed kept, ite_self]

def Agrees (f : Field) : Prop :=
  ∀ a ∈ f.arguments, ∃ first, argumentNamed? f.arguments a.name = some first ∧
    inputSafe a.type first.type = true ∧ keepsDefault a first = true

theorem argumentChangeNil {options : Options} {path field : String} {new : Field} {old : Argument} :
    argumentChange options path field new old = [] ↔
      ∃ kept, argumentNamed? new.arguments old.name = some kept ∧
        inputSafe old.type kept.type = true ∧ keepsDefault old kept = true := by
  unfold argumentChange
  cases argumentNamed? new.arguments old.name with
  | none => simp
  | some kept =>
    cases safe : inputSafe old.type kept.type <;> cases same : keepsDefault old kept <;>
      simp [safe, same]

theorem addedSelf (path : String) (f : Field) : addedArguments path f f = [] := by
  simp [addedArguments, allFound fun a member => List.mem_map_of_mem member]

theorem argumentsSelf {options : Options} {t : TypeDef} :
    argumentsChanged options t t = [] ↔
      ∀ s, t.shape? = some s → ∀ e ∈ s.fields.entries, Agrees e.2 := by
  refine onShapesNil.trans (forall₂_congr fun s _ => ?_)
  rw [List.flatMap_eq_nil_iff]
  refine forall₂_congr fun e member => ?_
  have found : s.fields.get? e.1 = some e.2 := Ordered.getIffMem.mpr member
  simp only [fieldArgumentChanges, found, addedSelf, List.append_nil, List.flatMap_eq_nil_iff,
    argumentChangeNil, Agrees]

theorem agreesOfDistinct {f : Field} (names : f.DistinctArguments) : Agrees f := by
  intro a member
  refine ⟨a, argumentOfMem names member, inputSafeRefl a.type, ?_⟩
  unfold keepsDefault
  cases present : a.default with
  | none => rfl
  | some c => exact Constant.sameRefl ⟨_, Literal.coerceDistinct a.type c.distinct⟩

theorem pairPassesSelf {options : Options} {t : TypeDef}
    (agree : ∀ s, t.shape? = some s → ∀ e ∈ s.fields.entries, Agrees e.2) :
    ∀ pass ∈ pairPasses options, pass t t = [] := by
  intro pass listed
  rcases pairPassCases listed with (rfl | rfl | rfl | rfl) | rfl | rfl | rfl | rfl
  · exact sameKindSilent options rfl
  · exact fieldsSelf options t
  · exact argumentsSelf.mpr agree
  · exact valuesRemovedSelf options t
  · exact membersSelf t
  · exact valuesAddedSelf t
  · exact interfacesSelf t
  · exact inputFieldsSelf options t

theorem silentIffAgrees {m : Model} (keyed : m.Keyed) {options : Options} :
    changes m m options = [] ↔ m.EveryField Agrees := by
  constructor
  · intro silent t member s shape e inside
    have quiet : argumentsChanged options t t = [] := by
      refine List.eq_nil_iff_forall_not_mem.mpr fun c reported => ?_
      have change := memChanges.mpr (.pair member (Model.typeOfMem keyed member)
        (argumentsListed options) reported)
      rw [silent] at change
      contradiction
    exact argumentsSelf.mp quiet s shape e inside
  · intro agree
    refine List.eq_nil_iff_forall_not_mem.mpr fun c reported => ?_
    cases memChanges.mp reported with
    | @removed t member absent =>
      rw [Model.typeOfMem keyed member] at absent
      contradiction
    | @pair t u member found pass listed inside =>
      have same : t = u := Option.some.inj ((Model.typeOfMem keyed member).symm.trans found)
      subst same
      rw [pairPassesSelf (agree t member) pass listed] at inside
      contradiction
    | directive inside =>
      rw [directivePassKept keyed m.extendsRefl] at inside
      contradiction

theorem emptyIff {old new : Model} {options : Options} :
    compare old new options = .empty ↔ changes old new options = [] := by
  constructor
  · intro empty
    have size := ChangeSet.sizeOfList (changes old new options)
    rw [show ChangeSet.ofList (changes old new options) = .empty from empty] at size
    exact List.eq_nil_of_length_eq_zero size.symm
  · intro nothing
    rw [compare, nothing]
    rfl

theorem selfComparisonClean {text : String} {m : Model} (read : Sdl.readSchema text = .ok m)
    (options : Options) :
    (compare m m options = .empty ↔ m.EveryField Agrees) ∧
    (m.EveryField Field.DistinctArguments → compare m m options = .empty) := by
  have keyed := Sdl.readKeyed read
  refine ⟨emptyIff.trans (silentIffAgrees keyed), fun distinct => ?_⟩
  refine emptyIff.mpr ((silentIffAgrees keyed).mpr fun t member shape shaped e inside => ?_)
  exact agreesOfDistinct (distinct t member shape shaped e inside)

def textWithDefaults : String :=
  "type Q \x7b f(a: [In] = \x7bk: [1], n: 2.5\x7d, b: Int! = 3): Q \x7d " ++
    "input In \x7b k: [Int] n: Float \x7d"

theorem selfComparisonCleanWithDefaults : ∃ m,
    Sdl.readSchema textWithDefaults = .ok m ∧ m.EveryField Field.DistinctArguments ∧
    compare m m ⟨true, "deprecated", "required"⟩ = .empty := by
  obtain ⟨m, read, distinct⟩ := Sdl.modelRead textWithDefaults
    (fun m => decide (m.EveryField Field.DistinctArguments)) (by decide +kernel)
  have distinct := of_decide_eq_true distinct
  exact ⟨m, read, distinct, (selfComparisonClean read _).2 distinct⟩

/- The second `a` is compared with the first one, which is of another type. -/
theorem repeatedArgumentReported : ¬ ∀ text m options, Sdl.readSchema text = .ok m →
    compare m m options = .empty := by
  intro clean
  obtain ⟨m, read, reported⟩ := Sdl.modelRead "type Q \x7b f(a: Int, a: String): Q \x7d"
    (fun m => !(compare m m .standard).breaking.isEmpty) (by decide +kernel)
  rw [clean _ m .standard read] at reported
  contradiction

end SchemaDrift.Compare
