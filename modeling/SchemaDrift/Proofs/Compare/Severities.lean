import SchemaDrift.Proofs.Compare.Categories

/-! The two lists of a comparison, pass by pass. Passes that report breaking changes alone make up whole
blocks of the breaking list, in the order of the passes; the others sort what they find, one change
after another. What the extended passes find comes after all of that, in both lists. -/
namespace SchemaDrift.Compare
variable {old new : Model} {options : Options}

def pushed (changes : List Change) : ChangeSet := changes.foldl ChangeSet.push .empty

theorem pushedSorted (changes : List Change) : pushed changes = ChangeSet.ofList changes := by
  induction changes using List.reverseRecOn with
  | nil => rfl
  | append_singleton changes c ih =>
    rw [pushed, List.foldl_append, ← pushed, ih]
    exact ChangeSet.pushOfList changes c

def extendedFound (old new : Model) (options : Options) : ChangeSet :=
  ([unionChanges old new, addedValues old new, interfaceChanges old new,
    inputFieldChanges old new options, directiveChanges old new options].map pushed).foldl
      ChangeSet.append .empty

theorem extendedSorted (old new : Model) (options : Options) :
    extendedFound old new options = ChangeSet.ofList (extendedChanges old new options) := by
  have start : ∀ found, ChangeSet.empty.append (ChangeSet.ofList found) = ChangeSet.ofList found :=
    fun _ => rfl
  simp [extendedFound, extendedChanges, pushedSorted, start, ← ChangeSet.ofListAppend]

def coreBlocks (old new : Model) (options : Options) : List (List Change) :=
  [removedTypes old new options, changedKinds old new options, fieldChanges old new options,
    (pushed (argumentChanges old new options)).breaking, removedValues old new options]

def blockCategories : List (List Category) :=
  [[.typeRemoved], [.typeChangedKind], [.fieldRemoved, .fieldChangedKind],
    [.argRemoved, .argChangedKind, .argBecameRequired, .requiredArgAdded], [.valueRemovedFromEnum]]

theorem extendedAppended (old new : Model) (options : Options) : compare old new options =
    (compare old new { options with extended := false }).append
      (if options.extended then extendedFound old new options else .empty) := by
  have core : coreChanges old new { options with extended := false } = coreChanges old new options := rfl
  unfold compare changes
  rw [core]
  cases options.extended with
  | false => simp [ChangeSet.append, ChangeSet.empty]
  | true => simp [extendedSorted, ChangeSet.ofListAppend]

theorem coreWritten (core : options.extended = false) : compare old new options =
    ⟨(coreBlocks old new options).flatten, (pushed (argumentChanges old new options)).dangerous⟩ := by
  rw [← gatheredIsCompared]
  simp [gathered, core, coreBlocks, pushedSorted, ChangeSet.append, ChangeSet.empty]

def argumentCategories : List Category :=
  [.argRemoved, .argChangedKind, .argBecameRequired, .argDefaultValueChange] ++
    [.requiredArgAdded, .optionalArgAdded]

theorem argumentListed {c : Change} (told : c ∈ argumentChanges old new options) :
    c.category ∈ argumentCategories :=
  overPairsCategory (fun _ _ => argumentsCategory) c told

theorem argumentBreaks {c : Change} (inside : c ∈ (pushed (argumentChanges old new options)).breaking) :
    c.category ∈ [.argRemoved, .argChangedKind, .argBecameRequired, .requiredArgAdded] := by
  have severe : ∀ k ∈ argumentCategories, k.isBreaking = true →
      k ∈ [.argRemoved, .argChangedKind, .argBecameRequired, .requiredArgAdded] := by decide
  rw [pushedSorted] at inside
  obtain ⟨told, breaks⟩ := List.mem_filter.mp inside
  exact severe _ (argumentListed told) breaks

theorem argumentMild {c : Change} (inside : c ∈ (pushed (argumentChanges old new options)).dangerous) :
    c.category ∈ [.argDefaultValueChange, .optionalArgAdded] := by
  have mild : ∀ k ∈ argumentCategories, (!k.isBreaking) = true →
      k ∈ [.argDefaultValueChange, .optionalArgAdded] := by decide
  rw [pushedSorted] at inside
  obtain ⟨told, dangerous⟩ := List.mem_filter.mp inside
  exact mild _ (argumentListed told) dangerous

theorem blocksListed (old new : Model) (options : Options) :
    List.Forall₂ (fun categories block => ∀ c ∈ block, c.category ∈ categories)
      blockCategories (coreBlocks old new options) :=
  .cons removalsCategory <| .cons (overPairsCategory fun _ _ => kindsCategory) <|
    .cons (overPairsCategory fun _ _ => fieldsCategory) <| .cons (fun _ => argumentBreaks) <|
    .cons (overPairsCategory fun _ _ => valuesRemovedCategory) .nil

theorem severitySorted (old new : Model) (options : Options) :
    (∀ c ∈ (compare old new options).breaking, c.severity = .breaking) ∧
      ∀ c ∈ (compare old new options).dangerous, c.severity = .dangerous := by
  constructor
  · intro c inside
    exact beq_iff_eq.mp (List.mem_filter.mp inside).2
  · intro c inside
    have mild := (List.mem_filter.mp inside).2
    unfold Change.isBreaking Category.isBreaking at mild
    unfold Change.severity
    cases severity : c.category.severity with
    | breaking =>
      rw [severity] at mild
      contradiction
    | dangerous => rfl

structure Appends (old new : Model) (off on : Options) : Prop where
  found : extendedFound old new on = ChangeSet.ofList (extendedChanges old new on)
  breaking : (compare old new on).breaking =
    (compare old new off).breaking ++ (extendedFound old new on).breaking
  dangerous : (compare old new on).dangerous =
    (compare old new off).dangerous ++ (extendedFound old new on).dangerous
  blocks : (compare old new off).breaking = (coreBlocks old new off).flatten
  core : List.Forall₂ (fun categories block => ∀ c ∈ block, c.category ∈ categories)
    blockCategories (coreBlocks old new off)
  mild : ∀ c ∈ (compare old new off).dangerous,
    c.category ∈ [.argDefaultValueChange, .optionalArgAdded]
  sorted : ∀ options, (∀ c ∈ (compare old new options).breaking, c.severity = .breaking) ∧
    ∀ c ∈ (compare old new options).dangerous, c.severity = .dangerous

theorem extendedAppends (old new : Model) (deprecated required : String) :
    Appends old new ⟨false, deprecated, required⟩ ⟨true, deprecated, required⟩ where
  found := extendedSorted old new _
  breaking := congrArg ChangeSet.breaking (extendedAppended old new ⟨true, deprecated, required⟩)
  dangerous := congrArg ChangeSet.dangerous (extendedAppended old new ⟨true, deprecated, required⟩)
  blocks := congrArg ChangeSet.breaking (coreWritten rfl)
  core := blocksListed old new _
  mild c inside := by
    rw [coreWritten rfl] at inside
    exact argumentMild inside
  sorted := severitySorted old new

end SchemaDrift.Compare
