import SchemaDrift.Proofs.Compare.Told

/-! The categories that each pass may report. What a comparison tells under some categories is what
the passes with these categories tell, so a statement about one category needs one pass. -/
namespace SchemaDrift.Compare
variable {options : Options} {t u : TypeDef} {old new : Model}

theorem flatMapCategory {α : Type} {f : α → List Change} {categories : List Category}
    (reported : ∀ x, ∀ c ∈ f x, c.category ∈ categories) {xs : List α} :
    ∀ c ∈ xs.flatMap f, c.category ∈ categories := by
  intro c inside
  obtain ⟨x, _, told⟩ := List.mem_flatMap.mp inside
  exact reported x c told

section Passes

theorem removalsCategory : ∀ c ∈ removedTypes old new options, c.category ∈ [.typeRemoved] := by
  intro c inside
  obtain ⟨t, _, rfl⟩ := List.mem_map.mp inside
  exact List.mem_cons_self

theorem kindsCategory : ∀ c ∈ kindChanged options t u, c.category ∈ [.typeChangedKind] := by
  intro c inside
  unfold kindChanged at inside
  split at inside
  · rw [List.mem_singleton.mp inside]
    exact List.mem_cons_self
  · contradiction

theorem fieldsCategory :
    ∀ c ∈ fieldsChanged options t u, c.category ∈ [.fieldRemoved, .fieldChangedKind] := by
  intro c inside
  cases fieldTold inside <;> simp [fieldRemoved, fieldRetyped]

theorem argumentCategory {path name : String} {f : Field} {a : Argument} :
    ∀ c ∈ argumentChange options path name f a,
      c.category ∈ [.argRemoved, .argChangedKind, .argBecameRequired, .argDefaultValueChange] := by
  intro c inside
  unfold argumentChange at inside
  split at inside
  · rw [List.mem_singleton.mp inside]
    simp [argumentRemoved]
  · split at inside
    · rw [List.mem_singleton.mp inside]
      unfold argumentRetyped
      split <;> simp
    · split at inside
      · contradiction
      · rw [List.mem_singleton.mp inside]
        simp [defaultChanged]

theorem newArgumentCategory {path : String} {f g : Field} :
    ∀ c ∈ addedArguments path f g, c.category ∈ [.requiredArgAdded, .optionalArgAdded] := by
  intro c inside
  obtain ⟨a, _, rfl⟩ := List.mem_map.mp inside
  unfold argumentAdded
  split <;> simp

theorem argumentsCategory : ∀ c ∈ argumentsChanged options t u,
    c.category ∈ [.argRemoved, .argChangedKind, .argBecameRequired, .argDefaultValueChange] ++
      [.requiredArgAdded, .optionalArgAdded] := by
  intro c inside
  unfold argumentsChanged onShapes at inside
  split at inside
  · obtain ⟨⟨name, f⟩, _, here⟩ := List.mem_flatMap.mp inside
    simp only [fieldArgumentChanges] at here
    split at here
    · contradiction
    · rcases List.mem_append.mp here with passed | added
      · exact List.mem_append_left _ (flatMapCategory (fun _ => argumentCategory) c passed)
      · exact List.mem_append_right _ (newArgumentCategory c added)
  · contradiction

theorem valuesRemovedCategory :
    ∀ c ∈ valuesRemoved options t u, c.category ∈ [.valueRemovedFromEnum] := by
  intro c inside
  obtain ⟨_, _, _, _, rfl⟩ := valueGoneTold inside
  exact List.mem_cons_self

theorem membersCategory :
    ∀ c ∈ membersChanged t u, c.category ∈ [.typeRemovedFromUnion, .typeAddedToUnion] := by
  intro c inside
  cases memberTold inside <;> simp [memberRemoved, memberAdded, changeAt]

theorem valuesAddedCategory : ∀ c ∈ valuesAdded t u, c.category ∈ [.valueAddedToEnum] := by
  intro c inside
  obtain ⟨_, _, _, _, rfl⟩ := valueAddedTold inside
  exact List.mem_cons_self

theorem interfacesCategory : ∀ c ∈ interfacesChanged t u,
    c.category ∈ [.interfaceRemovedFromObject, .interfaceAddedToObject] := by
  intro c inside
  cases interfaceTold inside <;> simp [interfaceRemoved, interfaceAdded, changeAt]

theorem inputFieldCategory {owner : String} {fields : Ordered Argument} {e : String × Argument} :
    ∀ c ∈ inputFieldChange options owner fields e, c.category ∈ [.fieldRemoved, .fieldChangedKind] := by
  intro c inside
  simp only [inputFieldChange] at inside
  split at inside
  · rw [List.mem_singleton.mp inside]
    simp [fieldRemoved]
  · split at inside
    · contradiction
    · rw [List.mem_singleton.mp inside]
      simp [fieldRetyped]

theorem newInputFieldCategory {owner : String} {entries : List (String × Argument)} :
    ∀ c ∈ entries.map (inputFieldAdded owner),
      c.category ∈ [.requiredInputFieldAdded, .optionalInputFieldAdded] := by
  intro c inside
  obtain ⟨e, _, rfl⟩ := List.mem_map.mp inside
  unfold inputFieldAdded
  cases e.2.isRequired <;> simp

theorem inputFieldsCategory : ∀ c ∈ inputFieldsChanged options t u,
    c.category ∈ [.fieldRemoved, .fieldChangedKind] ++
      [.requiredInputFieldAdded, .optionalInputFieldAdded] := by
  intro c inside
  unfold inputFieldsChanged at inside
  split at inside
  · rcases List.mem_append.mp inside with kept | added
    · exact List.mem_append_left _ (flatMapCategory (fun _ => inputFieldCategory) c kept)
    · exact List.mem_append_right _ (newInputFieldCategory c added)
  · contradiction

end Passes

def under (categories : List Category) (changes : List Change) : List Change :=
  changes.filter fun c => categories.contains c.category

section Under
variable {categories others : List Category} {changes more : List Change}

theorem underAppend : under categories (changes ++ more) = under categories changes ++ under categories more :=
  List.filter_append ..

theorem underNone (reported : ∀ c ∈ changes, c.category ∈ others)
    (apart : ∀ k ∈ others, k ∉ categories) : under categories changes = [] :=
  List.filter_eq_nil_iff.mpr fun c inside asked =>
    apart c.category (reported c inside) (List.contains_iff_mem.mp asked)

theorem underAll (reported : ∀ c ∈ changes, c.category ∈ categories) :
    under categories changes = changes :=
  List.filter_eq_self.mpr fun c inside => List.contains_iff_mem.mpr (reported c inside)

theorem underFlatMap {α : Type} {f : α → List Change} {keep : α → Bool} {tell : α → Change}
    (each : ∀ x, under categories (f x) = if keep x then [tell x] else []) (xs : List α) :
    under categories (xs.flatMap f) = (xs.filter keep).map tell := by
  induction xs with
  | nil => rfl
  | cons x rest ih =>
    rw [List.flatMap_cons, underAppend, ih, each, List.filter_cons]
    split <;> rfl

theorem underPairs (pass : TypeDef → TypeDef → List Change) :
    under categories (overPairs old new pass) =
      overPairs old new fun t u => under categories (pass t u) :=
  List.filter_flatMap

theorem underReport (extended : options.extended = true) :
    under categories (pairReport options t u) =
      under categories (kindChanged options t u) ++ under categories (fieldsChanged options t u) ++
        under categories (argumentsChanged options t u) ++
        under categories (valuesRemoved options t u) ++ under categories (membersChanged t u) ++
        under categories (valuesAdded t u) ++ under categories (interfacesChanged t u) ++
        under categories (inputFieldsChanged options t u) := by
  rw [reportByPass, if_pos extended]
  simp only [underAppend, List.append_assoc]

end Under

section Silence
variable {categories : List Category}

@[simp] theorem kindsUnder (apart : ∀ k ∈ [.typeChangedKind], k ∉ categories) :
    under categories (kindChanged options t u) = [] := underNone kindsCategory apart

@[simp] theorem fieldsUnder (apart : ∀ k ∈ [.fieldRemoved, .fieldChangedKind], k ∉ categories) :
    under categories (fieldsChanged options t u) = [] := underNone fieldsCategory apart

@[simp] theorem argumentsUnder (apart : ∀ k ∈ [.argRemoved, .argChangedKind, .argBecameRequired,
      .argDefaultValueChange] ++ [.requiredArgAdded, .optionalArgAdded], k ∉ categories) :
    under categories (argumentsChanged options t u) = [] := underNone argumentsCategory apart

@[simp] theorem valuesRemovedUnder (apart : ∀ k ∈ [.valueRemovedFromEnum], k ∉ categories) :
    under categories (valuesRemoved options t u) = [] := underNone valuesRemovedCategory apart

@[simp] theorem membersUnder (apart : ∀ k ∈ [.typeRemovedFromUnion, .typeAddedToUnion], k ∉ categories) :
    under categories (membersChanged t u) = [] := underNone membersCategory apart

@[simp] theorem valuesAddedUnder (apart : ∀ k ∈ [.valueAddedToEnum], k ∉ categories) :
    under categories (valuesAdded t u) = [] := underNone valuesAddedCategory apart

@[simp] theorem interfacesUnder
    (apart : ∀ k ∈ [.interfaceRemovedFromObject, .interfaceAddedToObject], k ∉ categories) :
    under categories (interfacesChanged t u) = [] := underNone interfacesCategory apart

@[simp] theorem inputFieldsUnder (apart : ∀ k ∈ [.fieldRemoved, .fieldChangedKind] ++
      [.requiredInputFieldAdded, .optionalInputFieldAdded], k ∉ categories) :
    under categories (inputFieldsChanged options t u) = [] := underNone inputFieldsCategory apart

end Silence

theorem changesByPair (old new : Model) (options : Options) : (changes old new options).Perm
    (removedTypes old new options ++ overPairs old new (pairReport options) ++
      directivePass old new options) := by
  have pairs : ((pairPasses options).map onPair).flatMap (overTypes old new) =
      (pairPasses options).flatMap fun pass => (typePairs old new).flatMap fun p => pass p.1 p.2 := by
    simp only [List.flatMap_map, ← pairsByType]
    rfl
  rw [changesByPass, typePasses, List.flatMap_cons, removedByType, pairs]
  exact (List.Perm.append_left _ (flatMapSwap _ _ _)).append_right _

/- Removed types and directives have categories of their own; all other changes are told of pairs. -/
theorem toldUnder {categories : List Category} (types : .typeRemoved ∉ categories)
    (directives : ∀ k ∈ categories, subject k ≠ .directive) :
    (under categories (compare old new options).toList).Perm
      (overPairs old new fun t u => under categories (pairReport options t u)) := by
  have removals : under categories (removedTypes old new options) = [] :=
    underNone removalsCategory (by simpa using types)
  have silent : under categories (directivePass old new options) = [] :=
    List.filter_eq_nil_iff.mpr fun c inside asked =>
      directives c.category (List.contains_iff_mem.mp asked) (directiveSubject inside)
  have split := (toldPerm.trans (changesByPair old new options)).filter
    fun c => categories.contains c.category
  refine split.trans (.of_eq ?_)
  change under categories _ = _
  rw [underAppend, underAppend, removals, silent, underPairs, List.nil_append, List.append_nil]

section Lists

theorem overPairsCategory {pass : TypeDef → TypeDef → List Change} {categories : List Category}
    (reported : ∀ t u, ∀ c ∈ pass t u, c.category ∈ categories) :
    ∀ c ∈ overPairs old new pass, c.category ∈ categories :=
  flatMapCategory fun p : TypeDef × TypeDef => reported p.1 p.2

theorem ofBreaking {categories : List Category} {changes : List Change}
    (reported : ∀ c ∈ changes, c.category ∈ categories)
    (severe : ∀ k ∈ categories, k.isBreaking = true) :
    ChangeSet.mk changes [] = ChangeSet.ofList changes := by
  have breaks : ∀ c ∈ changes, c.isBreaking = true := fun c inside => severe _ (reported c inside)
  have mild : (changes.filter fun c => !c.isBreaking) = [] :=
    List.filter_eq_nil_iff.mpr fun c inside => by simp [breaks c inside]
  rw [ChangeSet.ofList, List.filter_eq_self.mpr breaks, mild]

theorem gatheredIsCompared (old new : Model) (options : Options) :
    gathered old new options = compare old new options := by
  have types : ⟨removedTypes old new options, []⟩ = ChangeSet.ofList (removedTypes old new options) :=
    ofBreaking removalsCategory (by decide)
  have kinds : ⟨changedKinds old new options, []⟩ = ChangeSet.ofList (changedKinds old new options) :=
    ofBreaking (overPairsCategory fun _ _ => kindsCategory) (by decide)
  have fields : ⟨fieldChanges old new options, []⟩ = ChangeSet.ofList (fieldChanges old new options) :=
    ofBreaking (overPairsCategory fun _ _ => fieldsCategory) (by decide)
  have values : ⟨removedValues old new options, []⟩ = ChangeSet.ofList (removedValues old new options) :=
    ofBreaking (overPairsCategory fun _ _ => valuesRemovedCategory) (by decide)
  have start : ∀ found, ChangeSet.empty.append (ChangeSet.ofList found) = ChangeSet.ofList found :=
    fun _ => rfl
  unfold gathered compare changes coreChanges extendedChanges
  rw [types, kinds, fields, values]
  cases options.extended <;>
    simp [start, ← ChangeSet.ofListAppend]

end Lists

end SchemaDrift.Compare
