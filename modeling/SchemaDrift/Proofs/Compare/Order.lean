import SchemaDrift.Proofs.Compare.Passes
import SchemaDrift.Proofs.Schema.Reordered

/-! The order of declarations decides nothing but the order of what is reported. Every pass looks
members up by name or asks whether a name is there; it walks through the old version, and for what
was added through the new one. -/
namespace SchemaDrift

def TypeDef.DistinctArguments (t : TypeDef) : Prop :=
  ∀ shape ∈ t.shape?, ∀ e ∈ shape.fields.entries, e.2.DistinctArguments

namespace Compare

def OrderBlind (pass : TypeDef → TypeDef → List Change) : Prop :=
  ∀ {t t' u u' : TypeDef}, t.Reordered t' → u.Reordered u' → u.DistinctArguments →
    (pass t u).Perm (pass t' u')

theorem toldMoved {α β : Type} {xs ys : List α} (moved : xs.Perm ys) {keep keep' : α → Bool}
    (same : ∀ x, keep' x = keep x) (tell : α → β) :
    ((xs.filter keep).map tell).Perm ((ys.filter keep').map tell) := by
  obtain rfl : keep' = keep := funext same
  exact (moved.filter keep').map tell

section Pairs
variable (options : Options)

theorem kindsBlind : OrderBlind (kindChanged options) := by
  intro t t' u u' left right _
  have kinds := left.kind
  have others := right.kind
  obtain ⟨_⟩ := left
  obtain ⟨_⟩ := right
  simp only [kindChanged, kindChange, kinds, others]
  exact .rfl

section Shapes
variable {before before' after after' : ObjectShape} {fields fields' : Ordered Field}

theorem shapesMoved {t t' u u' : TypeDef} (left : t.Reordered t') (right : u.Reordered u') :
    (shapes? t u = none ∧ shapes? t' u' = none) ∨
      ∃ before before' after after', shapes? t u = some (before, after) ∧
        shapes? t' u' = some (before', after') ∧ before.Reordered before' ∧
        after.Reordered after' := by
  obtain ⟨inside⟩ := left
  obtain ⟨within⟩ := right
  cases t
  cases u
  cases inside <;> cases within <;> first | exact .inl ⟨rfl, rfl⟩ | skip
  all_goals
    rename_i shape _ _ counterpart
    exact .inr ⟨_, _, _, _, rfl, rfl, shape, counterpart⟩

theorem onShapesBlind {each : TypeDef → TypeDef → ObjectShape → ObjectShape → List Change}
    (blind : ∀ t t' u u' before before' after after', t.Reordered t' → u.Reordered u' →
      before.Reordered before' → after.Reordered after' →
      (∀ e ∈ after.fields.entries, e.2.DistinctArguments) →
      (each t u before after).Perm (each t' u' before' after')) : OrderBlind (onShapes each) := by
  intro t t' u u' left right distinct
  unfold onShapes
  rcases shapesMoved left right with ⟨unshaped, unshaped'⟩ |
    ⟨before, before', after, after', shaped, shaped', shape, counterpart⟩
  · rw [unshaped, unshaped']
  · rw [shaped, shaped']
    exact blind _ _ _ _ _ _ _ _ left right shape counterpart (distinct after (shapesOfPair shaped).2)

theorem fieldChangeMoved (shuffled : fields.Shuffled Field.Reordered fields') {owner : String}
    {e e' : String × Field} (key : e.1 = e'.1) (moved : e.2.Reordered e'.2) :
    fieldChange options owner fields e = fieldChange options owner fields' e' := by
  obtain ⟨name, f⟩ := e
  obtain ⟨name', f'⟩ := e'
  obtain rfl : name = name' := key
  obtain ⟨_⟩ := moved
  simp only [fieldChange]
  rcases Ordered.getShuffled shuffled name with ⟨gone, gone'⟩ | ⟨g, g', found, found', ⟨_⟩⟩
  · rw [gone, gone']
  · rw [found, found']

theorem fieldsBlind : OrderBlind (fieldsChanged options) := by
  refine onShapesBlind ?_
  rintro t _ u _ before _ after _ ⟨_⟩ - ⟨_, fields⟩ ⟨_, others⟩ -
  exact fields.flatMap fun _ _ related =>
    .of_eq (fieldChangeMoved options others related.1 related.2)

theorem argumentChangeMoved {g g' : Field} (distinct : g.DistinctArguments)
    (moved : g.Reordered g') (path name : String) (a : Argument) :
    argumentChange options path name g a = argumentChange options path name g' a := by
  obtain ⟨moved⟩ := moved
  simp only [argumentChange, argumentMoved distinct moved]
  rfl

theorem addedArgumentsMoved {f f' g g' : Field} (left : f.Reordered f') (right : g.Reordered g')
    (path : String) : (addedArguments path f g).Perm (addedArguments path f' g') := by
  obtain ⟨passed⟩ := left
  obtain ⟨accepted⟩ := right
  exact toldMoved accepted (fun a => missingMoved passed a.name) _

theorem fieldArgumentsMoved (shuffled : fields.Shuffled Field.Reordered fields')
    (distinct : ∀ e ∈ fields.entries, e.2.DistinctArguments) {owner : String}
    {e e' : String × Field} (key : e.1 = e'.1) (moved : e.2.Reordered e'.2) :
    (fieldArgumentChanges options owner fields e).Perm
      (fieldArgumentChanges options owner fields' e') := by
  obtain ⟨name, f⟩ := e
  obtain ⟨name', f'⟩ := e'
  obtain rfl : name = name' := key
  simp only [fieldArgumentChanges]
  rcases Ordered.getShuffled shuffled name with ⟨gone, gone'⟩ | ⟨g, g', found, found', kept⟩
  · rw [gone, gone']
  · rw [found, found']
    refine .append ?_ (addedArgumentsMoved moved kept _)
    obtain ⟨passed⟩ := moved
    have same := argumentChangeMoved options (distinct _ (Ordered.getIffMem.mp found)) kept
    exact passed.flatMap fun a _ => .of_eq (same _ _ a)

theorem argumentsBlind : OrderBlind (argumentsChanged options) := by
  refine onShapesBlind ?_
  rintro t _ u _ before _ after _ ⟨_⟩ - ⟨_, fields⟩ ⟨_, others⟩ distinct
  exact fields.flatMap fun _ _ related =>
    fieldArgumentsMoved options others distinct related.1 related.2

theorem missingFromMoved {names names' others others' : List String} (moved : names.Perm names')
    (counterpart : others.Perm others') (tell : String → Change) :
    ((missingFrom names others).map tell).Perm ((missingFrom names' others').map tell) :=
  toldMoved moved (fun n => by rw [counterpart.contains_eq]) tell

theorem interfacesBlind : OrderBlind interfacesChanged := by
  refine onShapesBlind ?_
  rintro t _ u _ before _ after _ ⟨_⟩ ⟨_⟩ ⟨old, _⟩ ⟨new, _⟩ -
  exact (missingFromMoved old new _).append (missingFromMoved new old _)

end Shapes

theorem onEnumsBlind {each : TypeDef → TypeDef → List EnumValue → List EnumValue → List Change}
    (blind : ∀ t t' u u' before before' after after', t.Reordered t' → u.Reordered u' →
      before.Perm before' → after.Perm after' →
      (each t u before after).Perm (each t' u' before' after')) : OrderBlind (onEnums each) := by
  rintro t _ u _ ⟨inside⟩ ⟨within⟩ -
  cases t
  cases u
  cases inside <;> cases within <;> first | exact .rfl | skip
  rename_i moved _ _ counterpart
  exact blind _ _ _ _ _ _ _ _ ⟨.enum moved⟩ ⟨.enum counterpart⟩ moved counterpart

theorem valuesRemovedBlind : OrderBlind (valuesRemoved options) := by
  refine onEnumsBlind ?_
  rintro t _ u _ before _ after _ ⟨_⟩ ⟨_⟩ moved counterpart
  exact toldMoved moved (fun v => by rw [counterpart.any_eq]) _

theorem valuesAddedBlind : OrderBlind valuesAdded := by
  refine onEnumsBlind ?_
  rintro t _ u _ before before' after _ - ⟨_⟩ moved counterpart
  refine toldMoved counterpart (fun v => ?_) _
  rw [Bool.eq_iff_iff, Option.isNone_iff_eq_none, Option.isNone_iff_eq_none]
  simp only [enumValueNamed?, List.find?_eq_none, moved.mem_iff]

theorem membersBlind : OrderBlind membersChanged := by
  rintro t _ u _ ⟨inside⟩ ⟨within⟩ -
  cases t
  cases u
  cases inside <;> cases within <;> first | exact .rfl | skip
  rename_i moved _ _ counterpart
  exact (missingFromMoved moved counterpart _).append (missingFromMoved counterpart moved _)

theorem inputFieldChangeMoved {fields fields' : Ordered Argument}
    (moved : fields.entries.Perm fields'.entries) (owner : String) (e : String × Argument) :
    inputFieldChange options owner fields e = inputFieldChange options owner fields' e := by
  simp only [inputFieldChange, Ordered.getOfPerm moved]

theorem inputFieldsBlind : OrderBlind (inputFieldsChanged options) := by
  rintro t _ u _ ⟨inside⟩ ⟨within⟩ -
  cases t
  cases u
  cases inside <;> cases within <;> first | exact .rfl | skip
  rename_i moved _ _ counterpart
  refine .append (moved.flatMap fun e _ => .of_eq (inputFieldChangeMoved options counterpart _ e)) ?_
  refine toldMoved counterpart (fun e => ?_) _
  rw [Ordered.contains, Ordered.contains, Ordered.getOfPerm moved]

theorem pairsBlind {pass : TypeDef → TypeDef → List Change} (listed : pass ∈ pairPasses options) :
    OrderBlind pass := by
  rcases pairPassCases listed with (rfl | rfl | rfl | rfl) | rfl | rfl | rfl | rfl
  · exact kindsBlind options
  · exact fieldsBlind options
  · exact argumentsBlind options
  · exact valuesRemovedBlind options
  · exact membersBlind
  · exact valuesAddedBlind
  · exact interfacesBlind
  · exact inputFieldsBlind options

theorem directivePairMoved {d d' e e' : DirectiveDef} (left : d.Reordered d')
    (right : e.Reordered e') (resource : String) :
    (directivePairChanges options resource d e).Perm (directivePairChanges options resource d' e') := by
  obtain ⟨passed, used⟩ := left
  obtain ⟨accepted, sites⟩ := right
  refine .append (.append ?_ ?_) ?_
  · exact toldMoved passed (fun a => missingMoved accepted a.name) _
  · exact toldMoved accepted (fun a => by rw [missingMoved passed]) _
  · exact toldMoved used (fun s => by rw [sites.contains_eq]) _

end Pairs

section Models
variable {options : Options} {old old' new new' : Model}

theorem typePassMoved (distinct : new.EveryField Field.DistinctArguments)
    (shuffled : new.types.Shuffled TypeDef.Reordered new'.types) {pass : TypePass}
    (listed : pass ∈ typePasses options) {t t' : TypeDef} (moved : t.Reordered t') :
    (pass t (new.type? t.name)).Perm (pass t' (new'.type? t'.name)) := by
  rw [moved.name]
  rcases List.mem_cons.mp listed with rfl | pair
  · obtain ⟨_⟩ := moved
    rcases Ordered.getShuffled shuffled t.name with ⟨gone, gone'⟩ | ⟨u, u', found, found', _⟩
    · rw [Model.type?, Model.type?, gone, gone']
      exact .rfl
    · rw [Model.type?, Model.type?, found, found']
      exact .rfl
  · obtain ⟨pass, inside, rfl⟩ := List.mem_map.mp pair
    rcases Ordered.getShuffled shuffled t.name with ⟨gone, gone'⟩ | ⟨u, u', found, found', kept⟩
    · rw [Model.type?, Model.type?, gone, gone']
      exact .rfl
    · rw [Model.type?, Model.type?, found, found']
      exact pairsBlind options inside moved kept (distinct u (Model.typeMem found))

theorem overTypesMoved (distinct : new.EveryField Field.DistinctArguments)
    (before : old.types.Shuffled TypeDef.Reordered old'.types)
    (after : new.types.Shuffled TypeDef.Reordered new'.types) {pass : TypePass}
    (listed : pass ∈ typePasses options) :
    (overTypes old new pass).Perm (overTypes old' new' pass) := by
  simp only [overTypes, Model.typeList, Ordered.values, List.flatMap_map]
  exact before.flatMap fun _ _ related => typePassMoved distinct after listed related.2

theorem directiveChangeMoved (after : new.directives.Shuffled DirectiveDef.Reordered new'.directives)
    {d d' : DirectiveDef} (moved : d.Reordered d') :
    (directiveChange options new d).Perm (directiveChange options new' d') := by
  simp only [directiveChange, moved.name]
  cases isBuiltInDirective d.name with
  | true => exact .rfl
  | false =>
    rcases Ordered.getShuffled after d.name with ⟨gone, gone'⟩ | ⟨e, e', found, found', kept⟩
    · rw [Model.directive?, Model.directive?, gone, gone']
    · rw [Model.directive?, Model.directive?, found, found']
      exact directivePairMoved options moved kept _

theorem directivePassMoved
    (before : old.directives.Shuffled DirectiveDef.Reordered old'.directives)
    (after : new.directives.Shuffled DirectiveDef.Reordered new'.directives) :
    (directivePass old new options).Perm (directivePass old' new' options) := by
  unfold directivePass
  split
  · simp only [directiveChanges, Model.directiveList, Ordered.values, List.flatMap_map]
    exact before.flatMap fun _ _ related => directiveChangeMoved after related.2
  · exact .rfl

theorem changesMoved (distinct : new.EveryField Field.DistinctArguments)
    (before : old.Reordered old') (after : new.Reordered new') :
    (changes old new options).Perm (changes old' new' options) := by
  obtain ⟨types, directives⟩ := before
  obtain ⟨newTypes, newDirectives⟩ := after
  rw [changesByPass, changesByPass]
  refine .append ?_ (directivePassMoved directives newDirectives)
  exact List.Perm.flatMap_left _ fun pass listed => overTypesMoved distinct types newTypes listed

theorem changesOfTypesMoved (types : new.types.entries.Perm new'.types.entries)
    (directives : new.directives = new'.directives) :
    changes old new options = changes old new' options := by
  have passes : overTypes old new = overTypes old new' := by
    funext pass
    simp only [overTypes, Model.type?, Ordered.getOfPerm types]
  have directivePasses : directivePass old new options = directivePass old new' options := by
    unfold directivePass directiveChanges
    have each : directiveChange options new = directiveChange options new' := by
      funext d
      simp only [directiveChange, Model.directive?, directives]
    rw [each]
  rw [changesByPass, changesByPass, passes, directivePasses]

end Models

section Sample

def sampleArgument (name : String) (column : UInt64) : Argument :=
  ⟨name, .nonNull (.named "Int"), none, some ⟨1, column⟩, []⟩

def sampleField (name : String) (arguments : List Argument) : Field :=
  ⟨name, .named "Q", arguments, some ⟨1, 1⟩, []⟩

def sampleObject (fields : Ordered Field) : TypeDef := ⟨"Q", none, [], .object ⟨[], fields⟩⟩

def sampleEnum (values : List String) : TypeDef :=
  ⟨"E", none, [], .enum (values.map fun name => ⟨name, none, []⟩)⟩

def orderedOld : Model :=
  ⟨⟨[("Q", sampleObject ⟨[("f", sampleField "f" [sampleArgument "a" 3, sampleArgument "b" 9]),
      ("g", sampleField "g" [])], by decide⟩), ("E", sampleEnum ["A", "B", "C"])], by decide⟩,
    .empty, .unset⟩

def shuffledOld : Model :=
  ⟨⟨[("E", sampleEnum ["B", "A", "C"]), ("Q", sampleObject ⟨[("g", sampleField "g" []),
      ("f", sampleField "f" [sampleArgument "b" 9, sampleArgument "a" 3])], by decide⟩)], by decide⟩,
    .empty, .unset⟩

def orderedNew : Model :=
  ⟨⟨[("Q", sampleObject ⟨[("f", sampleField "f" [sampleArgument "c" 3, sampleArgument "d" 9])],
      by decide⟩), ("E", sampleEnum ["C"])], by decide⟩, .empty, .unset⟩

def shuffledNew : Model :=
  ⟨⟨[("E", sampleEnum ["C"]), ("Q", sampleObject ⟨[("f", sampleField "f" [sampleArgument "d" 9,
      sampleArgument "c" 3])], by decide⟩)], by decide⟩, .empty, .unset⟩

theorem oldShuffled : orderedOld.Reordered shuffledOld := by
  refine .mk ⟨_, .swap _ _ _, .cons ⟨rfl, .mk (.enum (.swap _ _ _))⟩ (.cons ⟨rfl, ?_⟩ .nil)⟩
    ⟨[], .nil, .nil⟩
  refine .mk (.object (.mk .nil ⟨_, .swap _ _ _, ?_⟩))
  exact .cons ⟨rfl, .mk .nil⟩ (.cons ⟨rfl, .mk (.swap _ _ _)⟩ .nil)

theorem newShuffled : orderedNew.Reordered shuffledNew := by
  refine .mk ⟨_, .swap _ _ _, .cons ⟨rfl, .mk (.enum (.refl _))⟩ (.cons ⟨rfl, ?_⟩ .nil)⟩
    ⟨[], .nil, .nil⟩
  exact .mk (.object (.mk .nil ⟨_, .refl _, .cons ⟨rfl, .mk (.swap _ _ _)⟩ .nil⟩))

def turnedNew : Model :=
  { orderedNew with types := ⟨orderedNew.types.entries.reverse, by decide⟩ }

end Sample

theorem orderUndecisive {options : Options} {old old' new new' : Model}
    (distinct : new.EveryField Field.DistinctArguments)
    (before : old.Reordered old') (after : new.Reordered new') :
    (compare old new options).breaking.Perm (compare old' new' options).breaking ∧
      (compare old new options).dangerous.Perm (compare old' new' options).dangerous ∧
      ∀ shuffled : Model, new.types.entries.Perm shuffled.types.entries →
        new.directives = shuffled.directives →
        compare old new options = compare old shuffled options := by
  have moved : (changes old new options).Perm (changes old' new' options) :=
    changesMoved distinct before after
  refine ⟨moved.filter _, moved.filter _, fun shuffled types directives => ?_⟩
  exact congrArg ChangeSet.ofList (changesOfTypesMoved types directives)

theorem orderUndecisiveOfMembers :
    (compare orderedOld orderedNew .standard).breaking.map (·.resource) =
      ["Q.g", "f.a", "f.b", "Q.f", "Q.f", "E.A", "E.B"] ∧
    (compare shuffledOld shuffledNew .standard).breaking.map (·.resource) =
      ["Q.g", "f.b", "f.a", "Q.f", "Q.f", "E.B", "E.A"] ∧
    (compare orderedOld orderedNew .standard).breaking.Perm
      (compare shuffledOld shuffledNew .standard).breaking ∧
    (compare orderedOld orderedNew .standard).dangerous.Perm
      (compare shuffledOld shuffledNew .standard).dangerous ∧
    compare orderedOld orderedNew .standard = compare orderedOld turnedNew .standard := by
  obtain ⟨breaking, dangerous, types⟩ := @orderUndecisive .standard orderedOld shuffledOld orderedNew
    shuffledNew (by decide) oldShuffled newShuffled
  refine ⟨by decide +kernel, by decide +kernel, breaking, dangerous, types turnedNew ?_ rfl⟩
  exact (List.reverse_perm _).symm

end Compare
end SchemaDrift
