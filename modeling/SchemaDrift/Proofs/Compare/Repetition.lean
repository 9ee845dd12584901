import Mathlib.Data.List.Nodup
import SchemaDrift.Proofs.Compare.Categories
import SchemaDrift.Proofs.Compare.Headings
import SchemaDrift.Proofs.Compare.Losses
import SchemaDrift.Proofs.Sdl.DocumentModel

/-! No change is told twice. Every report stays below one address, and along what is distinct there it
splits into reports further down; changes of one element differ in their categories. -/
namespace SchemaDrift

def DirectiveDef.DistinctMembers (d : DirectiveDef) : Prop :=
  (d.arguments.map (·.name)).Nodup ∧ d.sites.Nodup

instance : DecidablePred DirectiveDef.DistinctMembers := fun d =>
  inferInstanceAs (Decidable ((d.arguments.map (·.name)).Nodup ∧ d.sites.Nodup))

structure Model.Distinct (m : Model) : Prop where
  types : ∀ t ∈ m.typeList, t.body.DistinctMembers
  directives : ∀ d ∈ m.directiveList, d.DistinctMembers

instance (m : Model) : Decidable m.Distinct :=
  decidable_of_iff ((∀ t ∈ m.typeList, t.body.DistinctMembers) ∧
      ∀ d ∈ m.directiveList, d.DistinctMembers)
    ⟨fun ⟨types, directives⟩ => ⟨types, directives⟩,
      fun distinct => ⟨distinct.types, distinct.directives⟩⟩

theorem TypeDef.shapeDistinct {t : TypeDef} (distinct : t.body.DistinctMembers) {shape : ObjectShape}
    (shaped : t.shape? = some shape) :
    shape.interfaces.Nodup ∧ ∀ e ∈ shape.fields.entries, e.2.DistinctArguments := by
  rcases TypeDef.bodyOfShape shaped with body | body <;>
    simpa only [body, TypeBody.DistinctMembers] using distinct

namespace Compare

/-- The changes have different headings, and all are of elements at or below the address. -/
structure ToldOnce (address : List String) (changes : List Change) : Prop where
  once : (changes.map heading).Nodup
  below : ∀ c ∈ changes, address <+: (heading c).2

theorem categoriesApart {changes more : List Change} {categories others : List Category}
    (first : ∀ c ∈ changes, c.category ∈ categories) (second : ∀ c ∈ more, c.category ∈ others)
    (apart : ∀ k ∈ categories, k ∉ others) :
    ∀ c ∈ changes, ∀ d ∈ more, c.category ≠ d.category :=
  fun c here d there same => apart _ (first c here) (same ▸ second d there)

theorem mapCategory {α : Type} {xs : List α} {tell : α → Change} {k : Category}
    (each : ∀ x, (tell x).category = k) : ∀ c ∈ xs.map tell, c.category ∈ [k] := by
  intro c inside
  obtain ⟨x, _, rfl⟩ := List.mem_map.mp inside
  exact List.mem_singleton.mpr (each x)

theorem categoriesTogether {changes more : List Change} {categories others : List Category}
    (first : ∀ c ∈ changes, c.category ∈ categories) (second : ∀ c ∈ more, c.category ∈ others) :
    ∀ c ∈ changes ++ more, c.category ∈ categories ++ others :=
  fun c inside => (List.mem_append.mp inside).elim (fun here => List.mem_append_left _ (first c here))
    fun there => List.mem_append_right _ (second c there)

namespace ToldOnce
variable {address : List String} {changes more : List Change}

theorem none : ToldOnce address [] := ⟨List.nodup_nil, fun _ inside => absurd inside List.not_mem_nil⟩

theorem single {c : Change} (told : heading c = (c.category, address)) : ToldOnce address [c] := by
  refine ⟨List.nodup_singleton _, fun d inside => ?_⟩
  have here : (heading d).2 = address := by rw [List.mem_singleton.mp inside, told]
  exact here ▸ List.prefix_rfl

theorem above {rest : List String} (told : ToldOnce (address ++ rest) changes) :
    ToldOnce address changes :=
  ⟨told.once, fun c inside => (List.prefix_append address rest).trans (told.below c inside)⟩

theorem ofPerm (told : ToldOnce address changes) (moved : more.Perm changes) : ToldOnce address more :=
  ⟨(moved.map heading).nodup_iff.mpr told.once,
    fun c inside => told.below c (moved.mem_iff.mp inside)⟩

theorem append (left : ToldOnce address changes) (right : ToldOnce address more)
    (apart : ∀ c ∈ changes, ∀ d ∈ more, c.category ≠ d.category) :
    ToldOnce address (changes ++ more) := by
  refine ⟨?_, fun c inside => (List.mem_append.mp inside).elim (left.below c) (right.below c)⟩
  rw [List.map_append, List.nodup_append]
  refine ⟨left.once, right.once, fun a here b there same => ?_⟩
  obtain ⟨c, told, rfl⟩ := List.mem_map.mp here
  obtain ⟨d, also, rfl⟩ := List.mem_map.mp there
  exact apart c told d also (congrArg Prod.fst same)

theorem whenAsked {asked : Bool} (told : ToldOnce address changes) :
    ToldOnce address (if asked then changes else []) := by
  cases asked
  · exact none
  · exact told

theorem appendAsked {asked : Bool} (left : ToldOnce address changes) (right : ToldOnce address more)
    (apart : ∀ c ∈ changes, ∀ d ∈ more, c.category ≠ d.category) :
    ToldOnce address (changes ++ if asked then more else []) := by
  cases asked
  · simpa using left
  · exact left.append right apart

theorem flatMap {α : Type} {xs : List α} {k : α → String} {report : α → List Change}
    (distinct : (xs.map k).Nodup) (each : ∀ x ∈ xs, ToldOnce (address ++ [k x]) (report x)) :
    ToldOnce address (xs.flatMap report) := by
  refine ⟨?_, fun c inside => ?_⟩
  · rw [List.map_flatMap, List.nodup_flatMap]
    refine ⟨fun x member => (each x member).once, ?_⟩
    refine (List.pairwise_map.mp distinct).imp_of_mem fun {x y} here there different => ?_
    intro told left right
    obtain ⟨c, inside, rfl⟩ := List.mem_map.mp left
    obtain ⟨d, within, same⟩ := List.mem_map.mp right
    obtain ⟨rest, first⟩ := (each x here).below c inside
    obtain ⟨tail, second⟩ := (each y there).below d within
    -- Both addresses lead to the one element, and are of one length.
    rw [same, ← first] at second
    simp only [List.append_assoc, List.append_cancel_left_eq, List.singleton_append] at second
    exact different (List.cons.inj second).1.symm
  · obtain ⟨x, member, told⟩ := List.mem_flatMap.mp inside
    exact (each x member).above.below c told

theorem filtered {α : Type} {xs : List α} {k : α → String} {keep : α → Bool} {tell : α → Change}
    (distinct : (xs.map k).Nodup)
    (each : ∀ x ∈ xs, heading (tell x) = ((tell x).category, address ++ [k x])) :
    ToldOnce address ((xs.filter keep).map tell) := by
  rw [List.map_eq_flatMap]
  exact flatMap ((List.filter_sublist.map k).nodup distinct)
    fun x member => single (each x (List.mem_of_mem_filter member))

theorem exchanged {names others : List String} {lost gained : String → Change} {k l : Category}
    (lose : ∀ n, (lost n).category = k) (gain : ∀ n, (gained n).category = l) (apart : k ≠ l)
    (distinct : names.Nodup) (distinctNew : others.Nodup)
    (left : ∀ n ∈ names, heading (lost n) = ((lost n).category, address ++ [n]))
    (right : ∀ n ∈ others, heading (gained n) = ((gained n).category, address ++ [n])) :
    ToldOnce address
      ((missingFrom names others).map lost ++ (missingFrom others names).map gained) := by
  refine .append (.filtered (k := id) ?_ left) (.filtered (k := id) ?_ right)
    (categoriesApart (mapCategory lose) (mapCategory gain) (by simpa using apart))
  · simpa using distinct
  · simpa using distinctNew

end ToldOnce

section Pairs
variable {options : Options} {t u : TypeDef}

theorem kindsOnce (before : t.Named) : ToldOnce [t.name] (kindChanged options t u) := by
  unfold kindChanged
  split
  · exact .single (kindChangeHeading (TypeDef.selfNamed before))
  · exact .none

theorem argumentOnce {owner field : String} (left : IsName owner) (right : IsName field) {a : Argument}
    (named : IsName a.name) (g : Field) : ToldOnce [owner, field, a.name]
      (argumentChange options (qualified owner field) field g a) := by
  have told : ∀ (c : Change) (rest : String), wording c.category = .pathName →
      c.message = argumentText (qualified owner field) a.name ++ rest →
      ToldOnce [owner, field, a.name] [c] := fun c rest worded text =>
    .single (argumentHeading left right worded rest text named)
  unfold argumentChange
  split
  · exact told _ _ rfl rfl
  · rename_i kept _
    split
    · refine told _ (" changed type from " ++ inTicks a.type.text ++ " to " ++
        inTicks kept.type.text) ?_ (by simp only [argumentRetyped, String.append_assoc])
      unfold argumentRetyped
      split <;> rfl
    · split
      · exact .none
      · exact told _ _ rfl rfl

section Shapes
variable {old new : ObjectShape} (shapes : shapes? t u = some (old, new))
include shapes

theorem fieldsOnce (before : t.Named) : ToldOnce [t.name] (fieldsChanged options t u) := by
  have owner := TypeDef.selfNamed before
  have shape := TypeDef.shapeNamed before (shapesOfPair shapes).1
  rw [fieldsOfShapes shapes]
  refine .flatMap old.fields.distinct fun e member => ?_
  have key := entryNamed shape member e.1 List.mem_cons_self
  simp only [fieldChange]
  split
  · exact .single (fieldRemovedHeading owner key _ _)
  · split
    · exact .none
    · exact .single (fieldRetypedHeading owner key _ _ _ _)

theorem argumentsOnce (before : t.Named) (after : u.Named) (distinct : t.body.DistinctMembers)
    (distinctNew : u.body.DistinctMembers) : ToldOnce [t.name] (argumentsChanged options t u) := by
  obtain ⟨shaped, newShaped⟩ := shapesOfPair shapes
  have owner := TypeDef.selfNamed before
  have shape := TypeDef.shapeNamed before shaped
  have newShape := TypeDef.shapeNamed after newShaped
  rw [argumentsOfShapes shapes]
  refine .flatMap old.fields.distinct fun e member => ?_
  have key := entryNamed shape member e.1 List.mem_cons_self
  simp only [fieldArgumentChanges]
  split
  · exact .none
  · rename_i g found
    have there := Ordered.getIffMem.mp found
    have passed := (TypeDef.shapeDistinct distinct shaped).2 e member
    have accepted := (TypeDef.shapeDistinct distinctNew newShaped).2 _ there
    refine .append (.flatMap passed fun a declared => ?_) (.filtered accepted fun b declared => ?_)
      (categoriesApart (flatMapCategory fun _ => argumentCategory) newArgumentCategory (by decide))
    · exact argumentOnce owner key (argumentNamed shape member declared) g
    · exact argumentAddedHeading owner key (argumentNamed newShape there declared)

theorem interfacesOnce (name : u.name = t.name) (before : t.Named) (after : u.Named)
    (distinct : t.body.DistinctMembers) (distinctNew : u.body.DistinctMembers) :
    ToldOnce [t.name] (interfacesChanged t u) := by
  obtain ⟨shaped, newShaped⟩ := shapesOfPair shapes
  have shape := TypeDef.shapeNamed before shaped
  have newShape := TypeDef.shapeNamed after newShaped
  simp only [interfacesChanged, onShapes, shapes]
  refine .exchanged (k := .interfaceRemovedFromObject) (l := .interfaceAddedToObject) (fun _ => rfl)
    (fun _ => rfl) (by decide) (TypeDef.shapeDistinct distinct shaped).1
    (TypeDef.shapeDistinct distinctNew newShaped).1 (fun i member => ?_) fun i member => ?_
  · exact interfaceRemovedHeading (TypeDef.selfNamed before) (interfaceNamed shape member)
  · rw [← name]
    exact interfaceAddedHeading (TypeDef.selfNamed after) (interfaceNamed newShape member)

end Shapes

section Bodies
variable (name : u.name = t.name) (before : t.Named) (after : u.Named)
include name before after

theorem membersOnce (distinct : t.body.DistinctMembers) (distinctNew : u.body.DistinctMembers) :
    ToldOnce [t.name] (membersChanged t u) := by
  unfold membersChanged
  split
  · rename_i old new body newBody
    rw [body] at distinct
    rw [newBody] at distinctNew
    refine .exchanged (k := .typeRemovedFromUnion) (l := .typeAddedToUnion) (fun _ => rfl)
      (fun _ => rfl) (by decide) distinct distinctNew (fun m member => ?_) fun m member => ?_
    · exact memberRemovedHeading (TypeDef.selfNamed before) (TypeDef.bodyNamed before body m member)
    · rw [← name]
      exact memberAddedHeading (TypeDef.selfNamed after) (TypeDef.bodyNamed after newBody m member)
  · exact .none

theorem inputFieldsOnce : ToldOnce [t.name] (inputFieldsChanged options t u) := by
  unfold inputFieldsChanged
  split
  · rename_i old new body newBody
    have owner := TypeDef.selfNamed before
    refine .append (.flatMap old.distinct fun e member => ?_)
      (.filtered new.distinct fun e member => ?_)
      (categoriesApart (flatMapCategory fun _ => inputFieldCategory) newInputFieldCategory (by decide))
    · have key := TypeDef.inputFieldNamed before body member
      simp only [inputFieldChange]
      split
      · exact .single (fieldRemovedHeading owner key _ _)
      · split
        · exact .none
        · exact .single (fieldRetypedHeading owner key _ _ _ _)
    · rw [name]
      exact inputAddedHeading owner (TypeDef.inputFieldNamed after newBody member)
  · exact .none

end Bodies

section Values

theorem valuesRemovedOnce (before : t.Named) (distinct : t.body.DistinctMembers) :
    ToldOnce [t.name] (valuesRemoved options t u) := by
  unfold valuesRemoved onEnums
  split
  · rename_i body _
    rw [body] at distinct
    exact .filtered distinct fun v member =>
      valueRemovedHeading (TypeDef.selfNamed before) (TypeDef.valueNamed before body member)
  · exact .none

theorem valuesAddedOnce (name : u.name = t.name) (after : u.Named)
    (distinct : u.body.DistinctMembers) : ToldOnce [t.name] (valuesAdded t u) := by
  unfold valuesAdded onEnums
  split
  · rename_i newBody
    rw [newBody] at distinct
    rw [← name]
    exact .filtered distinct fun v member =>
      valueAddedHeading (TypeDef.selfNamed after) (TypeDef.valueNamed after newBody member)
  · exact .none

end Values

theorem pairOnce (name : u.name = t.name) (before : t.Named) (after : u.Named)
    (distinct : t.body.DistinctMembers) (distinctNew : u.body.DistinctMembers) :
    ToldOnce [t.name] (pairReport options t u) := by
  have ofShapes : ∀ {old new : ObjectShape}, shapes? t u = some (old, new) →
      ToldOnce [t.name] (pairReport options t u) := by
    intro old new shapes
    rw [reportOfShapes shapes]
    have members : ToldOnce [t.name] (fieldsChanged options t u ++ argumentsChanged options t u) :=
      .append (fieldsOnce shapes before) (argumentsOnce shapes before after distinct distinctNew)
        (categoriesApart fieldsCategory argumentsCategory (by decide))
    exact members.appendAsked (interfacesOnce shapes name before after distinct distinctNew)
      (categoriesApart (categoriesTogether fieldsCategory argumentsCategory) interfacesCategory
        (by decide))
  -- Fields of objects and of input objects share categories, but a pair has only the one or the other.
  by_cases same : u.kind = t.kind
  case neg =>
    rw [reportOfKinds (.inr (Ne.symm same))]
    exact kindsOnce before
  case pos =>
    have alike := TypeBody.alikeOfKind same
    generalize old : t.body = b at alike
    generalize new : u.body = c at alike
    cases alike with
    | scalar =>
      rw [reportOfKinds (.inl old)]
      exact kindsOnce before
    | object left right =>
      have shapes : shapes? t u = some (left, right) := by simp only [shapes?, old, new]
      exact ofShapes shapes
    | interface left right =>
      have shapes : shapes? t u = some (left, right) := by simp only [shapes?, old, new]
      exact ofShapes shapes
    | union =>
      rw [reportOfUnion old new]
      exact .whenAsked (membersOnce name before after distinct distinctNew)
    | enum =>
      rw [reportOfEnum old new]
      exact (valuesRemovedOnce before distinct).appendAsked (valuesAddedOnce name after distinctNew)
        (categoriesApart valuesRemovedCategory valuesAddedCategory (by decide))
    | inputObject =>
      rw [reportOfInput old new]
      exact .whenAsked (inputFieldsOnce name before after)

theorem typeOnce (before : t.Named) (distinct : t.body.DistinctMembers) {counterpart : Option TypeDef}
    (after : ∀ u ∈ counterpart, u.name = t.name ∧ u.Named ∧ u.body.DistinctMembers) :
    ToldOnce [t.name] (typeReport options t counterpart) := by
  cases counterpart with
  | none =>
    rw [typeReportOfNone]
    split
    · exact .none
    · exact .single (typeRemovedHeading (TypeDef.selfNamed before))
  | some u =>
    obtain ⟨name, named, distinctNew⟩ := after u rfl
    rw [typeReportOfPair]
    exact pairOnce name before named distinct distinctNew

end Pairs

section Directives
variable {options : Options} {d : DirectiveDef}

theorem directivePairOnce {e : DirectiveDef} (before : d.Named) (after : e.Named)
    (distinct : d.DistinctMembers) (distinctNew : e.DistinctMembers) :
    ToldOnce ["@" ++ d.name] (directivePairChanges options ("@" ++ d.name) d e) := by
  have resource := directiveTickless (DirectiveDef.selfNamed before)
  unfold directivePairChanges
  rw [List.append_assoc]
  refine .append (.filtered distinct.1 fun a declared => ?_)
    (.append (.filtered distinctNew.1 fun b declared => ?_)
      (.filtered (k := id) (by simpa using distinct.2) fun s listed => ?_)
      (categoriesApart (mapCategory (k := .requiredDirectiveArgAdded) fun _ => rfl)
        (mapCategory (k := .directiveLocationRemoved) fun _ => rfl) (by decide)))
    (categoriesApart (mapCategory (k := .directiveArgRemoved) fun _ => rfl)
      (categoriesTogether (mapCategory (k := .requiredDirectiveArgAdded) fun _ => rfl)
        (mapCategory (k := .directiveLocationRemoved) fun _ => rfl)) (by decide))
  · exact directiveArgumentRemovedHeading resource (DirectiveDef.argumentNamed before declared)
  · exact directiveArgumentAddedHeading resource (DirectiveDef.argumentNamed after declared)
  · exact siteRemovedHeading resource (DirectiveDef.siteNamed before listed)

end Directives

section Models
variable {old new : Model} {options : Options}

theorem directiveOnce (after : ∀ e ∈ new.directiveList, e.Named ∧ e.DistinctMembers) {d : DirectiveDef}
    (before : d.Named) (distinct : d.DistinctMembers) :
    ToldOnce ["@" ++ d.name] (directiveChange options new d) := by
  unfold directiveChange
  split
  · exact .none
  · dsimp only
    split
    · exact .single (directiveRemovedHeading (directiveTickless (DirectiveDef.selfNamed before)))
    · rename_i e found
      obtain ⟨named, distinctNew⟩ := after e (Model.directiveMem found)
      exact directivePairOnce before named distinct distinctNew

theorem typesOnce (before : old.Keyed) (after : new.Keyed) (names : old.Named)
    (newNames : new.Named) (distinct : old.Distinct) (distinctNew : new.Distinct) :
    ToldOnce [] (old.types.entries.flatMap fun e => typeReport options e.2 (new.type? e.1)) := by
  refine .flatMap old.types.distinct fun e entry => ?_
  have key : e.1 = e.2.name := before.types e entry
  have member : e.2 ∈ old.typeList := Model.memTypeList.mpr ⟨e.1, entry⟩
  rw [key]
  refine typeOnce (Model.membersNamed names member) (distinct.types _ member) fun u found => ?_
  have there := Model.typeMem found
  exact ⟨Model.typeName after found, Model.membersNamed newNames there, distinctNew.types u there⟩

theorem directivesOnce (before : old.Keyed) (names : old.Named) (newNames : new.Named)
    (distinct : old.Distinct) (distinctNew : new.Distinct) :
    ToldOnce [] (directivePass old new options) := by
  have resources : (old.directives.entries.map fun e => "@" ++ e.1).Nodup := by
    refine List.pairwise_map.mpr ((List.pairwise_map.mp old.directives.distinct).imp ?_)
    exact fun different same => different ((String.append_right_inj _).mp same)
  unfold directivePass directiveChanges Model.directiveList Ordered.values
  rw [List.flatMap_map]
  refine .whenAsked (.flatMap resources fun e entry => ?_)
  have key : e.1 = e.2.name := before.directives e entry
  have member : e.2 ∈ old.directiveList := Model.memDirectiveList.mpr ⟨e.1, entry⟩
  rw [key]
  refine directiveOnce (fun d there => ?_) (Model.directiveNamed names member)
    (distinct.directives _ member)
  exact ⟨Model.directiveNamed newNames there, distinctNew.directives d there⟩

theorem comparisonOnce (before : old.Keyed) (after : new.Keyed) (names : old.Named)
    (newNames : new.Named) (distinct : old.Distinct) (distinctNew : new.Distinct) :
    ToldOnce [] (compare old new options).toList := by
  refine .ofPerm (.append (typesOnce before after names newNames distinct distinctNew)
    (directivesOnce before names newNames distinct distinctNew) fun c type d directive same => ?_)
    (toldPerm.trans (changesByType before options new))
  obtain ⟨e, entry, inside⟩ := List.mem_flatMap.mp type
  have about := reportAbout after (before.types e entry) inside
  have subjects : subject c.category = .directive := same ▸ directiveSubject directive
  simp [About, AboutWhole, AboutMember, subjects] at about

end Models

theorem nothingToldTwice {old new : Model} {options : Options} (before : old.Keyed)
    (after : new.Keyed) (names : old.Named) (newNames : new.Named) (distinct : old.Distinct)
    (distinctNew : new.Distinct) : (compare old new options).toList.Pairwise fun c d =>
      c.category ≠ d.category ∨ c.message ≠ d.message := by
  have once : ((compare old new options).toList.map heading).Nodup :=
    (comparisonOnce before after names newNames distinct distinctNew).once
  refine (List.pairwise_map.mp once).imp fun {c d} different => ?_
  by_cases category : c.category = d.category
  · exact .inr fun message => different (headingSame category message)
  · exact .inl category

def textBefore : String :=
  "directive @d(a: Int b: Int) on FIELD type Q \x7b f(a: Int): Q g: Q \x7d input I \x7b g: Int \x7d " ++
    "union U = Q"

def textAfter : String :=
  "directive @d(c: Int!) on QUERY type Q \x7b f(b: Int c: Int): I \x7d input I \x7b f: Int! \x7d " ++
    "union U = I"

theorem nothingToldTwiceOfSharedNames : ∃ old new, Sdl.readSchema textBefore = .ok old ∧
    Sdl.readSchema textAfter = .ok new ∧
    (compare old new ⟨true, "deprecated", "required"⟩).toList.length = 13 ∧
    (compare old new ⟨true, "deprecated", "required"⟩).toList.countP (·.category == .fieldRemoved) = 2 ∧
    (compare old new ⟨true, "deprecated", "required"⟩).toList.Pairwise fun c d =>
      c.category ≠ d.category ∨ c.message ≠ d.message := by
  obtain ⟨old, new, readOld, readNew, passed⟩ := Sdl.modelsRead textBefore textAfter
    (fun (old new : Model) => decide old.Named && decide new.Named && decide old.Distinct &&
      decide new.Distinct &&
      (compare old new ⟨true, "deprecated", "required"⟩).toList.length == 13 &&
      (compare old new ⟨true, "deprecated", "required"⟩).toList.countP
        (·.category == .fieldRemoved) == 2)
    (by decide +kernel)
  simp only [Bool.and_eq_true, decide_eq_true_eq, beq_iff_eq] at passed
  obtain ⟨⟨⟨⟨⟨names, newNames⟩, distinct⟩, distinctNew⟩, told⟩, fields⟩ := passed
  exact ⟨old, new, readOld, readNew, told, fields, nothingToldTwice (Sdl.readKeyed readOld)
    (Sdl.readKeyed readNew) names newNames distinct distinctNew⟩

end Compare
end SchemaDrift
