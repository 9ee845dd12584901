import SchemaDrift.Proofs.Compare.Passes
import SchemaDrift.Proofs.Interleaved
import SchemaDrift.Proofs.Schema.Model

/-! Models in parts that have no names in common. Every pass looks a declaration up by its name, and
finds it in its own part, so the comparison of the whole merges the comparisons of the parts. A type
alone is such a part: what is told of it depends on no other type. -/
namespace SchemaDrift

namespace Model

structure Joins (left right m : Model) : Prop where
  types : Interleaved left.types.entries right.types.entries m.types.entries
  directives : Interleaved left.directives.entries right.directives.entries m.directives.entries

structure Apart (m other : Model) : Prop where
  types : ∀ t ∈ m.typeList, t.name ∉ other.types.keys
  directives : ∀ d ∈ m.directiveList, d.name ∉ other.directives.keys

def alone (m : Model) (name : String) : Model :=
  ⟨m.types.filter fun t => t.name == name, .empty, .unset⟩

def without (m : Model) (name : String) : Model :=
  ⟨m.types.filter fun t => !(t.name == name), m.directives, m.roots⟩

theorem joinsAlone (m : Model) (name : String) : (m.alone name).Joins (m.without name) m where
  types := .ofFilter ..
  directives := .rightOnly _

theorem memKept {m : Model} {keep : TypeDef → Bool} {t : TypeDef}
    (member : t ∈ (m.types.filter keep).values) : keep t = true := by
  obtain ⟨e, inside, rfl⟩ := List.mem_map.mp member
  exact (List.mem_filter.mp inside).2

theorem keyKept {m : Model} (keyed : ∀ e ∈ m.types.entries, e.1 = e.2.name) {keep : TypeDef → Bool}
    {key : String} (member : key ∈ (m.types.filter keep).keys) :
    ∃ t : TypeDef, t.name = key ∧ keep t = true := by
  obtain ⟨e, inside, rfl⟩ := List.mem_map.mp member
  obtain ⟨entry, kept⟩ := List.mem_filter.mp inside
  exact ⟨e.2, (keyed e entry).symm, kept⟩

theorem aloneApart {m : Model} (keyed : ∀ e ∈ m.types.entries, e.1 = e.2.name) (other : Model)
    (name : String) : (other.alone name).Apart (m.without name) where
  types t member inside := by
    obtain ⟨u, same, others⟩ := keyKept keyed inside
    have named := memKept member
    rw [same, named] at others
    contradiction
  directives d member := by contradiction

theorem withoutApart {m : Model} (keyed : ∀ e ∈ m.types.entries, e.1 = e.2.name) (other : Model)
    (name : String) : (other.without name).Apart (m.alone name) where
  types t member inside := by
    obtain ⟨u, same, named⟩ := keyKept keyed inside
    have others := memKept member
    rw [← same, named] at others
    contradiction
  directives d _ inside := by contradiction

theorem joinedKeyed {left right m : Model} (joined : left.Joins right m) (first : left.Keyed)
    (second : right.Keyed) : ∀ e ∈ m.types.entries, e.1 = e.2.name :=
  fun e inside => (joined.types.memIff.mp inside).elim (first.types e) (second.types e)

end Model

namespace Compare

structure Distributes (left right whole : ChangeSet) : Prop where
  breaking : Interleaved left.breaking right.breaking whole.breaking
  dangerous : Interleaved left.dangerous right.dangerous whole.dangerous

section Parts
variable {old₁ new₁ old₂ new₂ old new : Model} {options : Options}

theorem passDistributes (before : old₁.Joins old₂ old) (after : new₁.Joins new₂ new)
    (forth : old₁.Apart new₂) (back : old₂.Apart new₁) (pass : TypePass) :
    Interleaved (overTypes old₁ new₁ pass) (overTypes old₂ new₂ pass) (overTypes old new pass) := by
  have types : Interleaved old₁.typeList old₂.typeList old.typeList := before.types.map _
  refine types.flatMap (fun t member => ?_) fun t member => ?_
  · rw [Model.type?, Ordered.getLeft after.types (forth.types t member)]
    rfl
  · rw [Model.type?, Ordered.getRight after.types (back.types t member)]
    rfl

theorem directivesDistribute (before : old₁.Joins old₂ old) (after : new₁.Joins new₂ new)
    (forth : old₁.Apart new₂) (back : old₂.Apart new₁) :
    Interleaved (directivePass old₁ new₁ options) (directivePass old₂ new₂ options)
      (directivePass old new options) := by
  unfold directivePass
  split
  · have directives : Interleaved old₁.directiveList old₂.directiveList old.directiveList :=
      before.directives.map _
    refine directives.flatMap (fun d member => ?_) fun d member => ?_
    · simp only [directiveChange, Model.directive?,
        Ordered.getLeft after.directives (forth.directives d member)]
    · simp only [directiveChange, Model.directive?,
        Ordered.getRight after.directives (back.directives d member)]
  · exact .nil

theorem partsDistribute (before : old₁.Joins old₂ old) (after : new₁.Joins new₂ new)
    (forth : old₁.Apart new₂) (back : old₂.Apart new₁) :
    Distributes (compare old₁ new₁ options) (compare old₂ new₂ options) (compare old new options) := by
  have told : Interleaved (changes old₁ new₁ options) (changes old₂ new₂ options)
      (changes old new options) := by
    simp only [changesByPass]
    exact .append (.concat fun pass _ => passDistributes before after forth back pass)
      (directivesDistribute before after forth back)
  exact ⟨told.filter _, told.filter _⟩

end Parts

section Sample

def enumOf (name : String) (values : List String) : TypeDef :=
  ⟨name, none, [], .enum (values.map fun value => ⟨value, none, []⟩)⟩

def unionOf (name : String) (members : List String) : TypeDef := ⟨name, none, [], .union members⟩

def directiveOf (name : String) (sites : List String) : DirectiveDef := ⟨name, none, [], sites, false⟩

def leftOld : Model :=
  ⟨⟨[("A", enumOf "A" ["X", "Y"]), ("U", unionOf "U" ["A"])], by decide⟩,
    ⟨[("p", directiveOf "p" ["FIELD", "QUERY"])], by decide⟩, .unset⟩

def leftNew : Model :=
  ⟨⟨[("U", unionOf "U" ["A", "B"]), ("A", enumOf "A" ["X"])], by decide⟩,
    ⟨[("p", directiveOf "p" ["FIELD"])], by decide⟩, .unset⟩

def rightOld : Model :=
  ⟨⟨[("B", enumOf "B" ["V", "W"])], by decide⟩, ⟨[("q", directiveOf "q" ["FIELD"])], by decide⟩, .unset⟩

def rightNew : Model := ⟨⟨[("B", enumOf "B" ["W", "Z"])], by decide⟩, .empty, .unset⟩

def wholeOld : Model :=
  ⟨⟨[("A", enumOf "A" ["X", "Y"]), ("B", enumOf "B" ["V", "W"]), ("U", unionOf "U" ["A"])], by decide⟩,
    ⟨[("q", directiveOf "q" ["FIELD"]), ("p", directiveOf "p" ["FIELD", "QUERY"])], by decide⟩, .unset⟩

def wholeNew : Model :=
  ⟨⟨[("B", enumOf "B" ["W", "Z"]), ("U", unionOf "U" ["A", "B"]), ("A", enumOf "A" ["X"])], by decide⟩,
    ⟨[("p", directiveOf "p" ["FIELD"])], by decide⟩, .unset⟩

end Sample

theorem comparisonDistributes {old₁ new₁ old₂ new₂ old new : Model} {options : Options}
    (before : old₁.Joins old₂ old) (after : new₁.Joins new₂ new) (left : new₁.Keyed)
    (right : new₂.Keyed) (forth : old₁.Apart new₂) (back : old₂.Apart new₁) :
    Distributes (compare old₁ new₁ options) (compare old₂ new₂ options) (compare old new options) ∧
      ∀ name, Distributes (compare (old.alone name) (new.alone name) options)
        (compare (old.without name) (new.without name) options) (compare old new options) := by
  refine ⟨partsDistribute before after forth back, fun name => ?_⟩
  have keyed := Model.joinedKeyed after left right
  exact partsDistribute (old.joinsAlone name) (new.joinsAlone name)
    (Model.aloneApart keyed old name) (Model.withoutApart keyed old name)

theorem comparisonDistributesOfTwoParts :
    (compare wholeOld wholeNew ⟨true, "deprecated", "required"⟩).breaking.map (·.resource) =
      ["A.Y", "B.V", "@q", "@p"] ∧
    (compare wholeOld wholeNew ⟨true, "deprecated", "required"⟩).dangerous.map (·.resource) =
      ["U.B", "B.Z"] ∧
    Distributes (compare leftOld leftNew ⟨true, "deprecated", "required"⟩)
      (compare rightOld rightNew ⟨true, "deprecated", "required"⟩)
      (compare wholeOld wholeNew ⟨true, "deprecated", "required"⟩) ∧
    Distributes (compare (wholeOld.alone "B") (wholeNew.alone "B") ⟨true, "deprecated", "required"⟩)
      (compare (wholeOld.without "B") (wholeNew.without "B") ⟨true, "deprecated", "required"⟩)
      (compare wholeOld wholeNew ⟨true, "deprecated", "required"⟩) := by
  obtain ⟨parts, types⟩ := @comparisonDistributes leftOld leftNew rightOld rightNew wholeOld wholeNew
    ⟨true, "deprecated", "required"⟩ ⟨.left (.right (.left .nil)), .right (.left .nil)⟩
    ⟨.right (.left (.left .nil)), .left .nil⟩ (by decide) (by decide) ⟨by decide, by decide⟩
    ⟨by decide, by decide⟩
  exact ⟨by decide +kernel, by decide +kernel, parts, types "B"⟩

end Compare
end SchemaDrift
