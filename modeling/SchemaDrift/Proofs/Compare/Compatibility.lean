import SchemaDrift.Compare.Compatibility

/-! The two compatibility rules against what references mean: a reference stands for a set of
values, and a change is safe exactly where the side that produces values stays inside the side that
receives them. The rules are read in opposite directions, so one inclusion serves both, and each of
them is a partial order, on references with stacked wrappers too. -/
namespace SchemaDrift.Compare

inductive Value where
  | null
  | leaf (type : String)
  | list (items : List Value)

def Belongs : TypeRef → Value → Prop
  | .named name, v => v = .null ∨ v = .leaf name
  | .list item, v => v = .null ∨ ∃ items, v = .list items ∧ ∀ x ∈ items, Belongs item x
  | .nonNull inner, v => v ≠ .null ∧ Belongs inner v

def Included (small large : TypeRef) : Prop := ∀ v, Belongs small v → Belongs large v

theorem nullableOfShape {t : TypeRef} (other : ∀ inner, t = .nonNull inner → False) :
    t.isNonNull = false := by
  cases t with
  | nonNull inner => exact (other inner rfl).elim
  | named name => rfl
  | list item => rfl

theorem nullBelongs {t : TypeRef} (nullable : t.isNonNull = false) : Belongs t .null := by
  cases t with
  | named name => exact .inl rfl
  | list item => exact .inl rfl
  | nonNull inner => contradiction

theorem nullExcluded {t : TypeRef} (nonNull : t.isNonNull = true) : ¬ Belongs t .null := by
  cases t with
  | nonNull inner => exact fun h => h.1 rfl
  | named name => contradiction
  | list item => contradiction

theorem includedNonNull {small large : TypeRef} (nullable : large.isNonNull = false) :
    Included (.nonNull small) large ↔ Included small large := by
  constructor
  · intro h v member
    by_cases null : v = .null
    · rw [null]
      exact nullBelongs nullable
    · exact h v ⟨null, member⟩
  · exact fun h v member => h v member.2

theorem includedBothNonNull {small large : TypeRef} (nullable : large.isNonNull = false) :
    Included (.nonNull small) (.nonNull large) ↔ Included small large := by
  rw [← includedNonNull nullable]
  constructor
  · exact fun h v member => (h v member).2
  · exact fun h v member => ⟨member.1, h v member⟩

theorem includedNamed {small large : String} :
    Included (.named small) (.named large) ↔ large = small := by
  constructor
  · intro h
    rcases h (.leaf small) (.inr rfl) with impossible | same
    · contradiction
    · cases same
      rfl
  · rintro rfl v member
    exact member

theorem includedList {small large : TypeRef} :
    Included (.list small) (.list large) ↔ Included small large := by
  constructor
  · intro h x member
    -- a list of one value tells the items apart
    have single : Belongs (.list small) (.list [x]) := .inr ⟨[x], rfl, by simpa using member⟩
    rcases h _ single with impossible | ⟨items, same, all⟩
    · contradiction
    · cases same
      exact all x List.mem_cons_self
  · rintro h v (null | ⟨items, rfl, all⟩)
    · exact .inl null
    · exact .inr ⟨items, rfl, fun x hx => h x (all x hx)⟩

theorem listNotNamed {item : TypeRef} {name : String} : ¬ Included (.list item) (.named name) := by
  intro h
  rcases h (.list []) (.inr ⟨[], rfl, by simp⟩) with impossible | impossible <;> contradiction

theorem namedNotList {item : TypeRef} {name : String} : ¬ Included (.named name) (.list item) := by
  intro h
  rcases h (.leaf name) (.inr rfl) with impossible | ⟨items, impossible, _⟩ <;> contradiction

theorem nullableNotNonNull {small inner : TypeRef} (nullable : small.isNonNull = false) :
    ¬ Included small (.nonNull inner) :=
  fun h => nullExcluded rfl (h .null (nullBelongs nullable))

/- Stacked wrappers are left out: two of them mean what one means, and the rule peels them one by
one. -/
theorem outputSafeIffIncluded {old new : TypeRef} (before : old.Unstacked) (after : new.Unstacked) :
    outputSafe old new = true ↔ Included new old := by
  fun_induction outputSafe old new with
  | case1 a b => rw [includedNamed, beq_iff_eq]
  | case2 a new ih => rw [ih before after.2, includedNonNull rfl]
  | case3 a item => simp [listNotNamed]
  | case4 old new ih => rw [ih before after, includedList]
  | case5 old new ih => rw [ih before after.2, includedNonNull rfl]
  | case6 old b => simp [namedNotList]
  | case7 old new ih => rw [ih before.2 after.2, includedBothNonNull before.1]
  | case8 new inner other =>
    have nullable := nullableOfShape other
    exact ⟨fun h => by contradiction, fun h => absurd h (nullableNotNonNull nullable)⟩

theorem outputInputDual (old new : TypeRef) : outputSafe old new = inputSafe new old := by
  fun_induction outputSafe old new with
  | case1 a b => exact BEq.comm
  | case2 a new ih => exact ih
  | case3 a item => rfl
  | case4 old new ih => exact ih
  | case5 old new ih => exact ih
  | case6 old b => rfl
  | case7 old new ih => exact ih
  | case8 new inner other =>
    cases new with
    | nonNull stacked => exact (other stacked rfl).elim
    | named name => rfl
    | list item => rfl

theorem outputSafeRefl (t : TypeRef) : outputSafe t t = true := by
  induction t with
  | named name => exact beq_self_eq_true name
  | list item ih => exact ih
  | nonNull inner ih => exact ih

theorem inputSafeRefl (t : TypeRef) : inputSafe t t = true :=
  (outputInputDual t t).symm.trans (outputSafeRefl t)

theorem inputSafeTrans {a b c : TypeRef} (first : inputSafe a b = true)
    (second : inputSafe b c = true) : inputSafe a c = true := by
  fun_induction inputSafe a b generalizing c with
  | case1 a b => rwa [beq_iff_eq.mp first]
  | case3 a b ih =>
    cases c with
    | list c => exact ih first second
    | named name => contradiction
    | nonNull c => contradiction
  | case5 a b ih =>
    cases c with
    | nonNull c => exact ih first second
    | named name => exact ih first second
    | list c => exact ih first second
  | case6 a b other ih =>
    -- the middle reference may be null, so the last one is not non-null either
    cases c with
    | nonNull c =>
      cases b with
      | nonNull b => exact (other b rfl).elim
      | named name => contradiction
      | list b => contradiction
    | named name => exact ih first second
    | list c => exact ih first second
  | _ => contradiction

theorem outputSafeTrans {a b c : TypeRef} (first : outputSafe a b = true)
    (second : outputSafe b c = true) : outputSafe a c = true := by
  rw [outputInputDual] at *
  exact inputSafeTrans second first

theorem outputSafeAntisymm {a b : TypeRef} (there : outputSafe a b = true)
    (back : outputSafe b a = true) : a = b := by
  fun_induction outputSafe a b with
  | case1 a b => rw [beq_iff_eq.mp there]
  | case4 a b ih => rw [ih there back]
  | case7 a b ih => rw [ih there back]
  | _ => contradiction

theorem rulesDualOrders (a b c : TypeRef) :
    outputSafe a b = inputSafe b a ∧
    outputSafe a a = true ∧
    (outputSafe a b = true → outputSafe b c = true → outputSafe a c = true) ∧
    (outputSafe a b = true → outputSafe b a = true → a = b) :=
  ⟨outputInputDual a b, outputSafeRefl a, outputSafeTrans, outputSafeAntisymm⟩

theorem rulesDualOrdersStacked :
    outputSafe (.list (.named "Int")) (.list (.nonNull (.named "Int"))) = true ∧
    outputSafe (.list (.nonNull (.named "Int")))
      (.nonNull (.nonNull (.list (.nonNull (.named "Int"))))) = true ∧
    outputSafe (.list (.named "Int")) (.nonNull (.nonNull (.list (.nonNull (.named "Int"))))) = true ∧
    outputSafe (.nonNull (.nonNull (.list (.nonNull (.named "Int"))))) (.list (.named "Int")) = false := by
  have first : outputSafe (.list (.named "Int")) (.list (.nonNull (.named "Int"))) = true := by decide
  have second : outputSafe (.list (.nonNull (.named "Int")))
      (.nonNull (.nonNull (.list (.nonNull (.named "Int"))))) = true := by decide
  have both := (rulesDualOrders _ _ _).2.2.1 first second
  refine ⟨first, second, both, Bool.eq_false_iff.mpr fun back => ?_⟩
  have same := (rulesDualOrders _ _ (.named "Int")).2.2.2 both back
  contradiction

theorem safeIffIncluded {old new : TypeRef} (before : old.Unstacked) (after : new.Unstacked) :
    (outputSafe old new = true ↔ ∀ v, Belongs new v → Belongs old v) ∧
    (inputSafe old new = true ↔ ∀ v, Belongs old v → Belongs new v) := by
  refine ⟨outputSafeIffIncluded before after, ?_⟩
  rw [← outputInputDual]
  exact outputSafeIffIncluded after before

theorem safeIffIncludedNested :
    (outputSafe (.list (.named "Int")) (.nonNull (.list (.nonNull (.named "Int")))) = true ↔
      ∀ v, Belongs (.nonNull (.list (.nonNull (.named "Int")))) v →
        Belongs (.list (.named "Int")) v) ∧
    (inputSafe (.list (.named "Int")) (.nonNull (.list (.nonNull (.named "Int")))) = true ↔
      ∀ v, Belongs (.list (.named "Int")) v →
        Belongs (.nonNull (.list (.nonNull (.named "Int")))) v) :=
  safeIffIncluded trivial ⟨rfl, rfl, trivial⟩

end SchemaDrift.Compare
