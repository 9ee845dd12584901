import Mathlib.Data.List.Perm.Subperm
import SchemaDrift.Proofs.Binary64.Integers
import SchemaDrift.Proofs.Schema.Literal

/-! Sameness of literals as a relation. On constants it is reflexive and symmetric. It is transitive
among literals of whose integers no two round to the same number, and among no others:
integers are compared exactly, but a float that two of them round to is the same as either. -/
namespace SchemaDrift.Literal

def IntegersIn (S : Int64 → Prop) (v : Literal) : Prop := ∀ i, .integer i ∈ v.scalars → S i

def Apart (S : Int64 → Prop) : Prop :=
  ∀ i j, S i → S j → (Binary64.ofInt i.toInt).sameNumber (Binary64.ofInt j.toInt) = true → i = j

def Plain : Literal → Prop
  | .null => True
  | .boolean _ => True
  | .string _ => True
  | .enumValue _ => True
  | _ => False

theorem integersOfItem {S : Int64 → Prop} {items : List Literal} (all : (list items).IntegersIn S)
    {v : Literal} (inside : v ∈ items) : v.IntegersIn S :=
  fun i member => all i (memItemScalars.mpr ⟨v, inside, member⟩)

theorem integersOfEntry {S : Int64 → Prop} {entries : List (String × Literal)}
    (all : (object entries).IntegersIn S) {e : String × Literal} (inside : e ∈ entries) :
    e.2.IntegersIn S :=
  fun i member => all i (memEntryScalars.mpr ⟨e, inside, member⟩)

theorem samePlain {a b : Literal} (h : a.same b = true) (plain : a.Plain) : a = b := by
  cases a with
  | null => exact (sameNull h).symm
  | boolean x =>
    cases b with
    | boolean y => exact congrArg _ (beq_iff_eq.mp h)
    | _ => contradiction
  | string s =>
    cases b with
    | string t => exact congrArg _ (beq_iff_eq.mp h)
    | _ => contradiction
  | enumValue name =>
    cases b with
    | enumValue other => exact congrArg _ (beq_iff_eq.mp h)
    | _ => contradiction
  | _ => contradiction

theorem sameInteger {i : Int64} {b : Literal} : (integer i).same b = true ↔
    b = .integer i ∨ ∃ y, b = .float y ∧ (Binary64.ofInt i.toInt).sameNumber y = true := by
  cases b with
  | integer j => simp [same, eq_comm (a := i)]
  | _ => simp [same]

theorem sameFloat {x : Binary64} {b : Literal} :
    (float x).same b = true ↔ ∃ y, b.number? = some y ∧ x.sameNumber y = true := by
  cases b <;> simp [same, number?]

section Symmetry

/- Every key of the one object is a key of the other, and there are as many; so no key is left over. -/
theorem sameEntriesSymm {entries others : List (String × Literal)}
    (distinct : (entries.map (·.1)).Nodup)
    (each : ∀ e ∈ entries, ∀ y : Literal, e.2.same y = true → y.same e.2 = true)
    (h : (object entries).same (.object others) = true) :
    (object others).same (.object entries) = true := by
  obtain ⟨size, found⟩ := sameObject.mp h
  have keys : (entries.map (·.1)).Perm (others.map (·.1)) := by
    refine (List.subperm_of_subset distinct fun key inside => ?_).perm_of_length_le (by simp [size])
    obtain ⟨e, member, rfl⟩ := List.mem_map.mp inside
    obtain ⟨y, there, _⟩ := found e member
    exact List.mem_map.mpr ⟨(e.1, y), Ordered.memOfLookup there, rfl⟩
  refine sameObject.mpr ⟨size.symm, fun d inside => ?_⟩
  obtain ⟨e, member, key⟩ := List.mem_map.mp (keys.mem_iff.mpr (List.mem_map_of_mem inside))
  obtain ⟨y, there, same⟩ := found e member
  have own : others.lookup e.1 = some d.2 :=
    Ordered.lookupOfMem (keys.nodup_iff.mp distinct) (key ▸ inside)
  cases there.symm.trans own
  exact ⟨e.2, key ▸ Ordered.lookupOfMem distinct member, each e member _ same⟩

theorem sameSymm (a : Constant) {b : Literal} (h : a.literal.same b = true) :
    b.same a.literal = true := by
  induction a using Constant.nestedInduction generalizing b with
  | integer i =>
    rcases sameInteger.mp h with rfl | ⟨y, rfl, near⟩
    · exact h
    · exact Binary64.sameNumberSymm near
  | float x =>
    cases b with
    | integer j => exact Binary64.sameNumberSymm h
    | float y => exact Binary64.sameNumberSymm h
    | _ => contradiction
  | list items ih =>
    obtain ⟨others, rfl, each⟩ := sameList h
    have back : ∀ x ∈ items.map (·.literal), ∀ y : Literal, x.same y = true → y.same x = true :=
      List.forall_mem_map.mpr fun c inside _ => ih c inside
    have turned := (List.forall₂_and_left _ _).mpr ⟨back, each⟩
    exact sameItemsIff.mpr (turned.imp fun _ y ⟨turn, same⟩ => turn y same).flip
  | object s ih =>
    obtain ⟨others, rfl⟩ := sameOfObject h
    exact sameEntriesSymm (s.map (·.literal)).distinct
      (List.forall_mem_map.mpr fun e inside _ => ih e inside) h
  | _ =>
    cases samePlain h trivial
    exact h

end Symmetry

section Transitivity
variable {S : Int64 → Prop}

theorem integerTrans (apart : Apart S) {i : Int64} {b c : Literal} (here : S i)
    (integers : c.IntegersIn S) (first : (integer i).same b = true) (second : b.same c = true) :
    (integer i).same c = true := by
  rcases sameInteger.mp first with rfl | ⟨y, rfl, near⟩
  · exact second
  · cases c with
    | integer k =>
      have rounded := Binary64.sameNumberTrans near second
      cases apart i k here (integers k List.mem_cons_self) rounded
      exact sameInteger.mpr (.inl rfl)
    | float z => exact Binary64.sameNumberTrans near second
    | _ => contradiction

theorem floatTrans {x : Binary64} {b c : Literal} (first : (float x).same b = true)
    (second : b.same c = true) : (float x).same c = true := by
  cases b with
  | integer j =>
    rcases sameInteger.mp second with rfl | ⟨z, rfl, other⟩
    · exact first
    · exact Binary64.sameNumberTrans first other
  | float y =>
    obtain ⟨z, number, other⟩ := sameFloat.mp second
    exact sameFloat.mpr ⟨z, number, Binary64.sameNumberTrans first other⟩
  | _ => contradiction

theorem sameItemsTrans {xs ys zs : List Literal}
    (each : ∀ x ∈ xs, ∀ y : Literal, ∀ z ∈ zs, x.same y = true → y.same z = true → x.same z = true)
    (first : List.Forall₂ (fun x y => x.same y = true) xs ys)
    (second : List.Forall₂ (fun y z => y.same z = true) ys zs) : sameItems xs zs = true := by
  induction first generalizing zs with
  | nil => exact sameItemsIff.mpr second
  | cons head _ ih =>
    cases second with
    | cons next rest =>
      rw [sameItems, Bool.and_eq_true]
      refine ⟨each _ List.mem_cons_self _ _ List.mem_cons_self head next, ?_⟩
      refine ih (fun v inside w u there => ?_) rest
      exact each v (List.mem_cons_of_mem _ inside) w u (List.mem_cons_of_mem _ there)

theorem sameTrans (apart : Apart S) {a b c : Literal} (left : a.IntegersIn S) (right : c.IntegersIn S)
    (first : a.same b = true) (second : b.same c = true) : a.same c = true := by
  induction a using nestedInduction generalizing b c with
  | integer i => exact integerTrans apart (left i List.mem_cons_self) right first second
  | float x => exact floatTrans first second
  | list items ih =>
    obtain ⟨middle, rfl, head⟩ := sameList first
    obtain ⟨last, rfl, tail⟩ := sameList second
    refine sameItemsTrans (fun x inside y z there => ?_) head tail
    exact ih x inside (integersOfItem left inside) (integersOfItem right there)
  | object entries ih =>
    obtain ⟨middle, rfl⟩ := sameOfObject first
    obtain ⟨last, rfl⟩ := sameOfObject second
    obtain ⟨size, found⟩ := sameObject.mp first
    obtain ⟨sizeAfter, foundAfter⟩ := sameObject.mp second
    refine sameObject.mpr ⟨size.trans sizeAfter, fun e inside => ?_⟩
    obtain ⟨y, there, near⟩ := found e inside
    obtain ⟨z, later, other⟩ := foundAfter _ (Ordered.memOfLookup there)
    have integers : z.IntegersIn S := integersOfEntry right (Ordered.memOfLookup later)
    exact ⟨z, later, ih e inside (integersOfEntry left inside) integers near other⟩
  | _ =>
    cases samePlain first trivial
    exact second

end Transitivity

theorem sameEquivalence (S : Int64 → Prop) :
    (∀ a : Constant, a.literal.same a.literal = true) ∧
    (∀ (a : Constant) (b : Literal), a.literal.same b = true → b.same a.literal = true) ∧
    (Apart S ↔ ∀ a b c : Literal, a.IntegersIn S → c.IntegersIn S →
      a.same b = true → b.same c = true → a.same c = true) ∧
    ((∀ i, S i → (Binary64.ofInt i.toInt).Represents i.toInt) → Apart S) ∧
    ∀ i : Int64, i.toInt.natAbs ≤ Nat.pow 2 53 → (Binary64.ofInt i.toInt).Represents i.toInt := by
  refine ⟨Constant.sameRefl, fun a b => sameSymm a, ⟨fun apart a b c => sameTrans apart, ?_⟩, ?_, ?_⟩
  · intro transitive i j here there rounded
    have single : ∀ {k : Int64}, S k → (integer k).IntegersIn S := by
      intro k inside l member
      cases List.mem_singleton.mp member
      exact inside
    have near : (integer i).same (.float (Binary64.ofInt i.toInt)) = true :=
      Binary64.sameNumberRefl _
    exact beq_iff_eq.mp (transitive _ _ (.integer j) (single here) (single there) near rounded)
  · intro represented i j here there same
    exact Int64.toInt_inj.mp (Binary64.representsOne same (represented i here) (represented j there))
  · exact fun i => Binary64.ofIntRepresents

section Examples

def mixedNumbers : Constant :=
  .object ⟨[("a", .list [.integer 1, .float .nan]), ("b", .float (.zero true))], by decide⟩

def numbersAsFloats : Constant :=
  .object ⟨[("b", .integer 0), ("a", .list [.float (Binary64.ofInt 1), .float .nan])], by decide⟩

def numbersReversed : Constant :=
  .object ⟨[("b", .float (.zero false)), ("a", .list [.integer 1, .float .nan])], by decide⟩

theorem sameEquivalenceOfNumbers : mixedNumbers.literal.same mixedNumbers.literal = true ∧
    numbersAsFloats.literal.same mixedNumbers.literal = true ∧
    mixedNumbers.literal.same numbersReversed.literal = true := by
  obtain ⟨reflexive, symmetric, transitive, apart, exactly⟩ := sameEquivalence (· = 1)
  have first : mixedNumbers.literal.same numbersAsFloats.literal = true := by decide +kernel
  have second : numbersAsFloats.literal.same numbersReversed.literal = true := by decide +kernel
  have integers : mixedNumbers.literal.scalars = [.integer 1, .float .nan, .float (.zero true)] ∧
      numbersReversed.literal.scalars = [.float (.zero false), .integer 1, .float .nan] := ⟨rfl, rfl⟩
  have one : ∀ i : Int64, i = 1 → (Binary64.ofInt i.toInt).Represents i.toInt := by
    rintro i rfl
    exact exactly 1 (by decide +kernel)
  refine ⟨reflexive _, symmetric _ _ first,
    transitive.mp (apart one) _ _ _ (fun i inside => ?_) (fun i inside => ?_) first second⟩
  · simpa [integers.1] using inside
  · simpa [integers.2] using inside

theorem successorRoundedAway :
    (integer 9007199254740992).same (.float (.finite false (Nat.pow 2 52) 1 (by decide))) = true ∧
    (float (.finite false (Nat.pow 2 52) 1 (by decide))).same (.integer 9007199254740993) = true ∧
    (integer 9007199254740992).same (.integer 9007199254740993) = false := by
  decide +kernel

end Examples

end SchemaDrift.Literal
