import Mathlib.Data.Finset.Card
import SchemaDrift.Proofs.Ordered.Writes
import SchemaDrift.Schema.Model

/-! Models under any run of operations. The run splits into writes to the store of types, writes to the
store of directives and settings of the roots; each part goes on as if the others were not there, so
what holds of stores holds of models. -/
namespace SchemaDrift
open Ordered

structure TypeDef.Edit where
  apply : TypeDef → TypeDef
  name : ∀ t, (apply t).name = t.name

namespace Model

inductive Operation where
  | insertType (t : TypeDef)
  | insertDirective (d : DirectiveDef)
  | editType (name : String) (edit : TypeDef.Edit)
  | setRoots (roots : RootOperations)

namespace Operation

def typeWrite? : Operation → Option (Write TypeDef)
  | .insertType t => some (.insert t.name t)
  | .editType name edit => some (.modify name edit.apply)
  | _ => none

def directiveWrite? : Operation → Option (Write DirectiveDef)
  | .insertDirective d => some (.insert d.name d)
  | _ => none

def newRoots? : Operation → Option RootOperations
  | .setRoots roots => some roots
  | _ => none

def typeName? : Operation → Option String
  | .insertType t => some t.name
  | .editType name _ => some name
  | _ => none

def directiveName? : Operation → Option String
  | .insertDirective d => some d.name
  | _ => none

def insertedType? : Operation → Option String
  | .insertType t => some t.name
  | _ => none

end Operation

def apply (m : Model) : Operation → Model
  | .insertType t => m.insertType t
  | .insertDirective d => m.insertDirective d
  | .editType name edit => m.modifyType name edit.apply
  | .setRoots roots => m.setRoots roots

def run (operations : List Operation) : Model := operations.foldl apply empty

theorem runSnoc (operations : List Operation) (op : Operation) :
    run (operations ++ [op]) = (run operations).apply op := List.foldl_append

def typeWrites (operations : List Operation) : List (Write TypeDef) :=
  operations.filterMap Operation.typeWrite?

def directiveWrites (operations : List Operation) : List (Write DirectiveDef) :=
  operations.filterMap Operation.directiveWrite?

def insertedTypes (operations : List Operation) : List String :=
  operations.filterMap Operation.insertedType?

theorem insertedKeysOfTypes (operations : List Operation) :
    insertedKeys (typeWrites operations) = insertedTypes operations := by
  unfold insertedKeys typeWrites insertedTypes
  rw [List.filterMap_filterMap]
  refine List.filterMap_congr fun op _ => ?_
  cases op <;> rfl

section Steps
variable (m : Model) (op : Operation)

theorem applyTypes : (m.apply op).types = op.typeWrite?.elim m.types m.types.write := by
  cases op <;> rfl

theorem applyDirectives :
    (m.apply op).directives = op.directiveWrite?.elim m.directives m.directives.write := by
  cases op <;> rfl

theorem applyRoots : (m.apply op).roots = op.newRoots?.getD m.roots := by
  cases op <;> rfl

end Steps

theorem writtenThen {α : Type} (writes : List (Write α)) (next : Option (Write α)) :
    next.elim (written writes) (written writes).write = written (writes ++ next.toList) := by
  cases next with
  | none => exact congrArg written (List.append_nil _).symm
  | some w => exact (writtenSnoc ..).symm

section Runs
variable (operations : List Operation)

theorem runTypes : (run operations).types = written (typeWrites operations) := by
  induction operations using List.reverseRecOn with
  | nil => rfl
  | append_singleton operations op ih =>
    rw [runSnoc, applyTypes, ih, writtenThen, typeWrites, typeWrites, filterMapSnoc]

theorem runDirectives : (run operations).directives = written (directiveWrites operations) := by
  induction operations using List.reverseRecOn with
  | nil => rfl
  | append_singleton operations op ih =>
    rw [runSnoc, applyDirectives, ih, writtenThen, directiveWrites, directiveWrites, filterMapSnoc]

theorem runRoots :
    (run operations).roots = (operations.filterMap Operation.newRoots?).getLast?.getD .unset := by
  induction operations using List.reverseRecOn with
  | nil => rfl
  | append_singleton operations op ih =>
    rw [runSnoc, applyRoots, ih, filterMapSnoc]
    cases op.newRoots? <;> simp

theorem runTypesKeyed : ∀ e ∈ (run operations).types.entries, e.1 = e.2.name := by
  have origin : ∀ w ∈ typeWrites operations, ∃ op : Operation, op.typeWrite? = some w := fun w inside =>
    have ⟨op, _, same⟩ := List.mem_filterMap.mp inside
    ⟨op, same⟩
  rw [runTypes]
  refine everyWritten (P := fun key (t : TypeDef) => key = t.name) ?_ ?_
  · intro key t inside
    obtain ⟨op, same⟩ := origin _ inside
    cases op <;> cases same
    rfl
  · intro key edit t inside named
    obtain ⟨op, same⟩ := origin _ inside
    cases op with
    | editType name edit =>
      cases same
      exact named.trans (edit.name t).symm
    | _ => cases same

theorem runDirectivesKeyed : ∀ e ∈ (run operations).directives.entries, e.1 = e.2.name := by
  have origin : ∀ w ∈ directiveWrites operations, ∃ d : DirectiveDef, w = .insert d.name d := by
    intro w inside
    obtain ⟨op, _, same⟩ := List.mem_filterMap.mp inside
    cases op <;> cases same
    exact ⟨_, rfl⟩
  rw [runDirectives]
  refine everyWritten (P := fun key (d : DirectiveDef) => key = d.name) ?_ ?_
  · intro key d inside
    obtain ⟨_, same⟩ := origin _ inside
    cases same
    rfl
  · intro key edit d inside
    obtain ⟨_, same⟩ := origin _ inside
    cases same

theorem runNames : (run operations).types.keys = (insertedTypes operations).eraseDups := by
  rw [runTypes, keysWritten, insertedKeysOfTypes]

theorem runSize : (run operations).types.size = (insertedTypes operations).toFinset.card := by
  have members : (run operations).types.keys.toFinset = (insertedTypes operations).toFinset := by
    ext name
    rw [List.mem_toFinset, List.mem_toFinset, runNames, List.mem_eraseDups]
  have distinct : (run operations).types.keys.Nodup := (run operations).types.distinct
  rw [← members, List.toFinset_card_of_nodup distinct]
  exact (List.length_map _).symm

theorem runFinds (name : String) :
    Latest (typeWrites operations) name ((run operations).type? name) := by
  rw [type?, runTypes]
  exact latestWritten ..

theorem runFindsDirective (name : String) :
    Latest (directiveWrites operations) name ((run operations).directive? name) := by
  rw [directive?, runDirectives]
  exact latestWritten ..

end Runs

/-- What a run leaves. The names of types are those ever inserted, each once, in order of first
insertion; every lookup finds what was inserted last, with the edits made since, and that is also what
the next insertion hands back. -/
structure Recorded (operations : List Operation) (m : Model) : Prop where
  typesKeyed : ∀ e ∈ m.types.entries, e.1 = e.2.name
  directivesKeyed : ∀ e ∈ m.directives.entries, e.1 = e.2.name
  namesOnce : m.types.keys.Nodup
  names : ∀ name, name ∈ m.types.keys ↔ name ∈ insertedTypes operations
  namesOrdered : m.types.keys.Pairwise fun a b =>
    (insertedTypes operations).idxOf a < (insertedTypes operations).idxOf b
  size : m.types.size = (insertedTypes operations).toFinset.card
  types : ∀ name, Latest (typeWrites operations) name (m.type? name)
  directives : ∀ name, Latest (directiveWrites operations) name (m.directive? name)
  roots : m.roots = (operations.filterMap Operation.newRoots?).getLast?.getD .unset
  replacedType : ∀ t, Latest (typeWrites operations) t.name (m.exchangeType t).1 ∧
    (m.exchangeType t).2 = run (operations ++ [.insertType t])
  replacedDirective : ∀ d, Latest (directiveWrites operations) d.name (m.exchangeDirective d).1 ∧
    (m.exchangeDirective d).2 = run (operations ++ [.insertDirective d])

theorem runRecorded (operations : List Operation) : Recorded operations (run operations) where
  typesKeyed := runTypesKeyed operations
  directivesKeyed := runDirectivesKeyed operations
  namesOnce := (run operations).types.distinct
  names name := by rw [runNames, List.mem_eraseDups]
  namesOrdered := by
    rw [runNames]
    exact eraseDupsFirst _
  size := runSize operations
  types := runFinds operations
  directives := runFindsDirective operations
  roots := runRoots operations
  replacedType t := ⟨runFinds operations t.name, (runSnoc operations (.insertType t)).symm⟩
  replacedDirective d :=
    ⟨runFindsDirective operations d.name, (runSnoc operations (.insertDirective d)).symm⟩

structure Undisturbed (m : Model) (op : Operation) : Prop where
  otherTypes : ∀ name, op.typeName? ≠ some name → (m.apply op).type? name = m.type? name
  types : op.typeName? = none → (m.apply op).types = m.types
  otherDirectives : ∀ name, op.directiveName? ≠ some name →
    (m.apply op).directive? name = m.directive? name
  directives : op.directiveName? = none → (m.apply op).directives = m.directives
  roots : op.newRoots? = none → (m.apply op).roots = m.roots

theorem othersUndisturbed (m : Model) (op : Operation) : Undisturbed m op where
  otherTypes name other := by
    cases op with
    | insertType t =>
      exact (getInsert ..).trans (if_neg fun same => other (congrArg some same.symm))
    | editType key edit =>
      exact (getModify ..).trans (if_neg fun same => other (congrArg some same.symm))
    | insertDirective d => rfl
    | setRoots roots => rfl
  types none := by
    cases op <;> first | rfl | contradiction
  otherDirectives name other := by
    cases op with
    | insertDirective d =>
      exact (getInsert ..).trans (if_neg fun same => other (congrArg some same.symm))
    | _ => rfl
  directives none := by
    cases op <;> first | rfl | contradiction
  roots none := by
    rw [applyRoots, none, Option.getD_none]

theorem ofTypesRuns (types : List TypeDef) : ofTypes types = run (types.map .insertType) := by
  rw [run, List.foldl_map]
  rfl

theorem runsRecorded : (∀ operations, Recorded operations (run operations)) ∧
    (∀ m op, Undisturbed m op) ∧ ∀ types, ofTypes types = run (types.map .insertType) :=
  ⟨runRecorded, othersUndisturbed, ofTypesRuns⟩

end Model
end SchemaDrift
