import SchemaDrift.Change.Category
import SchemaDrift.Location

/-! A single change of a schema, and sets of changes kept by severity. A set is what its operations
let arrive and keep: `push` looks at the severity, `append` and `retain` do not. -/
namespace SchemaDrift

/-- The last field is present only where the change concerns an argument that a marker may have made
required. -/
structure Change where
  category : Category
  message : String
  resource : String
  location : Option Location
  wasDeprecated : Bool
  wasRequired : Option Bool
  deriving DecidableEq, Repr

def Change.severity (c : Change) : Severity := c.category.severity

def Change.isBreaking (c : Change) : Bool := c.category.isBreaking

structure ChangeSet where
  breaking : List Change
  dangerous : List Change
  deriving DecidableEq, Repr

namespace ChangeSet

def empty : ChangeSet := ⟨[], []⟩

def push (s : ChangeSet) (c : Change) : ChangeSet :=
  match c.severity with
  | .breaking => { s with breaking := s.breaking ++ [c] }
  | .dangerous => { s with dangerous := s.dangerous ++ [c] }

def append (s t : ChangeSet) : ChangeSet :=
  ⟨s.breaking ++ t.breaking, s.dangerous ++ t.dangerous⟩

def retain (keep : Change → Bool) (s : ChangeSet) : ChangeSet :=
  ⟨s.breaking.filter keep, s.dangerous.filter keep⟩

def ofList (changes : List Change) : ChangeSet :=
  ⟨changes.filter (·.isBreaking), changes.filter (!·.isBreaking)⟩

def toList (s : ChangeSet) : List Change := s.breaking ++ s.dangerous

def size (s : ChangeSet) : Nat := s.breaking.length + s.dangerous.length

def isEmpty (s : ChangeSet) : Bool := s.breaking.isEmpty && s.dangerous.isEmpty

def hasBreaking (s : ChangeSet) : Bool := !s.breaking.isEmpty

def hasDangerous (s : ChangeSet) : Bool := !s.dangerous.isEmpty

theorem pushOfList (changes : List Change) (c : Change) :
    (ofList changes).push c = ofList (changes ++ [c]) := by
  unfold push ofList Change.isBreaking Change.severity Category.isBreaking
  cases h : c.category.severity <;> simp [h]

theorem ofListAppend (changes more : List Change) :
    ofList (changes ++ more) = (ofList changes).append (ofList more) := by
  simp [ofList, append]

theorem sizeOfList (changes : List Change) : (ofList changes).size = changes.length := by
  induction changes with
  | nil => rfl
  | cons c rest ih =>
    simp only [ofList, size] at ih ⊢
    cases h : c.isBreaking <;> simp [h] <;> omega

end ChangeSet
end SchemaDrift
