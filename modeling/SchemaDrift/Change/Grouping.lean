import Std.Data.HashMap.Basic
import SchemaDrift.Change

/-! Changes by category, in the order in which categories first occur: the groups themselves, and
their sizes counted without them, at once or in one pass. -/
namespace SchemaDrift

def addToGroups (groups : List (Category × List Change)) (c : Change) :
    List (Category × List Change) :=
  match groups with
  | [] => [(c.category, [c])]
  | (category, members) :: rest =>
    if category = c.category then (category, members ++ [c]) :: rest
    else (category, members) :: addToGroups rest c

def groupByCategory (changes : List Change) : List (Category × List Change) :=
  changes.foldl addToGroups []

def categoriesSeen (changes : List Change) : List Category := (changes.map (·.category)).eraseDups

def categoryCounts (s : ChangeSet) : List (Category × Nat) :=
  (categoriesSeen s.toList).map fun c => (c, s.toList.countP (·.category == c))

/-- A map of counts beside the categories met so far; a category is new while its count is zero. -/
structure Tally where
  order : List Category
  counts : Std.HashMap Category Nat

namespace Tally

def empty : Tally := ⟨[], ∅⟩

def add (t : Tally) (c : Change) : Tally :=
  let count := t.counts.getD c.category 0
  ⟨if count = 0 then t.order ++ [c.category] else t.order, t.counts.insert c.category (count + 1)⟩

def listed? (t : Tally) : Option (List (Category × Nat)) :=
  t.order.mapM fun k => (t.counts[k]?).map fun count => (k, count)

end Tally

def tally (changes : List Change) : Tally := changes.foldl Tally.add .empty

end SchemaDrift
