import SchemaDrift.Binary64
import SchemaDrift.Ordered

/-! JSON values as data: entries of objects in the order of the text, repeated keys included. A value
that is well formed but stands for nothing usable (a number out of range, half a surrogate pair, more
nesting than a reader admits) is kept as such, since only those who look at it have to refuse it. -/
namespace SchemaDrift

inductive Json where
  | null
  | boolean (value : Bool)
  | integer (value : Int)
  | float (value : Binary64)
  | string (value : String)
  | array (items : List Json)
  | object (entries : List (String × Json))
  | unusable
  deriving Repr

namespace Json

instance : Inhabited Json := ⟨.null⟩

mutual
def usable : Json → Bool
  | .unusable => false
  | .array items => usableItems items
  | .object entries => usableEntries entries
  | _ => true

def usableItems : List Json → Bool
  | [] => true
  | j :: rest => usable j && usableItems rest

def usableEntries : List (String × Json) → Bool
  | [] => true
  | (_, j) :: rest => usable j && usableEntries rest
end

mutual
def sorted : Json → Json
  | .array items => .array (sortedItems items)
  | .object entries => .object (sortedEntries entries [])
  | j => j

def sortedItems : List Json → List Json
  | [] => []
  | j :: rest => sorted j :: sortedItems rest

def sortedEntries : List (String × Json) → List (String × Json) → List (String × Json)
  | [], done => done
  | (key, j) :: rest, done => sortedEntries rest (Ordered.insertSorted key (sorted j) done)
end

end Json
end SchemaDrift
