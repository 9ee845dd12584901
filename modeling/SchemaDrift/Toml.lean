import SchemaDrift.Binary64

/-! TOML values as data, and the growth of a document: which tables may still be opened or extended
depends on how they came to be. -/
namespace SchemaDrift

/-- How a table came to be: by its own header, on the way to another header, by a dotted key, or
written between braces. -/
inductive TableOrigin where
  | header
  | implied
  | dotted
  | inline
  deriving DecidableEq, Repr

inductive Toml where
  | string (value : String)
  | integer (value : Int)
  | float (value : Binary64)
  | boolean (value : Bool)
  | moment
  | array (items : List Toml)
  | table (origin : TableOrigin) (entries : List (String × Toml))
  | tables (items : List (List (String × Toml)))
  deriving Repr

namespace Toml

instance : Inhabited Toml := ⟨.boolean false⟩

abbrev Entries := List (String × Toml)

def setEntry (key : String) (value : Toml) (entries : Entries) : Entries :=
  entries.map fun e => if e.1 = key then (key, value) else e

abbrev Growth := TableOrigin → Entries → Option Entries

/- A dotted key may pass through tables that headers only implied, but not through ones they opened;
a header may pass through any table that is not between braces, and through the last of several. -/
def along (dotted : Bool) (grow : Growth) : List String → Growth
  | [], origin, entries => grow origin entries
  | key :: path, _, entries =>
    match entries.lookup key with
    | none => do
      let origin : TableOrigin := if dotted then .dotted else .implied
      let inner ← along dotted grow path origin []
      some (entries ++ [(key, .table origin inner)])
    | some (.table origin inner) =>
      if origin = .inline ∨ (dotted ∧ origin = .header) then none
      else do
        let grown ← along dotted grow path origin inner
        some (setEntry key (.table origin grown) entries)
    | some (.tables items) =>
      match items.getLast? with
      | none => none
      | some last => do
        let grown ← along dotted grow path .header last
        some (setEntry key (.tables (items.dropLast ++ [grown])) entries)
    | some _ => none

/-- Adds a value under a new key. A dotted key adds only to tables that dotted keys made, a plain key
only to others. -/
def addValue (dotted : Bool) (key : String) (value : Toml) : Growth := fun origin entries =>
  if (origin = .dotted) ≠ dotted ∨ (entries.lookup key).isSome then none
  else some (entries ++ [(key, value)])

def addDotted (path : List String) (key : String) (value : Toml) : Growth :=
  along true (addValue (!path.isEmpty) key value) path

def openTable (key : String) : Growth := fun _ entries =>
  match entries.lookup key with
  | none => some (entries ++ [(key, .table .header [])])
  | some (.table .implied inner) => some (setEntry key (.table .header inner) entries)
  | some _ => none

def openElement (key : String) : Growth := fun _ entries =>
  match entries.lookup key with
  | none => some (entries ++ [(key, .tables [[]])])
  | some (.tables items) => some (setEntry key (.tables (items ++ [[]])) entries)
  | some _ => none

end Toml
end SchemaDrift
