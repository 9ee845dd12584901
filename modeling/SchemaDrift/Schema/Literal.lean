import SchemaDrift.Binary64.Notation
import SchemaDrift.Ordered
import SchemaDrift.Schema.TypeRef
import SchemaDrift.Text.Quoted

/-! Constant literals: default values and arguments of applied directives. `same` decides whether a
default changed, `coerce` is the value as list coercion of its type sees it, `text` is what people
read. Object entries keep their order; a constant is a literal whose objects are stores. -/
namespace SchemaDrift
open Text

inductive Literal where
  | null
  | boolean (value : Bool)
  | integer (value : Int64)
  | float (value : Binary64)
  | string (value : String)
  | enumValue (name : String)
  | list (items : List Literal)
  | object (entries : List (String × Literal))
  deriving Repr

namespace Literal

instance : Inhabited Literal := ⟨.null⟩

def number? : Literal → Option Binary64
  | .integer i => some (Binary64.ofInt i.toInt)
  | .float x => some x
  | _ => none

mutual
/-- Equality of literals: numbers by value, lists in order, objects in any order of keys. -/
def same : Literal → Literal → Bool
  | .null, .null => true
  | .boolean a, .boolean b => a == b
  | .string a, .string b => a == b
  | .enumValue a, .enumValue b => a == b
  | .integer a, .integer b => a == b
  | .integer a, .float y => (Binary64.ofInt a.toInt).sameNumber y
  | .float x, .integer b => x.sameNumber (Binary64.ofInt b.toInt)
  | .float x, .float y => x.sameNumber y
  | .list a, .list b => sameItems a b
  | .object a, .object b => a.length == b.length && sameWithin a b
  | _, _ => false

def sameItems : List Literal → List Literal → Bool
  | [], [] => true
  | x :: xs, y :: ys => same x y && sameItems xs ys
  | _, _ => false

def sameWithin : List (String × Literal) → List (String × Literal) → Bool
  | [], _ => true
  | (key, x) :: rest, others =>
    (match others.lookup key with
      | some y => same x y
      | none => false) && sameWithin rest others
end

/-- A literal that is not a list stands for the list of it alone, at every list level; null stays
null. -/
def coerce : TypeRef → Literal → Literal
  | .nonNull inner, v => coerce inner v
  | .list item, v =>
    match v with
    | .null => .null
    | .list items => .list (items.map (coerce item))
    | other => .list [coerce item other]
  | .named _, v => v

def commaJoined : List String → String
  | [] => ""
  | [s] => s
  | s :: rest => s ++ ", " ++ commaJoined rest

mutual
def text : Literal → String
  | .null => "null"
  | .boolean true => "true"
  | .boolean false => "false"
  | .integer i => integerText i.toInt
  | .float x => x.plainText
  | .string s => quoted s
  | .enumValue name => name
  | .list items => "[" ++ commaJoined (itemTexts items) ++ "]"
  | .object entries => "\x7b" ++ commaJoined (entryTexts entries) ++ "\x7d"

def itemTexts : List Literal → List String
  | [] => []
  | v :: rest => text v :: itemTexts rest

def entryTexts : List (String × Literal) → List String
  | [] => []
  | (key, v) :: rest => (key ++ ": " ++ text v) :: entryTexts rest
end

mutual
/-- No object at any depth names a key twice. -/
def Distinct : Literal → Prop
  | .list items => DistinctItems items
  | .object entries => (entries.map (·.1)).Nodup ∧ DistinctEntries entries
  | _ => True

def DistinctItems : List Literal → Prop
  | [] => True
  | v :: rest => v.Distinct ∧ DistinctItems rest

def DistinctEntries : List (String × Literal) → Prop
  | [] => True
  | (_, v) :: rest => v.Distinct ∧ DistinctEntries rest
end

theorem distinctItemsIff {items : List Literal} :
    DistinctItems items ↔ ∀ v ∈ items, v.Distinct := by
  induction items with
  | nil => simp [DistinctItems]
  | cons v rest ih => simp [DistinctItems, ih]

theorem distinctEntriesIff {entries : List (String × Literal)} :
    DistinctEntries entries ↔ ∀ e ∈ entries, e.2.Distinct := by
  induction entries with
  | nil => simp [DistinctEntries]
  | cons e rest ih => simp [DistinctEntries, ih]

end Literal

structure Constant where
  literal : Literal
  distinct : literal.Distinct
  deriving Repr

namespace Constant

theorem ext {c d : Constant} (same : c.literal = d.literal) : c = d := by
  cases c; cases d; cases same; rfl

def null : Constant := ⟨.null, trivial⟩

def boolean (value : Bool) : Constant := ⟨.boolean value, trivial⟩

def integer (value : Int64) : Constant := ⟨.integer value, trivial⟩

def float (value : Binary64) : Constant := ⟨.float value, trivial⟩

def string (value : String) : Constant := ⟨.string value, trivial⟩

def enumValue (name : String) : Constant := ⟨.enumValue name, trivial⟩

def list (items : List Constant) : Constant :=
  ⟨.list (items.map (·.literal)), Literal.distinctItemsIff.mpr fun _ inside => by
    obtain ⟨c, _, rfl⟩ := List.mem_map.mp inside
    exact c.distinct⟩

def object (s : Ordered Constant) : Constant :=
  ⟨.object (s.map (·.literal)).entries, (s.map (·.literal)).distinct,
    Literal.distinctEntriesIff.mpr fun _ inside => by
      obtain ⟨e, _, rfl⟩ := List.mem_map.mp inside
      exact e.2.distinct⟩

@[simp] theorem literalNull : null.literal = .null := rfl

@[simp] theorem literalBoolean (value : Bool) : (boolean value).literal = .boolean value := rfl

@[simp] theorem literalInteger (value : Int64) : (integer value).literal = .integer value := rfl

@[simp] theorem literalFloat (value : Binary64) : (float value).literal = .float value := rfl

@[simp] theorem literalString (value : String) : (string value).literal = .string value := rfl

@[simp] theorem literalEnumValue (name : String) : (enumValue name).literal = .enumValue name := rfl

@[simp] theorem literalList (items : List Constant) :
    (list items).literal = .list (items.map (·.literal)) := rfl

@[simp] theorem literalObject (s : Ordered Constant) :
    (object s).literal = .object (s.entries.map fun e => (e.1, e.2.literal)) := rfl

instance : Inhabited Constant := ⟨.null⟩

end Constant
end SchemaDrift
