import SchemaDrift.Location
import SchemaDrift.Schema.Literal
import SchemaDrift.Schema.Model

/-! Schema documents as written: definitions and extensions in their order, before names are
resolved. Values may still hold variables, which no constant position admits. -/
namespace SchemaDrift.Sdl

inductive Value where
  | variable (name : String)
  | null
  | boolean (value : Bool)
  | integer (value : Int64)
  | float (value : Binary64)
  | string (value : String)
  | enumValue (name : String)
  | list (items : List Value)
  | object (entries : List (String × Value))
  deriving Repr

namespace Value

mutual
def Distinct : Value → Prop
  | .list items => DistinctItems items
  | .object entries => (entries.map (·.1)).Nodup ∧ DistinctEntries entries
  | _ => True

def DistinctItems : List Value → Prop
  | [] => True
  | v :: rest => v.Distinct ∧ DistinctItems rest

def DistinctEntries : List (String × Value) → Prop
  | [] => True
  | (_, v) :: rest => v.Distinct ∧ DistinctEntries rest
end

theorem distinctItemsIff {items : List Value} :
    DistinctItems items ↔ ∀ v ∈ items, v.Distinct := by
  induction items with
  | nil => simp [DistinctItems]
  | cons v rest ih => simp [DistinctItems, ih]

theorem distinctEntriesIff {entries : List (String × Value)} :
    DistinctEntries entries ↔ ∀ e ∈ entries, e.2.Distinct := by
  induction entries with
  | nil => simp [DistinctEntries]
  | cons e rest ih => simp [DistinctEntries, ih]

end Value

/-- A value whose objects are stores. -/
structure Expression where
  value : Value
  distinct : value.Distinct
  deriving Repr

namespace Expression

theorem ext {e f : Expression} (same : e.value = f.value) : e = f := by
  cases e; cases f; cases same; rfl

def ofVariable (name : String) : Expression := ⟨.variable name, trivial⟩

def null : Expression := ⟨.null, trivial⟩

def boolean (value : Bool) : Expression := ⟨.boolean value, trivial⟩

def integer (value : Int64) : Expression := ⟨.integer value, trivial⟩

def float (value : Binary64) : Expression := ⟨.float value, trivial⟩

def string (value : String) : Expression := ⟨.string value, trivial⟩

def enumValue (name : String) : Expression := ⟨.enumValue name, trivial⟩

def list (items : List Expression) : Expression :=
  ⟨.list (items.map (·.value)), Value.distinctItemsIff.mpr fun _ inside => by
    obtain ⟨e, _, rfl⟩ := List.mem_map.mp inside
    exact e.distinct⟩

def object (s : Ordered Expression) : Expression :=
  ⟨.object (s.map (·.value)).entries, (s.map (·.value)).distinct,
    Value.distinctEntriesIff.mpr fun _ inside => by
      obtain ⟨e, _, rfl⟩ := List.mem_map.mp inside
      exact e.2.distinct⟩

end Expression

structure DirectiveUse where
  name : String
  arguments : List (String × Expression)
  deriving Repr

structure InputValue where
  position : Location
  name : String
  type : TypeRef
  default : Option Expression
  directives : List DirectiveUse
  deriving Repr

structure FieldNode where
  position : Location
  name : String
  arguments : List InputValue
  type : TypeRef
  directives : List DirectiveUse
  deriving Repr

structure EnumValueNode where
  position : Location
  name : String
  directives : List DirectiveUse
  deriving Repr

inductive Members where
  | scalar
  | object (interfaces : List String) (fields : List FieldNode)
  | interface (interfaces : List String) (fields : List FieldNode)
  | union (members : List String)
  | enum (values : List EnumValueNode)
  | inputObject (fields : List InputValue)
  deriving Repr

def Members.kind : Members → TypeKind
  | .scalar => .scalar
  | .object _ _ => .object
  | .interface _ _ => .interface
  | .union _ => .union
  | .enum _ => .enum
  | .inputObject _ => .inputObject

structure TypeNode where
  position : Location
  name : String
  directives : List DirectiveUse
  members : Members
  deriving Repr

structure DirectiveNode where
  position : Location
  name : String
  arguments : List InputValue
  repeatable : Bool
  sites : List String
  deriving Repr

inductive Definition where
  | schema (roots : RootOperations) (directives : List DirectiveUse)
  | type (node : TypeNode)
  | extension (node : TypeNode)
  | directive (node : DirectiveNode)
  deriving Repr

abbrev Document := List Definition

end SchemaDrift.Sdl
