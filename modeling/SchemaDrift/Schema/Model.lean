import SchemaDrift.Schema.TypeDef

/-! The type system of one schema version: ordered stores of types and of directive definitions, and
the root operations. Types inserted here stand under their own names; a model read from elsewhere
may have other keys. -/
namespace SchemaDrift

structure RootOperations where
  query : Option String
  mutation : Option String
  subscription : Option String
  deriving DecidableEq, Repr

def RootOperations.unset : RootOperations := ⟨none, none, none⟩

def RootOperations.names (r : RootOperations) : List String :=
  [r.query, r.mutation, r.subscription].filterMap id

structure Model where
  types : Ordered TypeDef
  directives : Ordered DirectiveDef
  roots : RootOperations
  deriving Repr

namespace Model

def empty : Model := ⟨.empty, .empty, .unset⟩

instance : Inhabited Model := ⟨empty⟩

def insertType (m : Model) (t : TypeDef) : Model := { m with types := m.types.insert t.name t }

def insertDirective (m : Model) (d : DirectiveDef) : Model :=
  { m with directives := m.directives.insert d.name d }

def exchangeType (m : Model) (t : TypeDef) : Option TypeDef × Model :=
  (m.types.get? t.name, m.insertType t)

def exchangeDirective (m : Model) (d : DirectiveDef) : Option DirectiveDef × Model :=
  (m.directives.get? d.name, m.insertDirective d)

def modifyType (m : Model) (name : String) (f : TypeDef → TypeDef) : Model :=
  { m with types := m.types.modify name f }

def setRoots (m : Model) (roots : RootOperations) : Model := { m with roots }

def ofTypes (types : List TypeDef) : Model := types.foldl insertType empty

def type? (m : Model) (name : String) : Option TypeDef := m.types.get? name

def directive? (m : Model) (name : String) : Option DirectiveDef := m.directives.get? name

def hasType (m : Model) (name : String) : Bool := m.types.contains name

def typeList (m : Model) : List TypeDef := m.types.values

def directiveList (m : Model) : List DirectiveDef := m.directives.values

structure Keyed (m : Model) : Prop where
  types : ∀ e ∈ m.types.entries, e.1 = e.2.name
  directives : ∀ e ∈ m.directives.entries, e.1 = e.2.name
  fields : ∀ t ∈ m.typeList, ∀ shape, t.shape? = some shape →
    ∀ e ∈ shape.fields.entries, e.1 = e.2.name
  inputFields : ∀ t ∈ m.typeList, ∀ fields, t.body = .inputObject fields →
    ∀ e ∈ fields.entries, e.1 = e.2.name

end Model
end SchemaDrift
