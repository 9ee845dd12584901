/-! References to types from fields, arguments and input fields: a name inside list and non-null
wrappers. `require` never stacks non-null wrappers; values read from elsewhere may. -/
namespace SchemaDrift

inductive TypeRef where
  | named (name : String)
  | list (item : TypeRef)
  | nonNull (inner : TypeRef)
  deriving DecidableEq, Repr

namespace TypeRef

/-- The non-null form of a reference; one that is non-null already stays as it is. -/
def require : TypeRef → TypeRef
  | .nonNull inner => .nonNull inner
  | other => .nonNull other

def unstack : TypeRef → TypeRef
  | .named name => .named name
  | .list item => .list item.unstack
  | .nonNull inner => inner.unstack.require

def isNonNull : TypeRef → Bool
  | .nonNull _ => true
  | _ => false

def core : TypeRef → String
  | .named name => name
  | .list item => item.core
  | .nonNull inner => inner.core

def text : TypeRef → String
  | .named name => name
  | .list item => "[" ++ item.text ++ "]"
  | .nonNull inner => inner.text ++ "!"

def Unstacked : TypeRef → Prop
  | .named _ => True
  | .list item => item.Unstacked
  | .nonNull inner => inner.isNonNull = false ∧ inner.Unstacked

theorem requireUnstacked {t : TypeRef} (h : t.Unstacked) : t.require.Unstacked := by
  cases t with
  | nonNull inner => exact h
  | named name => exact ⟨rfl, h⟩
  | list item => exact ⟨rfl, h⟩

theorem unstackUnstacked (t : TypeRef) : t.unstack.Unstacked := by
  induction t with
  | named name => trivial
  | list item ih => exact ih
  | nonNull inner ih => exact requireUnstacked ih

end TypeRef
end SchemaDrift
