import SchemaDrift.Schema.TypeRef

/-! When one type reference may take the place of another. Clients that read a field still work if
the new reference only adds non-null; clients that pass a value still work if it only drops it. -/
namespace SchemaDrift.Compare

/-- Whether clients that read a field of the old type can read the new one. -/
def outputSafe : TypeRef → TypeRef → Bool
  | .named old, .named new => old == new
  | .named old, .nonNull new => outputSafe (.named old) new
  | .named _, .list _ => false
  | .list old, .list new => outputSafe old new
  | .list old, .nonNull new => outputSafe (.list old) new
  | .list _, .named _ => false
  | .nonNull old, .nonNull new => outputSafe old new
  | .nonNull _, _ => false

/-- Whether clients that pass a value of the old type can pass it as the new one. -/
def inputSafe : TypeRef → TypeRef → Bool
  | .named old, .named new => old == new
  | .named _, _ => false
  | .list old, .list new => inputSafe old new
  | .list _, _ => false
  | .nonNull old, .nonNull new => inputSafe old new
  | .nonNull old, new => inputSafe old new

end SchemaDrift.Compare
