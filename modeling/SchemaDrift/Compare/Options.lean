import SchemaDrift.Schema.Model

/-! What a comparison may be told, and the pairs of types that it looks at: a type of the old model
and the type of its name in the new one, in old declaration order. -/
namespace SchemaDrift.Compare

structure Options where
  extended : Bool
  deprecatedMarker : String
  requiredMarker : String
  deriving DecidableEq, Repr

def Options.standard : Options := ⟨false, SchemaDrift.deprecatedMarker, SchemaDrift.requiredMarker⟩

def Options.isDeprecated (o : Options) (directives : List AppliedDirective) : Bool :=
  hasMarker directives o.deprecatedMarker

def Options.isMarkedRequired (o : Options) (directives : List AppliedDirective) : Bool :=
  hasMarker directives o.requiredMarker

def typePairs (old new : Model) : List (TypeDef × TypeDef) :=
  old.typeList.filterMap fun t => (new.type? t.name).map fun u => (t, u)

def shapes? (old new : TypeDef) : Option (ObjectShape × ObjectShape) :=
  match old.body, new.body with
  | .object o, .object n => some (o, n)
  | .interface o, .interface n => some (o, n)
  | _, _ => none

def onShapes {α : Type} (changes : TypeDef → TypeDef → ObjectShape → ObjectShape → List α)
    (old new : TypeDef) : List α :=
  match shapes? old new with
  | some (os, ns) => changes old new os ns
  | none => []

def overPairs {α : Type} (old new : Model) (changes : TypeDef → TypeDef → List α) : List α :=
  (typePairs old new).flatMap fun (o, n) => changes o n

def inTicks (s : String) : String := "`" ++ s ++ "`"

def qualified (owner member : String) : String := owner ++ "." ++ member

end SchemaDrift.Compare
