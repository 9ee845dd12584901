import SchemaDrift.Compare.Passes
import SchemaDrift.Sdl.Read

/-! The comparison of two schema texts. The old text is read first, so its error is the answer where
both have one. -/
namespace SchemaDrift.Compare

def compareTexts (old new : String) (options : Options) : Except Sdl.SchemaError ChangeSet := do
  let before ← Sdl.readSchema old
  let after ← Sdl.readSchema new
  .ok (compare before after options)

end SchemaDrift.Compare
