import TheAuth.Policy.Boundary
import TheAuth.Rar.Details

/-!
# What may follow a document

Both parsers ask the decoder for more, and it says that there is none before a closing bracket.
-/

set_option autoImplicit false

namespace TheAuth.Policy

open Go Library.Result Option

variable {data rest : Bytes} {value : Json Bytes}

end TheAuth.Policy
