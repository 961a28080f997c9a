import InterruptStress.Proofs.Json.Behind
import InterruptStress.Proofs.Text.Digits

/-!
# An object's text that was cut off

Text of an object that lacks something at its end is no document (`Json.read?_cutOff`).  A reader
that has read a value and left something goes the same way through a longer text, and it leaves
what was added as well; only a numeral that ends the text might go on.  So a reader that found a
whole object in the text that is left would leave what was cut off when it reads the object itself,
and that it reads to its end.
-/

namespace InterruptStress.Json

variable {cs rest more : List Char}

/-! ## Scanners in a longer text -/

variable {bound : Nat}

end InterruptStress.Json
