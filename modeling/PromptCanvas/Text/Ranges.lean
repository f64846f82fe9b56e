/-! # Ranges of characters

`inRanges`: membership in a table of closed ranges of code points. -/

set_option autoImplicit false

namespace PromptCanvas.Text

def inRanges (ranges : List (Nat × Nat)) (c : Char) : Bool :=
  ranges.any fun range => range.1 ≤ c.toNat && c.toNat ≤ range.2

end PromptCanvas.Text
