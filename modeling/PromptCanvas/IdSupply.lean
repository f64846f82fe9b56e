import PromptCanvas.Text.Hex

/-! # Fresh identifiers

`IdSupply`: how many identifiers of each kind have been given out.  Drawing
from a supply returns the supply that follows, so two drawings from one run
never give the same identifier. -/

set_option autoImplicit false

namespace PromptCanvas

structure IdSupply where
  items : Nat
  nodes : Nat
  deriving DecidableEq, Repr

namespace IdSupply

def start : IdSupply := ⟨0, 0⟩

def itemId (n : Nat) : String := String.ofList ("li-".toList ++ Text.hexText 12 n)

def nodeId (n : Nat) : String := String.ofList ("n-".toList ++ Text.hexText 8 n)

def drawItem (s : IdSupply) : String × IdSupply := (itemId s.items, { s with items := s.items + 1 })

def drawNode (s : IdSupply) : String × IdSupply := (nodeId s.nodes, { s with nodes := s.nodes + 1 })

end IdSupply

end PromptCanvas
