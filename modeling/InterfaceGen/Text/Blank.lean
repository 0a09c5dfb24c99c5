import InterfaceGen.Text.Basic
import InterfaceGen.Text.Run

/-! White space as Unicode defines it (property White_Space, version 17.0), and the two operations
that rest on it: trimming, and the tokens between the blanks of a line. -/

namespace InterfaceGen.Text

open Run

/-- The property White_Space. -/
def blankRuns : List Run :=
  [span 0x9 0xd, one 0x20, one 0x85, one 0xa0, one 0x1680, span 0x2000 0x200a, span 0x2028 0x2029,
   one 0x202f, one 0x205f, one 0x3000]

def isBlank (c : Char) : Bool := covers blankRuns c.toNat

/-- Without white space at either end. -/
def strip (t : Text) : Text := trim isBlank t

/-- The maximal pieces without white space. -/
def tokens (t : Text) : List Text := (t.splitOnP isBlank).filter (!·.isEmpty)

end InterfaceGen.Text
