import HindleyMilner.Text.Ranges

/-! White space. -/

set_option autoImplicit false

namespace HindleyMilner.Text

/-- The code points that separate words: the ASCII controls from tab to carriage return, the
space, the next-line control, and the spaces and separators of other scripts. -/
def blankRanges : Ranges :=
  [(0x9, 0xD), (0x20, 0x20), (0x85, 0x85), (0xA0, 0xA0), (0x1680, 0x1680), (0x2000, 0x200A),
   (0x2028, 0x2029), (0x202F, 0x202F), (0x205F, 0x205F), (0x3000, 0x3000)]

def isBlank (c : Char) : Bool := blankRanges.covers c.toNat

end HindleyMilner.Text
