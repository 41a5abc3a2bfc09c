/-!
# Blank text

White space is the Unicode property `White_Space`: twenty-five characters, among them the ASCII
blanks, the next-line control, the no-break spaces and the ideographic space.
-/

namespace PanelLayout.Text

/-- The code points with the property `White_Space`. -/
def isSpaceCode (n : Nat) : Bool :=
  (0x09 ≤ n && n ≤ 0x0D) || n = 0x20 || n = 0x85 || n = 0xA0 || n = 0x1680 ||
  (0x2000 ≤ n && n ≤ 0x200A) || n = 0x2028 || n = 0x2029 || n = 0x202F || n = 0x205F ||
  n = 0x3000

def isSpace (c : Char) : Bool := isSpaceCode c.toNat

def isBlank (s : String) : Bool := s.toList.all isSpace

/-- The text without the white space at either end. -/
def trim (cs : List Char) : List Char :=
  ((cs.dropWhile isSpace).reverse.dropWhile isSpace).reverse

end PanelLayout.Text
