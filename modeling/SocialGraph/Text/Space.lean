/-!
# White space

The characters with the Unicode property White_Space: the ASCII blanks from tab to carriage
return, the space, and a few dozen others such as the no-break space and the ideographic space.
A text is blank when it has no other character, and trimming a text takes the white space off
both its ends.
-/

namespace SocialGraph.Text

/-- Whether a character has the Unicode property White_Space. -/
def isWhite (c : Char) : Bool :=
  let n := c.toNat
  (0x09 ≤ n && n ≤ 0x0d) || n == 0x20 || n == 0x85 || n == 0xa0 || n == 0x1680 ||
    (0x2000 ≤ n && n ≤ 0x200a) || n == 0x2028 || n == 0x2029 || n == 0x202f || n == 0x205f ||
    n == 0x3000

/-- Whether a text holds only white space. -/
def isBlank (s : String) : Bool := s.toList.all isWhite

/-- The text without the white space at its start and at its end. -/
def trim (s : String) : String :=
  String.ofList ((s.toList.dropWhile isWhite).reverse.dropWhile isWhite).reverse

end SocialGraph.Text
