/-!
The white space of Unicode.
-/

namespace TypedScheme

namespace Text

/-- The characters with the property `White_Space`. -/
def isWhiteSpace (c : Char) : Bool :=
  let n := c.toNat
  (9 ≤ n && n ≤ 13) || n = 0x20 || n = 0x85 || n = 0xa0 || n = 0x1680
    || (0x2000 ≤ n && n ≤ 0x200a) || n = 0x2028 || n = 0x2029 || n = 0x202f || n = 0x205f
    || n = 0x3000

/-- A text without the white space at both ends. -/
def trim (s : String) : String :=
  let cs := s.toList.dropWhile isWhiteSpace
  String.ofList (cs.reverse.dropWhile isWhiteSpace).reverse

end Text

end TypedScheme
