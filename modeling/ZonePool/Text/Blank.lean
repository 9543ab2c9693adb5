-- SUMMARY: White space as Unicode defines it, and the trimming of texts.

/-!
# Blanks

The characters that count as white space when a setting is trimmed, or when an
address is asked whether it says anything at all. The class is the Unicode
property `White_Space`, which is larger than the class of core's
`Char.isWhitespace`.
-/

namespace ZonePool.Text

/-! ## The class -/

/-- The Unicode property `White_Space`. -/
def isBlank (c : Char) : Bool :=
  let n := c.toNat
  (0x09 ≤ n && n ≤ 0x0D) || n == 0x20 || n == 0x85 || n == 0xA0 || n == 0x1680 ||
    (0x2000 ≤ n && n ≤ 0x200A) || n == 0x2028 || n == 0x2029 || n == 0x202F || n == 0x205F ||
    n == 0x3000

/-! ## Trimming -/

/-- Cut the characters of a class off both ends. -/
def strip (p : Char → Bool) (cs : List Char) : List Char :=
  ((cs.dropWhile p).reverse.dropWhile p).reverse

/-- A text without the white space at its two ends. -/
def trim (s : String) : String :=
  String.ofList (strip isBlank s.toList)

/-- A text that is empty or white space throughout. -/
def isBlankText (s : String) : Bool :=
  s.toList.all isBlank

end ZonePool.Text
