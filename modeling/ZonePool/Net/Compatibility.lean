-- SUMMARY: Characters that a host name may use for ASCII digits, letters and dots.

/-!
# Compatibility forms in host names

Host names are compared in one form: a full-width, circled or otherwise styled
digit stands for the plain one, three further full stops part labels, and some
characters stand for nothing. The tables hold the characters that come to be
digits, the letters of hexadecimal numbers, dots or nothing, which are all that
can make a host name a number.
-/

namespace ZonePool.Net.Compatibility

/-- First and last character of a range, and the plain character that the first one stands for;
those after it stand for the ones after that. -/
def styled : List (Nat × Nat × Char) := [
  (0xAA, 0xAA, 'a'), (0xB2, 0xB3, '2'), (0xB9, 0xB9, '1'), (0x2E3, 0x2E3, 'x'),
  (0x1D2C, 0x1D2C, 'a'), (0x1D2E, 0x1D2E, 'b'), (0x1D30, 0x1D31, 'd'), (0x1D43, 0x1D43, 'a'),
  (0x1D47, 0x1D47, 'b'), (0x1D48, 0x1D49, 'd'), (0x1D9C, 0x1D9C, 'c'), (0x1DA0, 0x1DA0, 'f'),
  (0x2070, 0x2070, '0'), (0x2074, 0x2079, '4'), (0x2080, 0x2089, '0'), (0x2090, 0x2090, 'a'),
  (0x2091, 0x2091, 'e'), (0x2093, 0x2093, 'x'), (0x2102, 0x2102, 'c'), (0x212C, 0x212D, 'b'),
  (0x212F, 0x212F, 'e'), (0x2130, 0x2131, 'e'), (0x2145, 0x2145, 'd'), (0x2146, 0x2147, 'd'),
  (0x2169, 0x2169, 'x'), (0x216D, 0x216E, 'c'), (0x2179, 0x2179, 'x'), (0x217D, 0x217E, 'c'),
  (0x2460, 0x2468, '1'), (0x24B6, 0x24BB, 'a'), (0x24CD, 0x24CD, 'x'), (0x24D0, 0x24D5, 'a'),
  (0x24E7, 0x24E7, 'x'), (0x24EA, 0x24EA, '0'), (0xA7F2, 0xA7F2, 'c'), (0xA7F3, 0xA7F3, 'f'),
  (0xFF10, 0xFF19, '0'), (0xFF21, 0xFF26, 'a'), (0xFF38, 0xFF38, 'x'), (0xFF41, 0xFF46, 'a'),
  (0xFF58, 0xFF58, 'x'), (0x1D400, 0x1D405, 'a'), (0x1D417, 0x1D417, 'x'), (0x1D41A, 0x1D41F, 'a'),
  (0x1D431, 0x1D431, 'x'), (0x1D434, 0x1D439, 'a'), (0x1D44B, 0x1D44B, 'x'),
  (0x1D44E, 0x1D453, 'a'), (0x1D465, 0x1D465, 'x'), (0x1D468, 0x1D46D, 'a'),
  (0x1D47F, 0x1D47F, 'x'), (0x1D482, 0x1D487, 'a'), (0x1D499, 0x1D499, 'x'),
  (0x1D49C, 0x1D49C, 'a'), (0x1D49E, 0x1D49F, 'c'), (0x1D4B3, 0x1D4B3, 'x'),
  (0x1D4B6, 0x1D4B9, 'a'), (0x1D4BB, 0x1D4BB, 'f'), (0x1D4CD, 0x1D4CD, 'x'),
  (0x1D4D0, 0x1D4D5, 'a'), (0x1D4E7, 0x1D4E7, 'x'), (0x1D4EA, 0x1D4EF, 'a'),
  (0x1D501, 0x1D501, 'x'), (0x1D504, 0x1D505, 'a'), (0x1D507, 0x1D509, 'd'),
  (0x1D51B, 0x1D51B, 'x'), (0x1D51E, 0x1D523, 'a'), (0x1D535, 0x1D535, 'x'),
  (0x1D538, 0x1D539, 'a'), (0x1D53B, 0x1D53D, 'd'), (0x1D54F, 0x1D54F, 'x'),
  (0x1D552, 0x1D557, 'a'), (0x1D569, 0x1D569, 'x'), (0x1D56C, 0x1D571, 'a'),
  (0x1D583, 0x1D583, 'x'), (0x1D586, 0x1D58B, 'a'), (0x1D59D, 0x1D59D, 'x'),
  (0x1D5A0, 0x1D5A5, 'a'), (0x1D5B7, 0x1D5B7, 'x'), (0x1D5BA, 0x1D5BF, 'a'),
  (0x1D5D1, 0x1D5D1, 'x'), (0x1D5D4, 0x1D5D9, 'a'), (0x1D5EB, 0x1D5EB, 'x'),
  (0x1D5EE, 0x1D5F3, 'a'), (0x1D605, 0x1D605, 'x'), (0x1D608, 0x1D60D, 'a'),
  (0x1D61F, 0x1D61F, 'x'), (0x1D622, 0x1D627, 'a'), (0x1D639, 0x1D639, 'x'),
  (0x1D63C, 0x1D641, 'a'), (0x1D653, 0x1D653, 'x'), (0x1D656, 0x1D65B, 'a'),
  (0x1D66D, 0x1D66D, 'x'), (0x1D670, 0x1D675, 'a'), (0x1D687, 0x1D687, 'x'),
  (0x1D68A, 0x1D68F, 'a'), (0x1D6A1, 0x1D6A1, 'x'), (0x1D7CE, 0x1D7D7, '0'),
  (0x1D7D8, 0x1D7E1, '0'), (0x1D7E2, 0x1D7EB, '0'), (0x1D7EC, 0x1D7F5, '0'),
  (0x1D7F6, 0x1D7FF, '0'), (0x1F12B, 0x1F12B, 'c'), (0x1F130, 0x1F135, 'a'),
  (0x1F147, 0x1F147, 'x'), (0x1FBF0, 0x1FBF9, '0')]

/-- First and last character of a range, and the number from ten on that the first one stands for. -/
def enclosed : List (Nat × Nat × Nat) := [
  (0x2469, 0x2473, 10), (0x3251, 0x325F, 21), (0x32B1, 0x32BF, 36)]

/-- Characters that stand for more than one letter. -/
def ligatures : List (Nat × String) := [
  (0x213B, "fax"), (0x3372, "da"), (0x33C4, "cc"), (0x33C5, "cd"), (0x33C8, "db"), (0xFB00, "ff"),
  (0x1F12D, "cd")]

/-- Further full stops. -/
def stops : List Nat := [0x3002, 0xFF0E, 0xFF61]

/-- First and last character of the ranges that stand for nothing. -/
def ignored : List (Nat × Nat) := [
  (0xAD, 0xAD), (0x34F, 0x34F), (0x180B, 0x180D), (0x180F, 0x180F), (0x200B, 0x200B),
  (0x2060, 0x2060), (0x2064, 0x2064), (0xFE00, 0xFE0F), (0xFEFF, 0xFEFF), (0x1BCA0, 0x1BCA3),
  (0xE0100, 0xE01EF)]

/-- Whether a number lies in a range. -/
def inRange (n first last : Nat) : Bool :=
  first ≤ n && n ≤ last

/-- The plain characters that a character stands for; ASCII stands for itself. -/
def plain? (c : Char) : Option (List Char) :=
  let n := c.toNat
  if n < 0x80 then some [c]
  else if stops.contains n then some ['.']
  else if ignored.any fun r => inRange n r.1 r.2 then some []
  else
    match styled.find? fun r => inRange n r.1 r.2.1 with
    | some (first, _, image) => some [Char.ofNat (image.toNat + (n - first))]
    | none =>
      match enclosed.find? fun r => inRange n r.1 r.2.1 with
      | some (first, _, image) => some (Nat.toDigits 10 (image + (n - first)))
      | none => (ligatures.find? (·.1 == n)).map (·.2.toList)

end ZonePool.Net.Compatibility
