-- SUMMARY: Percent-encoding of octets.
import ZonePool.Text.Decimal
import ZonePool.Text.Utf8

/-!
# Percent-encoding

A character outside ASCII is written as its octets, each as a percent sign and
two hexadecimal digits; which ASCII characters are written so depends on the
part of a URL they stand in, and each part has its set here.
-/

namespace ZonePool.Net.Percent

open Text (digit?)

/-! ## Sets -/

/-- The control characters. -/
def isControl (c : Char) : Bool :=
  c.toNat < 0x20 || c.toNat == 0x7F

/-- The characters that a path may not hold. -/
def isPathUnsafe (c : Char) : Bool :=
  isControl c || " \"<>`#?\x7b\x7d^".toList.contains c

/-- The characters that the query of a web address may not hold. -/
def isQueryUnsafe (c : Char) : Bool :=
  isControl c || " \"<>#'".toList.contains c

/-! ## Encoding -/

/-- A hexadecimal digit in upper case. -/
def hexDigit (n : Nat) : Char :=
  if n < 10 then Char.ofNat (48 + n) else Char.ofNat (55 + n)

/-- An octet as a percent sign and two digits. -/
def octet (b : UInt8) : List Char :=
  ['%', hexDigit (b.toNat / 16), hexDigit (b.toNat % 16)]

/-- A character, encoded when it is outside ASCII or in the set. -/
def encodeChar (set : Char → Bool) (c : Char) : List Char :=
  if c.toNat < 0x80 ∧ set c = false then [c]
  else (String.utf8EncodeChar c).flatMap octet

def encode (set : Char → Bool) (cs : List Char) : List Char :=
  cs.flatMap (encodeChar set)

/-! ## Decoding -/

/-- The octets of a text, with every percent sign and two digits for the octet they write. -/
def decode : List Char → List UInt8
  | [] => []
  | '%' :: high :: low :: rest =>
    match digit? 16 high, digit? 16 low with
    | some h, some l => UInt8.ofNat (h * 16 + l) :: decode rest
    | _, _ => String.utf8EncodeChar '%' ++ decode (high :: low :: rest)
  | c :: rest => String.utf8EncodeChar c ++ decode rest

end ZonePool.Net.Percent
