-- SUMMARY: Strings that are written as JSON read back as they were.
import ZonePool.Json.Token
import ZonePool.Json.Writer

/-!
# Quoted strings

Writing escapes the characters that cannot stand in a string as they are, and
reading undoes one escape at a time. So a quoted string reads back as itself,
whatever follows it, and no two strings are quoted alike.
-/

namespace ZonePool.Json

variable {rest : List Char}

/-! ## One character -/

@[simp] theorem StringBody.settle_none (b : StringBody) : b.settle none = b := rfl

theorem hex4?_hexDigit {n : Nat} (h : n < 0x20) :
    hex4? '0' '0' (hexDigit (n / 16)) (hexDigit (n % 16)) = some n := by
  decide +revert

theorem stringBody?_letter {e c : Char} (he : e ≠ 'u') (hc : escape? e = some c) :
    stringBody? none ('\\' :: e :: rest) = (stringBody? none rest).map (·.cons c) := by
  simp [stringBody?, he, hc]

theorem stringBody?_control {c : Char} (h : c.toNat < 0x20) :
    stringBody? none
        (['\\', 'u', '0', '0', hexDigit (c.toNat / 16), hexDigit (c.toNat % 16)] ++ rest) =
      (stringBody? none rest).map (·.cons c) := by
  have hhigh : ¬(0xD800 ≤ c.toNat ∧ c.toNat < 0xDC00) := by omega
  have hlow : ¬(0xDC00 ≤ c.toNat ∧ c.toNat < 0xE000) := by omega
  simp [stringBody?, hex4?_hexDigit h, isHighSurrogate, isLowSurrogate, hhigh, hlow]

theorem stringBody?_plain {c : Char} (hquote : c ≠ '"') (hescape : c ≠ '\\')
    (h : ¬c.toNat < 0x20) :
    stringBody? none (c :: rest) = (stringBody? none rest).map (·.cons c) := by
  simp [stringBody?, hescape, h]

/-- A character as it stands in a string reads back as itself. -/
theorem stringBody?_quoteChar (c : Char) :
    stringBody? none (quoteChar c ++ rest) = (stringBody? none rest).map (·.cons c) := by
  unfold quoteChar
  split
  · next h =>
    subst h
    exact stringBody?_letter (by decide) rfl
  next hquote =>
  split
  · next h =>
    subst h
    exact stringBody?_letter (by decide) rfl
  next hescape =>
  split
  · next h =>
    subst h
    exact stringBody?_letter (by decide) rfl
  split
  · next h =>
    subst h
    exact stringBody?_letter (by decide) rfl
  split
  · next h =>
    subst h
    exact stringBody?_letter (by decide) rfl
  split
  · next h =>
    subst h
    exact stringBody?_letter (by decide) rfl
  split
  · next h =>
    subst h
    exact stringBody?_letter (by decide) rfl
  split
  · next h => exact stringBody?_control h
  · next h => exact stringBody?_plain hquote hescape h

/-! ## Whole strings -/

theorem stringBody?_flatMap_quoteChar (cs rest : List Char) :
    stringBody? none (cs.flatMap quoteChar ++ '"' :: rest) = some (some cs, rest) := by
  induction cs with
  | nil => simp [stringBody?]
  | cons c cs ih =>
    rw [List.flatMap_cons, List.append_assoc, stringBody?_quoteChar, ih]
    rfl

/-- A quoted string reads back, and reading stops right behind it. -/
theorem scalar?_quote (s : String) (rest : List Char) :
    scalar? (quote s ++ rest) = some (.text s, rest) := by
  have hbody := stringBody?_flatMap_quoteChar s.toList rest
  simp [quote, scalar?, hbody, stringOf]

theorem quote_injective {s t : String} (h : quote s = quote t) : s = t := by
  have hs := scalar?_quote s []
  rw [h, scalar?_quote] at hs
  simpa using hs.symm

end ZonePool.Json
