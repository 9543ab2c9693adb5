-- SUMMARY: Unsigned numbers written in decimal.

/-!
# Decimal numbers

Reading and writing natural numbers in decimal. A reader takes a whole text:
at least one ASCII digit, any number of leading zeros, and nothing else. Bounds
are checked on the value, so no accumulator can wrap.
-/

namespace ZonePool.Text

/-! ## Digits -/

/-- The value of a digit in a base up to sixteen. -/
def digit? (base : Nat) (c : Char) : Option Nat :=
  let n := c.toNat
  let v :=
    if 48 ≤ n && n ≤ 57 then n - 48
    else if 97 ≤ n && n ≤ 102 then n - 87
    else if 65 ≤ n && n ≤ 70 then n - 55
    else 16
  if v < base then some v else none

/-- The number that a run of digits writes, or `none` at the first character that is no digit. -/
def accumulate (base : Nat) : Nat → List Char → Option Nat
  | n, [] => some n
  | n, c :: cs =>
    match digit? base c with
    | some d => accumulate base (base * n + d) cs
    | none => none

/-- Read a non-empty run of digits. -/
def readDigits? (base : Nat) (cs : List Char) : Option Nat :=
  if cs.isEmpty then none else accumulate base 0 cs

@[simp] theorem readDigits?_nil (base : Nat) : readDigits? base [] = none := rfl

/-! ## Numbers within bounds -/

/-- The least number that no longer fits into 64 bits. -/
def wordLimit : Nat := UInt64.size

/-- Read a decimal number below a limit. -/
def readBelow? (limit : Nat) (cs : List Char) : Option Nat :=
  match readDigits? 10 cs with
  | some n => if n < limit then some n else none
  | none => none

/-- Read a decimal number of at most 64 bits, with or without a plus sign before it. -/
def readWord? (s : String) : Option Nat :=
  match s.toList with
  | '+' :: cs => readBelow? wordLimit cs
  | cs => readBelow? wordLimit cs

theorem lt_of_readBelow? {limit n : Nat} {cs : List Char} (h : readBelow? limit cs = some n) :
    n < limit := by
  unfold readBelow? at h
  split at h
  · split at h
    · simp_all
    · cases h
  · cases h

/-! ## Writing -/

/-- The decimal digits of a number. -/
def decimal (n : Nat) : List Char :=
  Nat.toDigits 10 n

/-- The hexadecimal digits of a number, in lower case. -/
def hexadecimal (n : Nat) : List Char :=
  Nat.toDigits 16 n

end ZonePool.Text
