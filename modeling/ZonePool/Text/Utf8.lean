-- SUMMARY: Octets read as UTF-8, strictly or with replacements.

/-!
# UTF-8

A sequence of octets is read by a machine that knows, inside a character, how
many octets are still due and between which bounds the next one lies. What it
yields is a list of characters and faults: a fault stands for a maximal run of
octets that starts a character and is cut short, or for one octet that starts
none. The strict reading refuses a text with a fault; the lossy reading writes
U+FFFD for it.
-/

namespace ZonePool.Text

/-! ## The machine -/

/-- Between two characters, or inside one. -/
inductive Utf8State where
  | start
  /-- `due` octets are still to come, the next one from `low` to `high`; `bits` is the value so far. -/
  | inside (due : Nat) (low high : Nat) (bits : Nat)

/-- What the first octet of a character says: a whole character, the state after it, or a fault. -/
def Utf8State.first (b : Nat) : Option (Char ⊕ Utf8State) :=
  if b < 0x80 then some (.inl (Char.ofNat b))
  else if b < 0xC2 then none
  else if b < 0xE0 then some (.inr (.inside 1 0x80 0xBF (b - 0xC0)))
  else if b < 0xF0 then
    let low := if b = 0xE0 then 0xA0 else 0x80
    let high := if b = 0xED then 0x9F else 0xBF
    some (.inr (.inside 2 low high (b - 0xE0)))
  else if b < 0xF5 then
    let low := if b = 0xF0 then 0x90 else 0x80
    let high := if b = 0xF4 then 0x8F else 0xBF
    some (.inr (.inside 3 low high (b - 0xF0)))
  else none

/-- Characters and faults in the order of their octets; a fault is `none`. -/
def utf8Units : Utf8State → List UInt8 → List (Option Char)
  | .start, [] => []
  | .inside .., [] => [none]
  | state, b :: bs =>
    let fresh : List (Option Char) :=
      match Utf8State.first b.toNat with
      | some (.inl c) => some c :: utf8Units .start bs
      | some (.inr next) => utf8Units next bs
      | none => none :: utf8Units .start bs
    match state with
    | .start => fresh
    | .inside due low high bits =>
      if low ≤ b.toNat ∧ b.toNat ≤ high then
        let bits := bits * 64 + (b.toNat - 0x80)
        match due with
        | 0 | 1 => some (Char.ofNat bits) :: utf8Units .start bs
        | due + 1 => utf8Units (.inside due 0x80 0xBF bits) bs
      else none :: fresh

/-! ## The two readings -/

/-- The text that the octets encode, or `none` when they encode none. -/
def decodeUtf8? (bytes : List UInt8) : Option (List Char) :=
  (utf8Units .start bytes).mapM id

/-- The text with U+FFFD in place of every fault. -/
def decodeUtf8Lossy (bytes : List UInt8) : List Char :=
  (utf8Units .start bytes).map (·.getD '\uFFFD')

end ZonePool.Text
