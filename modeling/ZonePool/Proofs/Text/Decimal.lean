-- SUMMARY: Numbers that are written in decimal or hexadecimal read back, and which texts read as numbers.
import ZonePool.Text.Decimal

/-!
# Numbers

Reading adds up what the digits of a number stand for, in any base up to
sixteen. So a number reads back, and within a bound when it keeps to it. What
reads as a number, in turn, is made of digits, and its value is that of its
digits, with zeros before them or not.
-/

namespace ZonePool.Text

/-! ## Digits -/

theorem isDigit_iff {c : Char} : c.isDigit = true ↔ 48 ≤ c.toNat ∧ c.toNat ≤ 57 := by
  simp [Char.isDigit, UInt32.le_iff_toNat_le]

/-- What holds of the ten digits holds of every digit. -/
theorem of_isDigit {P : Char → Prop} (h : ∀ n ≤ 57, 48 ≤ n → P (Char.ofNat n)) {c : Char}
    (hc : c.isDigit = true) : P c := by
  obtain ⟨hlow, hhigh⟩ := isDigit_iff.1 hc
  simpa using h c.toNat hhigh hlow

/-! ## Written and read -/

theorem digit?_digitChar {base d : Nat} (hd : d < base) (hbase : base ≤ 16) :
    digit? base d.digitChar = some d := by
  have hall : ∀ base ≤ 16, ∀ d < base, digit? base d.digitChar = some d := by decide
  exact hall base hbase d hd

theorem accumulate_append (base n : Nat) (cs ds : List Char) :
    accumulate base n (cs ++ ds) = (accumulate base n cs).bind (accumulate base · ds) := by
  induction cs generalizing n with
  | nil => rfl
  | cons c cs ih =>
    rw [List.cons_append, accumulate, accumulate]
    cases digit? base c with
    | none => rfl
    | some d => exact ih _

section

variable {base : Nat} (hlow : 1 < base) (hhigh : base ≤ 16)
include hlow hhigh

theorem accumulate_toDigits (n : Nat) : accumulate base 0 (Nat.toDigits base n) = some n := by
  induction n using Nat.strongRecOn with
  | ind n ih =>
    rw [Nat.toDigits_eq_if hlow]
    split
    · next hsmall => simp [accumulate, digit?_digitChar hsmall hhigh]
    · next hlarge =>
      have hlast := digit?_digitChar (Nat.mod_lt n (Nat.zero_lt_of_lt hlow)) hhigh
      have hfront := ih (n / base) (Nat.div_lt_self (by omega) hlow)
      simp [accumulate_append, hfront, accumulate, hlast, Nat.div_add_mod]

theorem readDigits?_toDigits (n : Nat) : readDigits? base (Nat.toDigits base n) = some n := by
  have hne : (Nat.toDigits base n).isEmpty = false := by simp [Nat.toDigits_ne_nil]
  rw [readDigits?, hne]
  exact accumulate_toDigits hlow hhigh n

end

theorem isDigit_of_mem_decimal {n : Nat} {c : Char} (h : c ∈ decimal n) : c.isDigit = true :=
  Nat.isDigit_of_mem_toDigits (by decide) (by decide) h

theorem decimal_ne_nil (n : Nat) : decimal n ≠ [] :=
  Nat.toDigits_ne_nil

theorem readDigits?_decimal (n : Nat) : readDigits? 10 (decimal n) = some n :=
  readDigits?_toDigits (by decide) (by decide) n

theorem readDigits?_hexadecimal (n : Nat) : readDigits? 16 (hexadecimal n) = some n :=
  readDigits?_toDigits (by decide) (by decide) n

theorem readBelow?_decimal {limit n : Nat} (h : n < limit) : readBelow? limit (decimal n) = some n := by
  simp [readBelow?, readDigits?_decimal, h]

/-! ## What reads as a number -/

theorem isDigit_of_digit? {c : Char} (h : (digit? 10 c).isSome = true) : c.isDigit = true := by
  rw [isDigit_iff]
  simp only [digit?] at h
  grind

theorem digit?_of_accumulate {base n m : Nat} {cs : List Char} (h : accumulate base n cs = some m) :
    ∀ c ∈ cs, (digit? base c).isSome = true := by
  induction cs generalizing n with
  | nil => nofun
  | cons c cs ih =>
    rw [accumulate] at h
    split at h
    · next hdigit => exact List.forall_mem_cons.2 ⟨by rw [hdigit]; rfl, ih h⟩
    · cases h

theorem digit?_of_readDigits? {base n : Nat} {cs : List Char} (h : readDigits? base cs = some n) :
    cs ≠ [] ∧ ∀ c ∈ cs, (digit? base c).isSome = true := by
  rw [readDigits?] at h
  split at h
  · cases h
  · next hne => exact ⟨by simpa using hne, digit?_of_accumulate h⟩

theorem readDigits?_of_readBelow? {limit n : Nat} {cs : List Char} (h : readBelow? limit cs = some n) :
    readDigits? 10 cs = some n := by
  unfold readBelow? at h
  split at h
  · next m hm =>
    split at h
    · rwa [← h]
    · cases h
  · cases h

theorem isDigit_of_readDigits? {n : Nat} {cs : List Char} (h : readDigits? 10 cs = some n) :
    cs ≠ [] ∧ ∀ c ∈ cs, c.isDigit = true :=
  (digit?_of_readDigits? h).imp_right fun hdigits c hc => isDigit_of_digit? (hdigits c hc)

/-! ## The value of digits -/

/-- Digits of a number in decimal, maybe after zeros. -/
structure Numeral (digits : List Char) (n : Nat) : Prop where
  ne_nil : digits ≠ []
  isDigit : ∀ c ∈ digits, c.isDigit = true
  value : Nat.ofDigitChars 10 digits 0 = n

theorem digit?_of_isDigit {c : Char} (h : c.isDigit = true) : digit? 10 c = some (c.toNat - 48) := by
  rw [isDigit_iff] at h
  simp only [digit?]
  grind

theorem accumulate_eq {digits : List Char} (h : ∀ c ∈ digits, c.isDigit = true) (n : Nat) :
    accumulate 10 n digits = some (Nat.ofDigitChars 10 digits n) := by
  induction digits generalizing n with
  | nil => rfl
  | cons c digits ih =>
    rw [List.forall_mem_cons] at h
    rw [accumulate, digit?_of_isDigit h.1, Nat.ofDigitChars_cons]
    exact ih h.2 _

/-- Reading takes all digits that there may be, however large their number. -/
theorem readDigits?_eq_some_iff {digits : List Char} {n : Nat} :
    readDigits? 10 digits = some n ↔ Numeral digits n := by
  have hread : digits ≠ [] → (∀ c ∈ digits, c.isDigit = true) →
      readDigits? 10 digits = some (Nat.ofDigitChars 10 digits 0) := by
    intro hne hdigits
    rw [readDigits?, if_neg (by simpa using hne), accumulate_eq hdigits]
  constructor
  · intro h
    obtain ⟨hne, hdigits⟩ := isDigit_of_readDigits? h
    exact ⟨hne, hdigits, Option.some.inj ((hread hne hdigits).symm.trans h)⟩
  · rintro ⟨hne, hdigits, rfl⟩
    exact hread hne hdigits

/-! ## Numbers of 64 bits -/

theorem readBelow?_eq_some_iff {limit n : Nat} {cs : List Char} :
    readBelow? limit cs = some n ↔ readDigits? 10 cs = some n ∧ n < limit := by
  refine ⟨fun h => ⟨readDigits?_of_readBelow? h, lt_of_readBelow? h⟩, fun ⟨hdigits, hlt⟩ => ?_⟩
  rw [readBelow?, hdigits]
  exact if_pos hlt

/-- The text is a number of 64 bits in decimal, maybe after a plus sign. -/
def SpellsWord (text : String) (n : Nat) : Prop :=
  ∃ digits, (text.toList = digits ∨ text.toList = '+' :: digits) ∧
    readDigits? 10 digits = some n ∧ n < wordLimit

theorem readWord?_eq_some_iff {text : String} {n : Nat} :
    readWord? text = some n ↔ SpellsWord text n := by
  rw [readWord?]
  split
  · next digits htext =>
    have hplus : readDigits? 10 ('+' :: digits) = none := rfl
    rw [readBelow?_eq_some_iff]
    constructor
    · exact fun h => ⟨digits, .inr htext, h⟩
    · rintro ⟨digits', heq | heq, h⟩
      · rw [← heq, htext, hplus] at h
        cases h.1
      · rw [htext, List.cons.injEq] at heq
        rwa [heq.2]
  · next hplus =>
    rw [readBelow?_eq_some_iff]
    constructor
    · exact fun h => ⟨text.toList, .inl rfl, h⟩
    · rintro ⟨digits, heq | heq, h⟩
      · rwa [heq]
      · exact absurd heq (hplus digits)

/-- The text is a number in decimal, maybe after a plus sign. -/
def SpellsNumber (text : String) (n : Nat) : Prop :=
  ∃ digits, (text.toList = digits ∨ text.toList = '+' :: digits) ∧ Numeral digits n

theorem spellsWord_iff {text : String} {n : Nat} :
    SpellsWord text n ↔ SpellsNumber text n ∧ n < wordLimit := by
  simp only [SpellsWord, SpellsNumber, readDigits?_eq_some_iff]
  grind

end ZonePool.Text
