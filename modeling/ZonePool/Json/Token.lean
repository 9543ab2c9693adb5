-- SUMMARY: The tokens of a JSON text.
import ZonePool.Document
import ZonePool.Text.Cut

/-!
# JSON tokens

A JSON text is cut into brackets, commas, colons and scalars. A string is read
escape by escape: two escapes that write a surrogate pair give one character,
and a string with half a pair is a scalar that stands for no text.
-/

namespace ZonePool.Json

open Text (digit?)

inductive Token where
  | listBegin
  | listEnd
  | recordBegin
  | recordEnd
  | comma
  | colon
  | scalar (value : Document)

/-! ## Strings -/

/-- The character of a one-letter escape. -/
def escape? : Char → Option Char
  | '"' => some '"'
  | '\\' => some '\\'
  | '/' => some '/'
  | 'b' => some '\x08'
  | 'f' => some '\x0c'
  | 'n' => some '\n'
  | 'r' => some '\r'
  | 't' => some '\t'
  | _ => none

/-- The value of four hexadecimal digits. -/
def hex4? (a b c d : Char) : Option Nat := do
  let a ← digit? 16 a
  let b ← digit? 16 b
  let c ← digit? 16 c
  let d ← digit? 16 d
  return ((a * 16 + b) * 16 + c) * 16 + d

/-- The first unit of a surrogate pair. -/
def isHighSurrogate (n : Nat) : Bool := 0xD800 ≤ n && n < 0xDC00

/-- The second unit of a surrogate pair. -/
def isLowSurrogate (n : Nat) : Bool := 0xDC00 ≤ n && n < 0xE000

/-- The character that a surrogate pair writes. -/
def joinSurrogates (high low : Nat) : Char :=
  Char.ofNat (0x10000 + (high - 0xD800) * 0x400 + (low - 0xDC00))

/-- A string body and what follows it; the body is `none` where it holds half a surrogate pair. -/
abbrev StringBody := Option (List Char) × List Char

/-- Put a character before a body. -/
def StringBody.cons (c : Char) (b : StringBody) : StringBody :=
  (b.1.map (c :: ·), b.2)

/-- Note half a pair before a body. -/
def StringBody.spoil (b : StringBody) : StringBody :=
  (none, b.2)

/-- Spoil a body before which the first half of a pair was left without its second. -/
def StringBody.settle (pending : Option Nat) (b : StringBody) : StringBody :=
  if pending.isSome then b.spoil else b

@[simp] theorem StringBody.snd_cons (c : Char) (b : StringBody) : (b.cons c).2 = b.2 := rfl

@[simp] theorem StringBody.snd_spoil (b : StringBody) : b.spoil.2 = b.2 := rfl

@[simp] theorem StringBody.snd_settle (pending : Option Nat) (b : StringBody) :
    (b.settle pending).2 = b.2 := by
  unfold settle
  split <;> rfl

/-- Read the rest of a string, up to and with its closing quote; `pending` is the first half of a
surrogate pair when an escape just before wrote one. -/
def stringBody? : Option Nat → List Char → Option StringBody
  | _, [] => none
  | pending, '"' :: rest => some (StringBody.settle pending (some [], rest))
  | pending, '\\' :: 'u' :: a :: b :: c :: d :: rest =>
    match hex4? a b c d with
    | none => none
    | some unit =>
      if isHighSurrogate unit then (stringBody? (some unit) rest).map (·.settle pending)
      else if isLowSurrogate unit then
        match pending with
        | some high => (stringBody? none rest).map (·.cons (joinSurrogates high unit))
        | none => (stringBody? none rest).map (·.spoil)
      else (stringBody? none rest).map fun b => (b.cons (Char.ofNat unit)).settle pending
  | pending, '\\' :: e :: rest =>
    match escape? e with
    | none => none
    | some c => (stringBody? none rest).map fun b => (b.cons c).settle pending
  | pending, c :: rest =>
    if c.toNat < 0x20 then none
    else (stringBody? none rest).map fun b => (b.cons c).settle pending

theorem length_of_stringBody? {pending : Option Nat} {cs : List Char} {b : StringBody}
    (h : stringBody? pending cs = some b) : b.2.length < cs.length := by
  fun_induction stringBody? pending cs generalizing b <;>
    simp only [Option.map_eq_some_iff, reduceCtorEq, Option.some.injEq] at h <;>
    grind [StringBody.snd_cons, StringBody.snd_spoil, StringBody.snd_settle]

/-! ## Numbers -/

/-- A run of digits and what follows it. -/
def spanDigits (cs : List Char) : List Char × List Char :=
  Text.cut Char.isDigit cs

/-- The integer part of a number: a lone zero, or digits that do not begin with one. -/
def spanInteger? (cs : List Char) : Option (List Char × List Char) :=
  match cs with
  | '0' :: rest => some (['0'], rest)
  | _ =>
    match spanDigits cs with
    | ([], _) => none
    | found => some found

theorem length_of_spanInteger? {cs : List Char} {r : List Char × List Char}
    (h : spanInteger? cs = some r) : r.2.length < cs.length := by
  unfold spanInteger? at h
  split at h
  · cases h
    exact Nat.lt_succ_self _
  · split at h
    · cases h
    · rename_i found hne
      cases h
      exact Text.length_snd_cut_lt fun he => hne _ (Prod.ext he rfl)

/-- A fraction, if there is one. -/
def spanFraction? (cs : List Char) : Option (List Char × List Char) :=
  match cs with
  | '.' :: rest =>
    match spanDigits rest with
    | ([], _) => none
    | (digits, rest) => some ('.' :: digits, rest)
  | _ => some ([], cs)

theorem length_of_spanFraction? {cs : List Char} {r : List Char × List Char}
    (h : spanFraction? cs = some r) : r.2.length ≤ cs.length := by
  have hle := Text.length_snd_cut_le Char.isDigit
  unfold spanFraction? at h
  split at h <;> grind [spanDigits]

/-- An exponent, if there is one. -/
def spanExponent? (cs : List Char) : Option (List Char × List Char) :=
  match cs with
  | [] => some ([], [])
  | e :: rest =>
    if e = 'e' ∨ e = 'E' then
      let (sign, rest) :=
        match rest with
        | '+' :: rest => (['+'], rest)
        | '-' :: rest => (['-'], rest)
        | _ => ([], rest)
      match spanDigits rest with
      | ([], _) => none
      | (digits, rest) => some (e :: sign ++ digits, rest)
    else some ([], cs)

theorem length_of_spanExponent? {cs : List Char} {r : List Char × List Char}
    (h : spanExponent? cs = some r) : r.2.length ≤ cs.length := by
  have hle := Text.length_snd_cut_le Char.isDigit
  unfold spanExponent? at h
  split at h <;> grind [spanDigits]

/-- A minus sign, if there is one. -/
def spanMinus : List Char → List Char × List Char
  | '-' :: rest => (['-'], rest)
  | cs => ([], cs)

theorem length_spanMinus_le (cs : List Char) : (spanMinus cs).2.length ≤ cs.length := by
  unfold spanMinus
  split <;> simp

/-- The number that four parts write; without sign, fraction and exponent it is a whole one. -/
def numberOf? (sign integer fraction exponent : List Char) : Option Document :=
  match sign ++ fraction ++ exponent with
  | [] => (Text.readDigits? 10 integer).map .whole
  | _ => some (.number (String.ofList (sign ++ integer ++ fraction ++ exponent)))

/-- A number and what follows it. -/
def number? (cs : List Char) : Option (Document × List Char) := do
  let (sign, cs) := spanMinus cs
  let (integer, cs) ← spanInteger? cs
  let (fraction, cs) ← spanFraction? cs
  let (exponent, cs) ← spanExponent? cs
  let d ← numberOf? sign integer fraction exponent
  return (d, cs)

theorem length_of_number? {cs : List Char} {r : Document × List Char}
    (h : number? cs = some r) : r.2.length < cs.length := by
  simp only [number?, Option.bind_eq_bind, Option.bind_eq_some_iff] at h
  obtain ⟨integer, hi, fraction, hf, exponent, he, d, -, h⟩ := h
  cases h
  have hm := length_spanMinus_le cs
  have hi := length_of_spanInteger? hi
  have hf := length_of_spanFraction? hf
  have he := length_of_spanExponent? he
  show exponent.2.length < cs.length
  omega

/-! ## Tokens -/

def isSpace (c : Char) : Bool :=
  c == ' ' || c == '\t' || c == '\n' || c == '\r'

/-- The token of a character that is one by itself. -/
def punctuation? : Char → Option Token
  | '[' => some .listBegin
  | ']' => some .listEnd
  | '{' => some .recordBegin
  | '}' => some .recordEnd
  | ',' => some .comma
  | ':' => some .colon
  | _ => none

/-- The string with a given body. -/
def stringOf : Option (List Char) → Document
  | some body => .text (String.ofList body)
  | none => .unpaired

/-- The scalar at the front of a text, and what follows it. -/
def scalar? : List Char → Option (Document × List Char)
  | 'n' :: 'u' :: 'l' :: 'l' :: rest => some (.null, rest)
  | 't' :: 'r' :: 'u' :: 'e' :: rest => some (.truth true, rest)
  | 'f' :: 'a' :: 'l' :: 's' :: 'e' :: rest => some (.truth false, rest)
  | '"' :: rest => (stringBody? none rest).map fun b => (stringOf b.1, b.2)
  | cs => number? cs

theorem length_of_scalar? {cs : List Char} {r : Document × List Char}
    (h : scalar? cs = some r) : r.2.length < cs.length := by
  unfold scalar? at h
  split at h
  · grind
  · grind
  · grind
  · obtain ⟨b, hb, rfl⟩ := Option.map_eq_some_iff.1 h
    exact Nat.lt_succ_of_lt (length_of_stringBody? hb)
  · exact length_of_number? h

/-- Cut a text into tokens. -/
def tokens? : List Char → Option (List Token)
  | [] => some []
  | c :: cs =>
    if isSpace c then tokens? cs
    else
      match punctuation? c with
      | some t => (tokens? cs).map (t :: ·)
      | none =>
        match h : scalar? (c :: cs) with
        | none => none
        | some (value, rest) =>
          have : rest.length < (c :: cs).length := length_of_scalar? h
          (tokens? rest).map (.scalar value :: ·)
termination_by cs => cs.length
decreasing_by
  · exact Nat.lt_succ_self _
  · exact Nat.lt_succ_self _
  · exact this

end ZonePool.Json
