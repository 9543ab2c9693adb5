-- SUMMARY: The scalars of a TOML text: strings, numbers, dates and truth values.
import ZonePool.Document
import ZonePool.Text.Cut

/-!
# TOML scalars

Each reader takes the front of a text and gives back what it read and what
follows. Strings come in four kinds; numbers in four bases, with underscores
between digits; dates and times are checked but not kept, as no setting is one.
-/

namespace ZonePool.Toml

open Text (digit?)

/-! ## Characters -/

/-- Space and tab. -/
def isSpace (c : Char) : Bool :=
  c == ' ' || c == '\t'

/-- The characters that a comment may hold: the tab and all that is no control character. -/
def isPlain (c : Char) : Bool :=
  c == '\t' || (0x20 ≤ c.toNat && c.toNat ≤ 0x7E) || 0x80 ≤ c.toNat

/-- The characters that stand for themselves between double quotes. -/
def isBasic (c : Char) : Bool :=
  isPlain c && c != '"' && c != '\\'

/-- The characters that stand for themselves between single quotes. -/
def isLiteral (c : Char) : Bool :=
  isPlain c && c != '\''

def skipSpace (cs : List Char) : List Char :=
  cs.dropWhile isSpace

/-! ## Strings -/

/-- The character of a one-letter escape. -/
def escape? : Char → Option Char
  | 'b' => some '\x08'
  | 't' => some '\t'
  | 'n' => some '\n'
  | 'f' => some '\x0c'
  | 'r' => some '\r'
  | '"' => some '"'
  | '\\' => some '\\'
  | _ => none

/-- The character with a code point written in hexadecimal digits. -/
def scalarValue? (digits : List Char) : Option Char := do
  let n ← Text.readDigits? 16 digits
  if n.isValidChar then some (Char.ofNat n) else none

/-- Put characters before what a string reader reads next. -/
def joining (cs : List Char) (r : Option (List Char × List Char)) : Option (List Char × List Char) :=
  r.map fun x => (cs ++ x.1, x.2)

/-- The rest of a string between double quotes on one line. -/
def basicBody? : List Char → Option (List Char × List Char)
  | [] => none
  | '"' :: rest => some ([], rest)
  | '\\' :: 'u' :: a :: b :: c :: d :: rest =>
    match scalarValue? [a, b, c, d] with
    | some v => joining [v] (basicBody? rest)
    | none => none
  | '\\' :: 'U' :: a :: b :: c :: d :: e :: f :: g :: h :: rest =>
    match scalarValue? [a, b, c, d, e, f, g, h] with
    | some v => joining [v] (basicBody? rest)
    | none => none
  | '\\' :: e :: rest =>
    match escape? e with
    | some v => joining [v] (basicBody? rest)
    | none => none
  | c :: rest => if isBasic c then joining [c] (basicBody? rest) else none

/-- Whether a text goes on with spaces and the end of a line. -/
def endsLine (cs : List Char) : Bool :=
  match skipSpace cs with
  | '\n' :: _ => true
  | '\r' :: '\n' :: _ => true
  | _ => false

/-- The rest of a string between triple double quotes. After a backslash at the end of a line all
space is left out, `skipping` it. Up to two quotes before the closing ones belong to the string. -/
def multiBasicBody? : Bool → List Char → Option (List Char × List Char)
  | _, [] => none
  | true, ' ' :: rest => multiBasicBody? true rest
  | true, '\t' :: rest => multiBasicBody? true rest
  | true, '\n' :: rest => multiBasicBody? true rest
  | true, '\r' :: '\n' :: rest => multiBasicBody? true rest
  | _, '"' :: '"' :: '"' :: '"' :: '"' :: rest => some (['"', '"'], rest)
  | _, '"' :: '"' :: '"' :: '"' :: rest => some (['"'], rest)
  | _, '"' :: '"' :: '"' :: rest => some ([], rest)
  | _, '"' :: rest => joining ['"'] (multiBasicBody? false rest)
  | _, '\r' :: '\n' :: rest => joining ['\n'] (multiBasicBody? false rest)
  | _, '\n' :: rest => joining ['\n'] (multiBasicBody? false rest)
  | _, '\\' :: 'u' :: a :: b :: c :: d :: rest =>
    match scalarValue? [a, b, c, d] with
    | some v => joining [v] (multiBasicBody? false rest)
    | none => none
  | _, '\\' :: 'U' :: a :: b :: c :: d :: e :: f :: g :: h :: rest =>
    match scalarValue? [a, b, c, d, e, f, g, h] with
    | some v => joining [v] (multiBasicBody? false rest)
    | none => none
  | _, '\\' :: e :: rest =>
    if endsLine (e :: rest) then multiBasicBody? true (e :: rest)
    else
      match escape? e with
      | some v => joining [v] (multiBasicBody? false rest)
      | none => none
  | _, c :: rest => if isBasic c then joining [c] (multiBasicBody? false rest) else none

/-- The rest of a string between single quotes on one line. -/
def literalBody? : List Char → Option (List Char × List Char)
  | [] => none
  | '\'' :: rest => some ([], rest)
  | c :: rest => if isLiteral c then joining [c] (literalBody? rest) else none

/-- The rest of a string between triple single quotes. -/
def multiLiteralBody? : List Char → Option (List Char × List Char)
  | [] => none
  | '\'' :: '\'' :: '\'' :: '\'' :: '\'' :: rest => some (['\'', '\''], rest)
  | '\'' :: '\'' :: '\'' :: '\'' :: rest => some (['\''], rest)
  | '\'' :: '\'' :: '\'' :: rest => some ([], rest)
  | '\'' :: rest => joining ['\''] (multiLiteralBody? rest)
  | '\r' :: '\n' :: rest => joining ['\n'] (multiLiteralBody? rest)
  | '\n' :: rest => joining ['\n'] (multiLiteralBody? rest)
  | c :: rest => if isLiteral c then joining [c] (multiLiteralBody? rest) else none

/-- A line end right after an opening triple quote is left out. -/
def skipLineEnd : List Char → List Char
  | '\n' :: rest => rest
  | '\r' :: '\n' :: rest => rest
  | cs => cs

/-- A string of any of the four kinds. -/
def string? : List Char → Option (List Char × List Char)
  | '"' :: '"' :: '"' :: rest => multiBasicBody? false (skipLineEnd rest)
  | '"' :: rest => basicBody? rest
  | '\'' :: '\'' :: '\'' :: rest => multiLiteralBody? (skipLineEnd rest)
  | '\'' :: rest => literalBody? rest
  | _ => none

/-! ## Dates and times -/

/-- A number of a fixed count of digits, within bounds. -/
def fixed? (count low high : Nat) (cs : List Char) : Option (Nat × List Char) := do
  let digits := cs.take count
  if digits.length = count then
    let n ← Text.readDigits? 10 digits
    if low ≤ n ∧ n ≤ high then some (n, cs.drop count) else none
  else none

/-- A given character. -/
def char? (c : Char) : List Char → Option (List Char)
  | d :: rest => if d = c then some rest else none
  | [] => none

def isLeapYear (year : Nat) : Bool :=
  year % 4 == 0 && (year % 100 != 0 || year % 400 == 0)

def daysInMonth (year month : Nat) : Nat :=
  if month = 2 then (if isLeapYear year then 29 else 28)
  else if month = 4 ∨ month = 6 ∨ month = 9 ∨ month = 11 then 30
  else 31

/-- What follows a date. -/
def date? (cs : List Char) : Option (List Char) := do
  let (year, cs) ← fixed? 4 0 9999 cs
  let cs ← char? '-' cs
  let (month, cs) ← fixed? 2 1 12 cs
  let cs ← char? '-' cs
  let (_, cs) ← fixed? 2 1 (daysInMonth year month) cs
  return cs

/-- What follows a time of day; a leap second is allowed. -/
def time? (cs : List Char) : Option (List Char) := do
  let (_, cs) ← fixed? 2 0 23 cs
  let cs ← char? ':' cs
  let (_, cs) ← fixed? 2 0 59 cs
  let cs ← char? ':' cs
  let (_, cs) ← fixed? 2 0 60 cs
  match cs with
  | '.' :: rest =>
    match Text.cut Char.isDigit rest with
    | ([], _) => none
    | (_, rest) => some rest
  | _ => some cs

/-- What follows the offset of a time from universal time, if there is one. -/
def skipOffset (cs : List Char) : List Char :=
  match cs with
  | 'Z' :: rest => rest
  | 'z' :: rest => rest
  | sign :: rest =>
    if sign = '+' ∨ sign = '-' then
      let offset := do
        let (_, rest) ← fixed? 2 0 23 rest
        let rest ← char? ':' rest
        let (_, rest) ← fixed? 2 0 59 rest
        return rest
      offset.getD cs
    else cs
  | [] => []

/-- What follows a date, a time, or a date with a time. -/
def moment? (cs : List Char) : Option (List Char) :=
  match date? cs with
  | some rest =>
    match rest with
    | d :: after =>
      if d = 'T' ∨ d = 't' ∨ d = ' ' then
        match time? after with
        | some after => some (skipOffset after)
        | none => some rest
      else some rest
    | [] => some []
  | none => time? cs

/-- A date or time stands for a record with one private member. -/
def moment : Document :=
  .record [(some "$__toml_private_datetime", .text "")]

/-! ## Numbers -/

/-- Digits of a base that may have single underscores between them; the digits come without. -/
def digits? (base : Nat) : List Char → Option (List Char × List Char)
  | [] => none
  | c :: cs =>
    match digit? base c with
    | none => none
    | some _ => some (c :: (more cs).1, (more cs).2)
where
  more : List Char → List Char × List Char
    | '_' :: c :: cs =>
      match digit? base c with
      | some _ => (c :: (more cs).1, (more cs).2)
      | none => ([], '_' :: c :: cs)
    | c :: cs =>
      match digit? base c with
      | some _ => (c :: (more cs).1, (more cs).2)
      | none => ([], c :: cs)
    | [] => ([], [])

/-- The sign of a number, if it has one. -/
def sign : List Char → Option Char × List Char
  | '+' :: rest => (some '+', rest)
  | '-' :: rest => (some '-', rest)
  | cs => (none, cs)

/-- The digits of a decimal integer: a lone zero, or digits that do not begin with one. -/
def decimalDigits? : List Char → Option (List Char × List Char)
  | '0' :: rest => some (['0'], rest)
  | cs => digits? 10 cs

/-- The least number too large for a finite double, and everything from it on. -/
def doubleLimit : Nat := Nat.pow 2 1024 - Nat.pow 2 970

/-- Whether `mantissa * 10 ^ exponent` is too large for a finite double. -/
def overflowsDouble (mantissa : Nat) (exponent : Int) : Bool :=
  let size : Int := (Text.decimal mantissa).length + exponent
  if mantissa = 0 ∨ size < 300 then false
  else if 320 < size then true
  else
    match exponent with
    | .ofNat e => doubleLimit ≤ mantissa * Nat.pow 10 e
    | .negSucc e => doubleLimit * Nat.pow 10 (e + 1) ≤ mantissa

/-- A number with a fraction, an exponent or both. One that rounds to positive infinity is refused. -/
def float? (cs : List Char) : Option (Document × List Char) := do
  let (sign, rest) := sign cs
  let (integer, rest) ← decimalDigits? rest
  let (fraction, rest) ←
    match rest with
    | '.' :: rest => digits? 10 rest
    | _ => some ([], rest)
  let (exponent, rest) ←
    match rest with
    | e :: after =>
      if e = 'e' ∨ e = 'E' then do
        let (sign, after) := Toml.sign after
        let (digits, after) ← digits? 10 after
        let n ← Text.readDigits? 10 digits
        some (some (if sign = some '-' then -(n : Int) else n), after)
      else some (none, rest)
    | [] => some (none, rest)
  if fraction.isEmpty ∧ exponent = none then none
  else
    let mantissa ← Text.readDigits? 10 (integer ++ fraction)
    if sign ≠ some '-' ∧ overflowsDouble mantissa (exponent.getD 0 - fraction.length) then none
    else some (.number (String.ofList (cs.take (cs.length - rest.length))), rest)

/-- The words for infinity and for no number. -/
def wordFloat? (cs : List Char) : Option (Document × List Char) :=
  match (sign cs).2 with
  | 'i' :: 'n' :: 'f' :: rest => some (.number "inf", rest)
  | 'n' :: 'a' :: 'n' :: rest => some (.number "nan", rest)
  | _ => none

/-- The least magnitude that no signed 64-bit integer has on the positive side. -/
def integerLimit : Nat := UInt64.size / 2

/-- An integer of 64 bits with sign, in base ten, or without sign in base two, eight or sixteen. -/
def integer? (cs : List Char) : Option (Document × List Char) :=
  match cs with
  | '0' :: 'x' :: rest => based 16 rest
  | '0' :: 'o' :: rest => based 8 rest
  | '0' :: 'b' :: rest => based 2 rest
  | _ => do
    let (sign, rest) := sign cs
    let (digits, rest) ← decimalDigits? rest
    let n ← Text.readDigits? 10 digits
    if sign = some '-' ∧ n ≠ 0 then
      if n ≤ integerLimit then some (.number (String.ofList ('-' :: Text.decimal n)), rest) else none
    else if n < integerLimit then some (.whole n, rest)
    else none
where
  based (base : Nat) (cs : List Char) : Option (Document × List Char) := do
    let (digits, rest) ← digits? base cs
    let n ← Text.readDigits? base digits
    if n < integerLimit then some (.whole n, rest) else none

/-! ## Any scalar -/

/-- The scalar at the front of a text. -/
def scalar? (cs : List Char) : Option (Document × List Char) :=
  match cs with
  | [] => none
  | c :: _ =>
    if c = '"' ∨ c = '\'' then (string? cs).map fun r => (.text (String.ofList r.1), r.2)
    else if c.isDigit ∨ c = '+' ∨ c = '-' then
      match moment? cs with
      | some rest => some (moment, rest)
      | none => float? cs <|> wordFloat? cs <|> integer? cs
    else
      match cs with
      | 't' :: 'r' :: 'u' :: 'e' :: rest => some (.truth true, rest)
      | 'f' :: 'a' :: 'l' :: 's' :: 'e' :: rest => some (.truth false, rest)
      | _ => wordFloat? cs

end ZonePool.Toml
