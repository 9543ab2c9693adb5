-- SUMMARY: The scheme, host and port of a URI.
import ZonePool.Net.Ip
import ZonePool.Net.Percent
import ZonePool.Text.Blank
import ZonePool.Text.Cut

/-!
# URIs

The parts of a URI that say whom to talk to, as browsers read them: blanks at
the ends and line breaks anywhere are dropped, credentials end at the last at
sign, and a port is a number of at most 16 bits, with any leading zeros and
perhaps no digit at all. In web addresses a backslash counts as a slash.
-/

namespace ZonePool.Net.Uri

/-! ## Scheme -/

/-- A text without the control characters and spaces at its ends and without line breaks. -/
def clean (cs : List Char) : List Char :=
  (Text.strip (·.toNat ≤ 0x20) cs).filter fun c => c != '\t' && c != '\n' && c != '\r'

def isSchemeChar (c : Char) : Bool :=
  c.isAlphanum || c == '+' || c == '-' || c == '.'

/-- The scheme in lower case, and what follows its colon. -/
def scheme? (cs : List Char) : Option (List Char × List Char) :=
  if (cs.head?.map Char.isAlpha).getD false then
    match Text.cut isSchemeChar cs with
    | (scheme, ':' :: rest) => some (scheme.map Char.toLower, rest)
    | _ => none
  else none

/-! ## Authority -/

/-- The characters that end an authority. -/
def endsAuthority (web : Bool) (c : Char) : Bool :=
  c == '/' || c == '?' || c == '#' || (web && c == '\\')

/-- What follows the credentials, which end at the last at sign of the authority. -/
def skipCredentials (web : Bool) (cs : List Char) : List Char :=
  let (authority, rest) := Text.cut (!endsAuthority web ·) cs
  (authority.reverse.takeWhile (· != '@')).reverse ++ rest

/-- The host and what follows it; a colon between brackets belongs to the host. -/
def spanHost (web : Bool) : Bool → List Char → List Char × List Char
  | _, [] => ([], [])
  | bracketed, c :: cs =>
    if (c = ':' ∧ bracketed = false) ∨ endsAuthority web c then ([], c :: cs)
    else
      let bracketed := if c = '[' then true else if c = ']' then false else bracketed
      let (host, rest) := spanHost web bracketed cs
      (c :: host, rest)

/-- The port after a host, if one is written, and what follows it. -/
def port? : List Char → Option (Option Nat × List Char)
  | ':' :: cs =>
    let (digits, rest) := Text.cut Char.isDigit cs
    if rest.head?.all (endsAuthority true) then
      if digits.isEmpty then some (none, rest)
      else (Text.readBelow? UInt16.size digits).map fun n => (some n, rest)
    else none
  | cs => some (none, cs)

/-- A version 6 address between brackets; the opening one is already read. -/
def bracketed? (cs : List Char) : Option Ipv6 :=
  if cs.getLast? = some ']' then Ipv6.read? cs.dropLast else none

/-- An address as a host. -/
def writeBracketed (ip : Ipv6) : List Char :=
  '[' :: ip.write ++ [']']

end ZonePool.Net.Uri
