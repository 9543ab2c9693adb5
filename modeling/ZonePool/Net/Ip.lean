-- SUMMARY: IP addresses, read and written.
import ZonePool.Text.Decimal

/-!
# IP addresses

Version 4 in its dotted form, and version 6 as groups of hexadecimal digits in
which one run of zeros may be left out and the last two groups may be dotted.
Writing leaves out the first of the longest runs of two zeros or more.
-/

namespace ZonePool.Net

open Text (digit? readDigits? decimal hexadecimal)

/-! ## Version 4 -/

structure Ipv4 where
  a : UInt8
  b : UInt8
  c : UInt8
  d : UInt8
  deriving DecidableEq, Repr, Inhabited

namespace Ipv4

/-- One to three digits without a leading zero, up to 255. -/
def octet? (cs : List Char) : Option UInt8 :=
  if 3 < cs.length ∨ (cs.head? = some '0' ∧ cs.length ≠ 1) then none
  else
    match readDigits? 10 cs with
    | some n => if n < 256 then some (UInt8.ofNat n) else none
    | none => none

/-- The dotted form. -/
def read? (cs : List Char) : Option Ipv4 :=
  match cs.splitOn '.' with
  | [a, b, c, d] => do
    let a ← octet? a
    let b ← octet? b
    let c ← octet? c
    let d ← octet? d
    return ⟨a, b, c, d⟩
  | _ => none

/-- The address with a given 32-bit value. -/
def ofNat (n : Nat) : Ipv4 :=
  ⟨.ofNat (n / 0x1000000), .ofNat (n / 0x10000), .ofNat (n / 0x100), .ofNat n⟩

def write (ip : Ipv4) : List Char :=
  decimal ip.a.toNat ++ '.' :: decimal ip.b.toNat ++ '.' :: decimal ip.c.toNat ++
    '.' :: decimal ip.d.toNat

/-- The two groups of a version 6 address that hold this address. -/
def groups (ip : Ipv4) : List UInt16 :=
  [.ofNat (ip.a.toNat * 256 + ip.b.toNat), .ofNat (ip.c.toNat * 256 + ip.d.toNat)]

end Ipv4

/-! ## Version 6 -/

/-- Eight groups of 16 bits. -/
structure Ipv6 where
  groups : List UInt16
  size : groups.length = 8
  deriving DecidableEq, Repr

namespace Ipv6

/-- One to four hexadecimal digits. -/
def group? (cs : List Char) : Option UInt16 :=
  if 4 < cs.length then none else (readDigits? 16 cs).map UInt16.ofNat

/-- Groups with a colon between them; the last one may be dotted where `dotted` allows it. -/
def groupList? (dotted : Bool) : List (List Char) → Option (List UInt16)
  | [] => some []
  | [part] =>
    match group? part with
    | some g => some [g]
    | none => if dotted then (Ipv4.read? part).map Ipv4.groups else none
  | part :: parts => do
    let g ← group? part
    let gs ← groupList? dotted parts
    return g :: gs

/-- The groups on one side of a gap, which may be none at all. -/
def side? (dotted : Bool) (cs : List Char) : Option (List UInt16) :=
  if cs.isEmpty then some [] else groupList? dotted (cs.splitOn ':')

/-- A text cut at the first double colon. -/
def cutGap : List Char → Option (List Char × List Char)
  | ':' :: ':' :: rest => some ([], rest)
  | c :: rest => (cutGap rest).map fun r => (c :: r.1, r.2)
  | [] => none

/-- The groups before and after a gap, with at least one zero group in between. -/
def ofSides? (front back : List UInt16) : Option Ipv6 :=
  if h : front.length + back.length < 8 then
    some ⟨front ++ List.replicate (8 - (front.length + back.length)) 0 ++ back, by
      simp only [List.length_append, List.length_replicate]; omega⟩
  else none

def read? (cs : List Char) : Option Ipv6 :=
  match cutGap cs with
  | some (front, back) => do
    let front ← side? false front
    let back ← side? true back
    ofSides? front back
  | none => do
    let groups ← side? true cs
    if size : groups.length = 8 then some ⟨groups, size⟩ else none

/-! ## Writing -/

/-- How many zeros a list begins with. -/
def leadingZeros (gs : List UInt16) : Nat :=
  (gs.takeWhile (· == 0)).length

/-- The start and length of the first of the longest runs of zeros; `at` is the place of the list. -/
def longestZeros (start : Nat) : List UInt16 → Nat × Nat
  | [] => (start, 0)
  | g :: gs =>
    let here := leadingZeros (g :: gs)
    let later := longestZeros (start + 1) gs
    if later.2 ≤ here then (start, here) else later

/-- Groups with a colon between them. -/
def writeGroups : List UInt16 → List Char
  | [] => []
  | [g] => hexadecimal g.toNat
  | g :: gs => hexadecimal g.toNat ++ ':' :: writeGroups gs

/-- The address with its longest run of zeros left out. -/
def write (ip : Ipv6) : List Char :=
  let (start, length) := longestZeros 0 ip.groups
  if length < 2 then writeGroups ip.groups
  else
    writeGroups (ip.groups.take start) ++ ':' :: ':' ::
      writeGroups (ip.groups.drop (start + length))

/-- The version 4 address that an address stands for by its first six groups. -/
def mapped? (ip : Ipv6) : Option Ipv4 :=
  match ip.groups with
  | [0, 0, 0, 0, 0, 0xFFFF, high, low] =>
    some ⟨.ofNat (high.toNat / 256), .ofNat high.toNat, .ofNat (low.toNat / 256), .ofNat low.toNat⟩
  | _ => none

/-- The address, with the last two groups dotted when it stands for a version 4 address. -/
def display (ip : Ipv6) : List Char :=
  match ip.mapped? with
  | some v4 => "::ffff:".toList ++ v4.write
  | none => ip.write

end Ipv6

end ZonePool.Net
