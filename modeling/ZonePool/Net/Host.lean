-- SUMMARY: Hosts as web addresses and endpoints spell them, and looking them up.
import ZonePool.Net.Compatibility
import ZonePool.Net.SocketAddress
import ZonePool.Net.Uri

/-!
# Hosts

A host is an address or a name. In a web address, a host that ends in a number is
a version 4 address, in any of its short forms, and any other host outside
brackets is a name. An endpoint that is no socket address consists of a host and
a port, and the whole host goes to the resolver, which reads addresses much as
web addresses do and asks elsewhere for the names. A host has one address here:
a client's trying several of them in turn is left out.
-/

namespace ZonePool.Net

open Text (readDigits?)

/-! ## Hosts of web addresses -/

inductive WebHost where
  | v4 (ip : Ipv4)
  | v6 (ip : Ipv6)
  /-- A name, to be looked up. -/
  | name (labels : List Char)
  /-- A name in another script. -/
  | foreign (text : List Char)
  deriving DecidableEq, Repr

namespace WebHost

/-- A number of 32 bits in base sixteen, eight or ten, as its first characters say. The outer
option is for a text that is no number, the inner one for a number that is too large. -/
def number? (cs : List Char) : Option (Option Nat) :=
  match cs with
  | [] => none
  | '0' :: 'x' :: rest => bounded 16 rest
  | '0' :: 'X' :: rest => bounded 16 rest
  | ['0'] => some (some 0)
  | '0' :: rest => bounded 8 rest
  | _ => bounded 10 cs
where
  bounded (base : Nat) (digits : List Char) : Option (Option Nat) :=
    if digits.isEmpty then some (some 0)
    else (readDigits? base digits).map fun n => if n < UInt32.size then some n else none

/-- The dot-separated parts of a host, without the empty one after a final dot. -/
def parts (cs : List Char) : List (List Char) :=
  let ps := cs.splitOn '.'
  if ps.getLast? = some [] then ps.dropLast else ps

/-- Whether the last part is a number. -/
def endsInNumber (cs : List Char) : Bool :=
  match (parts cs).getLast? with
  | some last => (!last.isEmpty && last.all Char.isDigit) || (number? last).isSome
  | none => false

/-- Put the numbers of a short form together; all but the last are octets. -/
def assemble? : Nat → List Nat → Option Nat
  | _, [] => none
  | place, [n] => if n < Nat.pow 256 (place + 1) then some n else none
  | 0, _ => none
  | place + 1, n :: ns =>
    if n < 256 then (assemble? place ns).map (n * Nat.pow 256 (place + 1) + ·) else none

/-- A version 4 address of one to four numbers. -/
def v4? (cs : List Char) : Option Ipv4 := do
  let numbers ← (parts cs).mapM fun p => (number? p).join
  (assemble? 3 numbers).map Ipv4.ofNat

/-- The characters that no name may hold. -/
def isForbidden (c : Char) : Bool :=
  Percent.isControl c || " #/:<>?@[\\]^|%".toList.contains c

/-- A host, with percent-encoding undone and styled characters made plain. -/
def read? (cs : List Char) : Option WebHost :=
  match cs with
  | '[' :: rest => (Uri.bracketed? rest).map .v6
  | _ => do
    let text ← Text.decodeUtf8? (Percent.decode cs)
    match text.mapM Compatibility.plain? with
    | none => return .foreign text
    | some plain =>
      let plain := plain.flatten
      if plain.isEmpty ∨ plain.any isForbidden then none
      else if endsInNumber plain then (v4? plain).map .v4
      else return .name (plain.map Char.toLower)

end WebHost

/-! ## Lookups -/

/-- What comes of looking something up. -/
inductive Lookup (α : Type) where
  | found (a : α)
  | failed (reason : String)
  /-- No answer in time. -/
  | hanging
  deriving DecidableEq, Repr

namespace Lookup

def map {α β : Type} (f : α → β) : Lookup α → Lookup β
  | found a => found (f a)
  | failed reason => failed reason
  | hanging => hanging

def toOption {α : Type} : Lookup α → Option α
  | found a => some a
  | failed _ | hanging => none

end Lookup

/-- The failure of a lookup where a name does not exist. -/
def noSuchName : String :=
  "failed to lookup address information: Name or service not known"

/-- An address without a port. -/
inductive HostAddress where
  | v4 (ip : Ipv4)
  | v6 (ip : Ipv6) (scope : UInt32)
  deriving DecidableEq, Repr

namespace HostAddress

def withPort (port : UInt16) : HostAddress → SocketAddress
  | v4 ip => .v4 ip port
  | v6 ip scope => .v6 ip scope port

/-- A part of a version 4 address in which a resolver misses a digit. -/
def isBare (part : List Char) : Bool :=
  part.isEmpty || part == "0x".toList || part == "0X".toList

/-- A host that is an address: of version 4 in any short form, or of version 6. -/
def read? (cs : List Char) : Option HostAddress :=
  if (cs.splitOn '.').any isBare then none
  else
    match WebHost.v4? cs with
    | some ip => some (.v4 ip)
    | none => (Ipv6.read? cs).map (.v6 · 0)

end HostAddress

/-- What there is to find out about hosts. -/
structure Resolver where
  /-- The plain spelling of a name in another script, if it is a name. -/
  spell : List Char → Option (List Char) := fun _ => none
  /-- What comes of looking a host up. -/
  lookup : String → Lookup HostAddress

namespace Resolver

/-- The resolver that knows of no host. -/
def empty : Resolver where
  lookup _ := .failed noSuchName

/-- The resolver that reads addresses and knows of no name. -/
def numeric : Resolver where
  lookup host :=
    match HostAddress.read? host.toList with
    | some a => .found a
    | none => .failed noSuchName

/-! ## Endpoints -/

/-- The port of an endpoint, perhaps with a plus sign before it. -/
def port? : List Char → Option UInt16
  | '+' :: digits => SocketAddress.port? digits
  | digits => SocketAddress.port? digits

/-- Where a plain connection to an endpoint goes: to the socket address that it is, or else to the
address of the host before its last colon. -/
def locate (resolver : Resolver) (endpoint : String) : Lookup SocketAddress :=
  match SocketAddress.ofText? endpoint with
  | some a => .found a
  | none =>
    match Text.cut (· != ':') endpoint.toList.reverse with
    | (_, []) => .failed "invalid socket address"
    | (digits, _ :: host) =>
      match port? digits.reverse with
      | none => .failed "invalid port value"
      | some port =>
        if Char.ofNat 0 ∈ host then .failed "file name contained an unexpected NUL byte"
        else (resolver.lookup (String.ofList host.reverse)).map (·.withPort port)

theorem locate_of_some {endpoint : String} {a : SocketAddress}
    (h : SocketAddress.ofText? endpoint = some a) (resolver : Resolver) :
    resolver.locate endpoint = .found a := by
  rw [locate, h]

end Resolver

end ZonePool.Net
