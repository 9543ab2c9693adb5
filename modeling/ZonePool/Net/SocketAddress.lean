-- SUMMARY: IP addresses with ports.
import ZonePool.Net.Ip
import ZonePool.Text.Cut

/-!
# Socket addresses

An IP address with a port, the only kind of endpoint that can be connected to
without asking for a name. Version 6 addresses stand in brackets and may carry
a numeric scope.
-/

namespace ZonePool.Net

open Text (readBelow? decimal)

inductive SocketAddress where
  | v4 (ip : Ipv4) (port : UInt16)
  | v6 (ip : Ipv6) (scope : UInt32) (port : UInt16)
  deriving DecidableEq, Repr

namespace SocketAddress

def port : SocketAddress → UInt16
  | .v4 _ p => p
  | .v6 _ _ p => p

/-- A port in decimal, with any number of leading zeros. -/
def port? (cs : List Char) : Option UInt16 :=
  (readBelow? UInt16.size cs).map UInt16.ofNat

/-- A version 6 address and its scope, which is zero unless a percent sign begins one. -/
def scoped? (cs : List Char) : Option (Ipv6 × UInt32) :=
  match Text.cut (· != '%') cs with
  | (ip, []) => (Ipv6.read? ip).map (·, 0)
  | (ip, _ :: scope) => do
    let ip ← Ipv6.read? ip
    let scope ← readBelow? UInt32.size scope
    return (ip, UInt32.ofNat scope)

/-- Read an address with its port. -/
def read? (cs : List Char) : Option SocketAddress :=
  match cs with
  | '[' :: rest =>
    match Text.cut (· != ']') rest with
    | (inner, ']' :: ':' :: port) => do
      let (ip, scope) ← scoped? inner
      let port ← port? port
      return .v6 ip scope port
    | _ => none
  | _ =>
    match Text.cut (· != ':') cs with
    | (ip, _ :: port) => do
      let ip ← Ipv4.read? ip
      let port ← port? port
      return .v4 ip port
    | _ => none

def ofText? (s : String) : Option SocketAddress :=
  read? s.toList

def write : SocketAddress → List Char
  | .v4 ip port => ip.write ++ ':' :: decimal port.toNat
  | .v6 ip scope port =>
    '[' :: ip.display ++ (if scope = 0 then [] else '%' :: decimal scope.toNat) ++
      ']' :: ':' :: decimal port.toNat

def toText (a : SocketAddress) : String :=
  String.ofList a.write

end SocketAddress

end ZonePool.Net
