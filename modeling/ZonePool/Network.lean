-- SUMMARY: The peers within reach, and the connections made to them.
import ZonePool.Net.Host

/-!
# The network

A pool knows its peers by the connections it makes to them. A `Network` says
what comes of looking hosts up and what every address does with a connection,
and keeps the record of attempts and of requests served, oldest first. On a host
whose links are down no attempt succeeds, whatever the peer would do; an attempt
on a silent peer hangs all the same. No peer speaks TLS.
-/

namespace ZonePool

open Net (SocketAddress Resolver)

/-! ## Peers -/

/-- What a peer answers to a request. -/
structure Reply where
  status : Nat := 200
  body : List UInt8 := []
  /-- Where the answer redirects to. -/
  location : Option String := none
  /-- The peer announces more octets than it sends. -/
  truncated : Bool := false
  deriving DecidableEq, Repr

/-- The answers of a peer by request target. -/
abbrev Routes := List (String × Reply)

inductive Peer where
  /-- Neither accepts nor refuses. -/
  | silent
  /-- Accepts, at most `limit` times if there is one. Without routes it closes at once. -/
  | accepting (limit : Option Nat) (routes : Option Routes)
  deriving DecidableEq, Repr

/-- A request that was served. -/
structure Hit where
  peer : SocketAddress
  method : String
  target : String
  deriving DecidableEq, Repr

/-- What became of an attempt to connect. -/
inductive Connection where
  | refused
  | hanging
  | accepted (routes : Option Routes)
  deriving DecidableEq, Repr

/-! ## The network -/

structure Network where
  /-- Whether connections get through at all. -/
  linked : Bool := true
  resolver : Resolver := .numeric
  peers : List (SocketAddress × Peer) := []
  dials : List SocketAddress := []
  hits : List Hit := []

namespace Network

/-- The network of a host whose links are down and that looks no host up. -/
def isolated (peers : List (SocketAddress × Peer)) : Network where
  linked := false
  resolver := .empty
  peers

/-- The peer at an address; there is none where nothing is known. -/
def peer? (n : Network) (a : SocketAddress) : Option Peer :=
  (n.peers.find? (·.1 == a)).map (·.2)

/-- The peers after one more accepted connection at an address. -/
def spend (a : SocketAddress) (peers : List (SocketAddress × Peer)) : List (SocketAddress × Peer) :=
  peers.map fun p =>
    match p with
    | (b, .accepting (some (limit + 1)) routes) =>
      if b = a then (b, .accepting (some limit) routes) else p
    | _ => p

/-- Try to connect. -/
def dial (n : Network) (a : SocketAddress) : Connection × Network :=
  let n := { n with dials := n.dials ++ [a] }
  match n.peer? a with
  | none => (.refused, n)
  | some .silent => (.hanging, n)
  | some (.accepting (some 0) _) => (.refused, n)
  | some (.accepting _ routes) =>
    if n.linked then (.accepted routes, { n with peers := spend a n.peers }) else (.refused, n)

/-- Note a request that was served. -/
def serve (n : Network) (hit : Hit) : Network :=
  { n with hits := n.hits ++ [hit] }

/-- The same network with an empty record. -/
def forget (n : Network) : Network :=
  { n with dials := [], hits := [] }

/-- Other peers behind the same links. -/
def become (n : Network) (peers : List (SocketAddress × Peer)) : Network :=
  { n with peers }

/-! ## Listening -/

/-- Whether the host can listen on an address. This is an assumption about the host, which is taken to
have every address of version 4 as its own, and of version 6 only those that stand for all interfaces
or for an address of version 4. -/
def canListen : SocketAddress → Bool
  | .v4 .. => true
  | .v6 ip _ _ => ip.groups.all (· == 0) || ip.mapped?.isSome

end Network

end ZonePool
