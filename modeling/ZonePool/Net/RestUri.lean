-- SUMMARY: URIs of the scheme under which instances offer their service.
import ZonePool.Net.Uri

/-!
# `rest` URIs

An instance offers its service under a URI of the scheme `rest`. The scheme has
no default port, and its host is taken as it is written, case and all, except
that an address in brackets is written anew and that characters outside ASCII
are percent-encoded.
-/

namespace ZonePool.Net.RestUri

/-- The scheme of the service. -/
def scheme : List Char := ['r', 'e', 's', 't']

/-- The characters that no host may hold. -/
def isForbidden (c : Char) : Bool :=
  "\x00\t\n\r #/:<>?@[\\]^|".toList.contains c

/-- A host as it is written from now on. -/
def host? (cs : List Char) : Option (List Char) :=
  match cs with
  | '[' :: rest => (Uri.bracketed? rest).map Uri.writeBracketed
  | _ => if cs.any isForbidden then none else some (Percent.encode Percent.isControl cs)

/-- A host, and a port if there is one. -/
def writeEndpoint (host : List Char) : Option Nat → List Char
  | some port => host ++ ':' :: Text.decimal port
  | none => host

/-- The host and port in what follows the two slashes; there is none without a host. -/
def authority? (cs : List Char) : Option (List Char) := do
  let (host, rest) := Uri.spanHost false false (Uri.skipCredentials false cs)
  let host ← host? host
  let (port, _) ← Uri.port? rest
  if host.isEmpty then none else some (writeEndpoint host port)

/-- The host and port that a URI names, if it has the scheme of the service and names a host. -/
def endpoint? (uri : String) : Option String :=
  match Uri.scheme? (Uri.clean uri.toList) with
  | some (s, '/' :: '/' :: rest) =>
    if s = scheme then (authority? rest).map String.ofList else none
  | _ => none

end ZonePool.Net.RestUri
