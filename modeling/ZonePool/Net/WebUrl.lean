-- SUMMARY: Addresses of the web, absolute and relative.
import ZonePool.Net.Host

/-!
# Web addresses

The addresses that requests go to, with or without encryption. A host that is
no number is looked up. Paths are cleared of dot segments, and paths and queries
are percent-encoded where a request line needs it.
-/

namespace ZonePool.Net

/-! ## Paths and queries -/

namespace WebPath

/-- A path segment that stands for the directory it is in. -/
def isHere (segment : List Char) : Bool :=
  let s := segment.map Char.toLower
  s == ".".toList || s == "%2e".toList

/-- A path segment that stands for the parent of the directory it is in. -/
def isParent (segment : List Char) : Bool :=
  let s := segment.map Char.toLower
  s == "..".toList || s == ".%2e".toList || s == "%2e.".toList || s == "%2e%2e".toList

/-- Follow segments from a directory; both paths are lists of segments, the directory's newest
first. -/
def follow : List (List Char) → List (List Char) → List (List Char)
  | base, [] => base
  | base, [last] =>
    if isParent last then [] :: base.tail
    else if isHere last then [] :: base
    else Percent.encode Percent.isPathUnsafe last :: base
  | base, segment :: rest =>
    if isParent segment then follow base.tail rest
    else if isHere segment then follow base rest
    else follow (Percent.encode Percent.isPathUnsafe segment :: base) rest

/-- The segments of a text between slashes of either kind. -/
def segments (cs : List Char) : List (List Char) :=
  cs.splitOnP fun c => c == '/' || c == '\\'

end WebPath

/-! ## Whole addresses -/

/-- An address of the web; the path is a list of segments. -/
structure WebUrl where
  encrypted : Bool
  host : WebHost
  port : Option Nat
  path : List (List Char)
  query : Option (List Char)
  deriving DecidableEq, Repr

/-- What a text names: an address of the web, or one of some other kind. -/
inductive WebTarget where
  | web (url : WebUrl)
  | other
  deriving DecidableEq, Repr

namespace WebUrl

/-- The port to connect to. -/
def dialPort (url : WebUrl) : Nat :=
  url.port.getD (if url.encrypted then 443 else 80)

/-- The address to connect to. A name in another script is looked up in its plain spelling. -/
def locate (resolver : Resolver) (url : WebUrl) : Lookup SocketAddress :=
  let port := UInt16.ofNat url.dialPort
  let find labels := (resolver.lookup (String.ofList labels)).map (·.withPort port)
  match url.host with
  | .v4 ip => .found (.v4 ip port)
  | .v6 ip => .found (.v6 ip 0 port)
  | .name labels => find labels
  | .foreign text =>
    match resolver.spell text with
    | some labels => find labels
    | none => .failed noSuchName

/-- The target of a request: path and query. -/
def target (url : WebUrl) : List Char :=
  url.path.flatMap ('/' :: ·) ++
    match url.query with
    | some q => '?' :: q
    | none => []

/-- The query of a text that has one, encoded; a fragment is no part of it. -/
def query? (cs : List Char) : Option (List Char) :=
  match cs with
  | '?' :: rest => some (Percent.encode Percent.isQueryUnsafe (rest.takeWhile (· != '#')))
  | _ => none

/-- A text cut where its path ends. -/
def spanPath (cs : List Char) : List Char × List Char :=
  Text.cut (fun c => c != '?' && c != '#') cs

/-- An address from what follows the slashes after the scheme. -/
def ofAuthority? (encrypted : Bool) (cs : List Char) : Option WebUrl := do
  let (host, rest) := Uri.spanHost true false (Uri.skipCredentials true cs)
  if host.isEmpty then none
  let host ← WebHost.read? host
  let (port, rest) ← Uri.port? rest
  let (path, rest) := spanPath rest
  let segments := WebPath.segments (path.drop 1)
  return { encrypted, host, port, path := (WebPath.follow [] segments).reverse, query := query? rest }

/-- An address relative to another one. -/
def resolve? (base : WebUrl) (cs : List Char) : Option WebUrl :=
  let isSlash c := c == '/' || c == '\\'
  match cs with
  | [] => some base
  | c :: rest =>
    if isSlash c ∧ (rest.head?.any isSlash) then
      ofAuthority? base.encrypted (rest.dropWhile isSlash)
    else
      let (path, tail) := spanPath cs
      if isSlash c then
        let segments := WebPath.segments (path.drop 1)
        some { base with path := (WebPath.follow [] segments).reverse, query := query? tail }
      else if path.isEmpty then
        some { base with query := if c = '?' then query? tail else base.query }
      else
        let parent := base.path.reverse.tail
        let segments := WebPath.segments path
        some { base with path := (WebPath.follow parent segments).reverse, query := query? tail }

/-- Whether a scheme is one of the web, and then whether it encrypts. -/
def webScheme? (scheme : List Char) : Option Bool :=
  if scheme = "http".toList then some false
  else if scheme = "https".toList then some true
  else none

/-- Read an absolute address, or one relative to `base`. -/
def read? (base : Option WebUrl) (text : String) : Option WebTarget :=
  let cs := Uri.clean text.toList
  match Uri.scheme? cs with
  | some (scheme, rest) =>
    match webScheme? scheme with
    | some encrypted =>
      let isSlash c := c == '/' || c == '\\'
      match base with
      | some base =>
        if base.encrypted = encrypted ∧ (rest.takeWhile isSlash).length < 2 then
          (base.resolve? rest).map .web
        else (ofAuthority? encrypted (rest.dropWhile isSlash)).map .web
      | none => (ofAuthority? encrypted (rest.dropWhile isSlash)).map .web
    | none => some .other
  | none => (base.bind (·.resolve? cs)).map .web

end WebUrl

end ZonePool.Net
