-- SUMMARY: The pages of the admin server.
import ZonePool.Json.Writer
import ZonePool.Net.Uri
import ZonePool.Pool

/-!
# The admin pages

Health, readiness, the next address, the tiers and the metrics of a pool, each
at a path of its own. Only the path of a request counts for the page: not its
method, and not its query. Asking for the next address is a pick like any other.
-/

namespace ZonePool

/-- An answer of the admin server. -/
structure Page where
  status : Nat
  contentType : String
  body : String
  deriving DecidableEq, Repr

/-- The page as the answer to a request with some method; there is no body for `HEAD`. -/
def Page.sentFor (page : Page) (method : String) : Page :=
  if method = "HEAD" then { page with body := "" } else page

namespace Admin

def jsonType : String := "application/json"

def metricsType : String := "text/plain; version=0.0.4; charset=utf-8"

/-- A page with a JSON body on one line. -/
def jsonPage (status : Nat) (body : Document) : Page :=
  ⟨status, jsonType, Json.render body⟩

/-! ## Bodies -/

def healthBody : Document :=
  .ofMembers [("status", .text "ok")]

def notFoundBody : Document :=
  .ofMembers [("error", .text "not found")]

def readyBody (p : Pool) : Document :=
  .ofMembers [
    ("history", .whole p.store.history.length),
    ("status", .text p.readiness.name)]

def addressBody (address : String) : Document :=
  .ofMembers [("address", .text address)]

/-- The last verdict on each endpoint, in the order of the endpoints. -/
def statusBody (status : StatusMap) : Document :=
  .ofMembers (status.entries.map fun e => (e.1, .text e.2.name))

/-- Tiers, status and lifecycle, with the keys in order. -/
def tiersBody (s : Store) : Document :=
  .ofMembers [
    (Tier.name .default, .ofTexts s.tiers.default),
    (Tier.name .diffAz, .ofTexts s.tiers.diffAz),
    ("lifecycle", .text s.lifecycle.name),
    (Tier.name .sameAz, .ofTexts s.tiers.sameAz),
    ("status", statusBody s.status)]

/-! ## Routes -/

/-- What follows the scheme and the authority of a request target, if it begins with them. -/
def afterAuthority (target : List Char) : List Char :=
  match Text.cut Net.Uri.isSchemeChar target with
  | (_ :: _, ':' :: '/' :: '/' :: rest) =>
    match Text.cut (!Net.Uri.endsAuthority false ·) rest with
    | ([], _) => target
    | (_, rest) => rest
  | _ => target

/-- The path of a request target. -/
def pathOf (target : String) : String :=
  String.ofList ((afterAuthority target.toList).takeWhile fun c => c != '?' && c != '#')

/-- The readiness page; it fails when the pool has failed. -/
def readyPage (p : Pool) : Page :=
  jsonPage (if p.readiness = .failed then 503 else 200) (readyBody p)

/-- The page at a path. Without a recorder the metrics are empty. -/
def route (path : String) (recording : Bool) (p : Pool) : Page × Pool :=
  if path = "/health" ∨ path = "/healthz" then (jsonPage 200 healthBody, p)
  else if path = "/ready" ∨ path = "/readyz" then (readyPage p, p)
  else if path = "/address" then
    let (address, p) := p.pick
    (jsonPage 200 (addressBody address), p)
  else if path = "/tiers" then (⟨200, jsonType, Json.pretty (tiersBody p.store)⟩, p)
  else if path = "/metrics" then
    (⟨200, metricsType, if recording then p.metrics.render else ""⟩, p)
  else (jsonPage 404 notFoundBody, p)

/-- The page for a request target. -/
def serve (target : String) (recording : Bool) (p : Pool) : Page × Pool :=
  route (pathOf target) recording p

/-- Answer a request. -/
def respond (method target : String) (recording : Bool) (p : Pool) : Page × Pool :=
  let (page, p) := serve target recording p
  (page.sentFor method, p)

end Admin

end ZonePool
