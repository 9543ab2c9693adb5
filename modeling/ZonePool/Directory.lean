-- SUMMARY: Asking a directory for its instances, and one round of resync.
import ZonePool.Http.Client
import ZonePool.Pool

/-!
# The directory

A directory answers a request with its instances. A round of resync asks it and
applies what it says to a pool; a round that fails on the way changes nothing
but the count of such rounds.
-/

namespace ZonePool

/-- A directory, by the URL that is asked. -/
structure Directory where
  url : String
  deriving DecidableEq, Repr

namespace Directory

/-- The directory at a URL; one without a scheme of the web is reached without encryption. -/
def ofUrl (url : String) : Directory :=
  if "http://".isPrefixOf url || "https://".isPrefixOf url then ⟨url⟩ else ⟨"http://" ++ url⟩

/-- How a failure begins that is about the answer itself. The message goes on with the words of the
decoder, which are left out. -/
def decodeDetail : String := "decode instances: "

/-- The instances in the body of an answer. -/
def instances? (body : String) : Except Failure (List Instance) :=
  match Instance.parse? body with
  | some instances => .ok instances
  | none => .error (.directory decodeDetail)

/-- The failure of an answer that is no success. -/
def badAnswer (r : Http.Response) : Failure :=
  .directory ("non-200 response: status=" ++ Http.statusLine r.status ++ ", body=" ++
    r.text?.getD "")

/-- Ask for the instances. -/
def fetch (d : Directory) (n : Network) : Except Failure (List Instance) × Network :=
  match Http.get d.url n with
  | (.error fault, n) => (.error (.http fault), n)
  | (.ok response, n) =>
    if Http.isSuccess response.status then
      match response.text? with
      | none => (.error (.http .cutShort), n)
      | some body => (instances? body, n)
    else (.error (badAnswer response), n)

end Directory

/-- One round of resync with a directory. -/
def Pool.resyncFrom (p : Pool) (d : Directory) (n : Network) :
    Except Failure (List Overwrite) × Pool × Network :=
  match d.fetch n with
  | (.error failure, n) => (.error failure, p.countResync .fetchError, n)
  | (.ok instances, n) =>
    let (result, p) := p.resync instances
    (result, p, n)

end ZonePool
