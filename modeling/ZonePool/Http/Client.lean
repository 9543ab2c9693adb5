-- SUMMARY: Requests for web addresses, with redirects followed.
import ZonePool.Http.Fault
import ZonePool.Http.Status
import ZonePool.Net.WebUrl
import ZonePool.Network

/-!
# Requests

A request looks up the host of its URL, dials the address, a fresh connection
each time, and follows redirects up to a limit. A request that gets no final
answer fails with an `HttpFault`. No peer speaks TLS, so an encrypted request
always fails, but not before its connection is made.
-/

namespace ZonePool.Http

open Net (WebUrl)

/-- A final answer; its body is `none` when it ended too early. -/
structure Response where
  status : Nat
  body : Option (List UInt8)
  deriving DecidableEq, Repr

/-- The text of a body, with replacements where it is no UTF-8. -/
def Response.text? (r : Response) : Option String :=
  r.body.map fun bytes => String.ofList (Text.decodeUtf8Lossy bytes)

/-! ## One request -/

/-- What a peer with routes answers on a target. -/
def answer (routes : Routes) (target : String) : Reply :=
  match routes.find? (·.1 == target) with
  | some route => route.2
  | none => { status := 404, body := "not found".toUTF8.toList }

/-- Ask for a URL once. -/
def request (url : WebUrl) (n : Network) : Except HttpFault Reply × Network :=
  match url.locate n.resolver with
  | .failed _ => (.error .unreachable, n)
  | .hanging => (.error .timedOut, n)
  | .found a =>
    match n.dial a with
    | (.refused, n) => (.error .unreachable, n)
    | (.hanging, n) => (.error .timedOut, n)
    | (.accepted none, n) => (.error .unreachable, n)
    | (.accepted (some routes), n) =>
      if url.encrypted then (.error .unreachable, n)
      else
        let target := String.ofList url.target
        let reply := answer routes target
        let n := n.serve ⟨a, "GET", target⟩
        if isFinal reply.status then (.ok reply, n) else (.error .unreachable, n)

/-- A reply as the client sees it. -/
def Response.ofReply (r : Reply) : Response where
  status := r.status
  body :=
    if isBodiless r.status then some []
    else if r.truncated then none
    else some r.body

/-! ## Redirects -/

/-- How many redirects are followed. -/
def maxRedirects : Nat := 10

/-- Ask for a URL and follow at most `budget` redirects. -/
def follow : Nat → WebUrl → Network → Except HttpFault Response × Network
  | budget, url, n =>
    match request url n with
    | (.error fault, n) => (.error fault, n)
    | (.ok reply, n) =>
      let next :=
        if isRedirect reply.status then reply.location.bind (WebUrl.read? (some url)) else none
      match next with
      | none => (.ok (.ofReply reply), n)
      | some target =>
        match budget with
        | 0 => (.error .tooManyRedirects, n)
        | budget + 1 =>
          match target with
          | .web url => follow budget url n
          | .other => (.error .badUrl, n)

/-- Ask for the URL that a text names. -/
def get (url : String) (n : Network) : Except HttpFault Response × Network :=
  match WebUrl.read? none url with
  | some (.web url) => follow maxRedirects url n
  | _ => (.error .badUrl, n)

end ZonePool.Http
