-- SUMMARY: One connectivity check of an endpoint, over TCP or HTTP.
import ZonePool.Failure
import ZonePool.Http.Client
import ZonePool.Verdict

/-!
# Probes

A probe either connects to an endpoint or asks its health route over HTTP. On
the HTTP way an endpoint without that route still counts when it accepts a
plain connection; any other answer than success is a failure that shows the
beginning of the answer.
-/

namespace ZonePool

/-! ## Settings -/

/-- The health route to ask for: the protocol before an endpoint and the path after it. -/
structure HttpProbe where
  protocol : String := "http"
  path : String := ""
  deriving DecidableEq, Repr

namespace HttpProbe

/-- The same route, with the default protocol in place of an empty one. -/
def normalized (p : HttpProbe) : HttpProbe :=
  if p.protocol.isEmpty then { p with protocol := "http" } else p

/-- The URL of the health route of an endpoint. -/
def urlFor (p : HttpProbe) (endpoint : String) : String :=
  p.protocol ++ "://" ++ endpoint ++ p.path

end HttpProbe

/-- How endpoints are checked: over HTTP when there is a health route. -/
structure Probe where
  http : Option HttpProbe := none
  deriving DecidableEq, Repr

/-- How a check succeeded. -/
inductive ProbeMethod where
  | tcp
  | http
  /-- The health route is missing and a plain connection was accepted. -/
  | tcpFallback
  deriving DecidableEq, Repr

namespace Probe

/-- The probe with the given health route, if any. -/
def create (http : Option HttpProbe) : Probe :=
  ⟨http.map (·.normalized)⟩

/-- How long a plain connection may take. -/
def tcpTimeout : Span := .ofSecs 1

/-- How many characters of an answer a failure shows. -/
def maxBodyChars : Nat := 512

/-- What a failure shows of an answer whose body cannot be read. -/
def unreadableBody : String :=
  "<read resp error: " ++ HttpFault.message .cutShort ++ ">"

/-! ## Checks -/

/-- Connect to an endpoint. -/
def checkTcp (endpoint : String) (n : Network) : Except Failure Unit × Network :=
  match n.resolver.locate endpoint with
  | .failed reason => (.error (.probeConnect reason), n)
  | .hanging => (.error (.probeTimeout tcpTimeout), n)
  | .found a =>
    match n.dial a with
    | (.refused, n) => (.error (.probeConnect "Connection refused (os error 111)"), n)
    | (.hanging, n) => (.error (.probeTimeout tcpTimeout), n)
    | (.accepted _, n) => (.ok (), n)

/-- The failure of an answer that is neither success nor `404`. -/
def badAnswer (r : Http.Response) : Failure :=
  .probeStatus r.status <|
    match r.text? with
    | some text => String.ofList (text.toList.take maxBodyChars)
    | none => unreadableBody

/-- Ask for the health route of an endpoint. -/
def checkHttp (route : HttpProbe) (endpoint : String) (n : Network) :
    Except Failure ProbeMethod × Network :=
  match Http.get (route.urlFor endpoint) n with
  | (.error fault, n) => (.error (.http fault), n)
  | (.ok response, n) =>
    if Http.isSuccess response.status then (.ok .http, n)
    else if response.status = 404 then
      match checkTcp endpoint n with
      | (.ok (), n) => (.ok .tcpFallback, n)
      | (.error failure, n) => (.error failure, n)
    else (.error (badAnswer response), n)

/-- Check an endpoint the configured way. -/
def check (p : Probe) (endpoint : String) (n : Network) : Except Failure ProbeMethod × Network :=
  match p.http with
  | some route => checkHttp route endpoint n
  | none =>
    match checkTcp endpoint n with
    | (.ok (), n) => (.ok .tcp, n)
    | (.error failure, n) => (.error failure, n)

/-- The verdict of a check. -/
def verdict (p : Probe) (endpoint : String) (n : Network) : Verdict × Network :=
  match p.check endpoint n with
  | (.ok _, n) => (.available, n)
  | (.error _, n) => (.unavailable, n)

end Probe

end ZonePool
