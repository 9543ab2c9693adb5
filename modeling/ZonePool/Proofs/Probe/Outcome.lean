-- SUMMARY: What a check comes to, given the client's answer and the plain connection after it.
import ZonePool.Probe
import ZonePool.Proofs.Http.Chain
import ZonePool.Proofs.Network

/-!
# Outcomes of checks

A check over HTTP is one request with its redirects, and the client's answer
decides the rest: whether there is a plain connection, which is made after `404`
and to the endpoint as it is written, and what the check comes to. A check over
TCP is such a connection and nothing else. Where it goes is settled before the
check begins, by the endpoint itself or by the resolver.
-/

namespace ZonePool.Probe

open Net (Resolver SocketAddress WebUrl)
open Text (decodeUtf8Lossy)

/-! ## Plain connections -/

/-- Connect to an endpoint, and succeed by `method` when it accepts. -/
def connect (method : ProbeMethod) (endpoint : String) (n : Network) :
    Except Failure ProbeMethod × Network :=
  match checkTcp endpoint n with
  | (.ok (), n) => (.ok method, n)
  | (.error failure, n) => (.error failure, n)

/-- What an attempt to connect comes to. -/
def ofConnection (method : ProbeMethod) : Connection → Except Failure ProbeMethod
  | .accepted _ => .ok method
  | .refused => .error (.probeConnect "Connection refused (os error 111)")
  | .hanging => .error (.probeTimeout tcpTimeout)

variable {endpoint : String} {method : ProbeMethod}

theorem connect_eq (method : ProbeMethod) (endpoint : String) (n : Network) :
    connect method endpoint n =
      match n.resolver.locate endpoint with
      | .found a => (ofConnection method (n.dial a).1, (n.dial a).2)
      | .failed reason => (.error (.probeConnect reason), n)
      | .hanging => (.error (.probeTimeout tcpTimeout), n) := by
  unfold connect checkTcp
  cases n.resolver.locate endpoint with
  | failed | hanging => rfl
  | found a =>
    dsimp only
    rcases n.dial a with ⟨_ | _ | routes, m⟩ <;> rfl

theorem connect_of_some {a : SocketAddress} (h : SocketAddress.ofText? endpoint = some a)
    (n : Network) :
    connect method endpoint n = (ofConnection method (n.dial a).1, (n.dial a).2) := by
  rw [connect_eq, Resolver.locate_of_some h]

theorem ofConnection_eq_ok_iff {connection : Connection} {other : ProbeMethod} :
    ofConnection method connection = .ok other ↔
      (∃ routes, connection = .accepted routes) ∧ other = method := by
  cases connection <;> simp [ofConnection, eq_comm]

theorem connect_eq_ok_iff {n : Network} {other : ProbeMethod} :
    (connect method endpoint n).1 = .ok other ↔
      (∃ a routes, n.resolver.locate endpoint = .found a ∧ (n.dial a).1 = .accepted routes) ∧
        other = method := by
  rw [connect_eq]
  cases n.resolver.locate endpoint with
  | failed | hanging => simp
  | found a => simp [ofConnection_eq_ok_iff]

/-! ## Whole checks -/

/-- What a check makes of the client's answer. -/
def conclude (endpoint : String) :
    Except HttpFault Http.Response × Network → Except Failure ProbeMethod × Network
  | (.error fault, n) => (.error (.http fault), n)
  | (.ok response, n) =>
    if Http.isSuccess response.status then (.ok .http, n)
    else if response.status = 404 then connect .tcpFallback endpoint n
    else (.error (badAnswer response), n)

theorem check_of_none {p : Probe} (h : p.http = none) (endpoint : String) (n : Network) :
    p.check endpoint n = connect .tcp endpoint n := by
  simp only [check, h]
  rfl

theorem check_of_some {p : Probe} {route : HttpProbe} (h : p.http = some route) (endpoint : String)
    (n : Network) : p.check endpoint n = conclude endpoint (Http.get (route.urlFor endpoint) n) := by
  simp only [check, h, checkHttp]
  rcases Http.get (route.urlFor endpoint) n with ⟨fault | response, m⟩ <;> rfl

/-- The verdict that goes with what a check comes to. -/
def verdictOf : Except Failure ProbeMethod → Verdict
  | .ok _ => .available
  | .error _ => .unavailable

theorem verdictOf_eq_available_iff {result : Except Failure ProbeMethod} :
    verdictOf result = .available ↔ ∃ method, result = .ok method := by
  cases result <;> simp [verdictOf]

/-- A probe makes the same attempts as a check. -/
theorem verdict_eq (p : Probe) (endpoint : String) (n : Network) :
    p.verdict endpoint n = (verdictOf (p.check endpoint n).1, (p.check endpoint n).2) := by
  rw [verdict]
  rcases p.check endpoint n with ⟨failure | method, m⟩ <;> rfl

/-! ## Checks over HTTP -/

theorem isSuccess_iff {status : Nat} :
    Http.isSuccess status = true ↔ 200 ≤ status ∧ status ≤ 299 := by
  simp only [Http.isSuccess, Bool.and_eq_true, decide_eq_true_eq]
  omega

theorem exists_of_status {answer : Except HttpFault Http.Response} {status : Nat}
    (h : answer.toOption.map (·.status) = some status) : ∃ r, answer = .ok r ∧ r.status = status := by
  cases answer with
  | error fault => cases h
  | ok r => exact ⟨r, rfl, Option.some.inj h⟩

/-- What a failure shows of a body: its first characters, or why it cannot be read. -/
def Shows (shown : String) (body : Option (List UInt8)) : Prop :=
  match body with
  | some bytes =>
    shown.toList <+: decodeUtf8Lossy bytes ∧
      shown.toList.length = min 512 (decodeUtf8Lossy bytes).length
  | none => shown = "<read resp error: error decoding response body>"

theorem exists_shows_badAnswer (r : Http.Response) :
    ∃ shown, badAnswer r = .probeStatus r.status shown ∧ Shows shown r.body := by
  refine ⟨_, rfl, ?_⟩
  cases hbody : r.body with
  | none =>
    simp only [Http.Response.text?, hbody, Option.map_none, Shows]
    decide
  | some bytes =>
    simp only [Http.Response.text?, hbody, Option.map_some, Shows, String.toList_ofList]
    exact ⟨List.take_prefix _ _, List.length_take⟩

variable {n : Network} {r : Http.Response}

theorem conclude_of_success (h : 200 ≤ r.status ∧ r.status ≤ 299) :
    conclude endpoint (.ok r, n) = (.ok .http, n) := by
  simp only [conclude, isSuccess_iff.2 h, if_true]

theorem conclude_of_missing (h : r.status = 404) :
    conclude endpoint (.ok r, n) = connect .tcpFallback endpoint n := by
  have hsuccess : Http.isSuccess 404 = false := rfl
  simp only [conclude, h, hsuccess, Bool.false_eq_true, if_false, if_true]

theorem conclude_of_bad (h : ¬(200 ≤ r.status ∧ r.status ≤ 299)) (hmissing : r.status ≠ 404) :
    conclude endpoint (.ok r, n) = (.error (badAnswer r), n) := by
  rw [← isSuccess_iff] at h
  simp only [conclude, h, Bool.false_eq_true, if_false, if_neg hmissing]

theorem conclude_eq_ok_iff {answer : Except HttpFault Http.Response} {method : ProbeMethod} :
    (conclude endpoint (answer, n)).1 = .ok method ↔
      ∃ r, answer = .ok r ∧
        ((200 ≤ r.status ∧ r.status ≤ 299) ∧ method = .http ∨
          r.status = 404 ∧ (connect .tcpFallback endpoint n).1 = .ok method) := by
  cases answer with
  | error fault => simp [conclude]
  | ok r =>
    by_cases hsuccess : 200 ≤ r.status ∧ r.status ≤ 299
    · have hmissing : r.status ≠ 404 := by omega
      simp [conclude_of_success hsuccess, hsuccess, hmissing, eq_comm]
    · by_cases hmissing : r.status = 404
      · simp [conclude_of_missing hmissing, hmissing]
      · simp [conclude_of_bad hsuccess hmissing, hsuccess, hmissing]

theorem http_create (route : HttpProbe) : (create (some route)).http = some route.normalized := rfl

/-- A check over HTTP asks for the health route, follows redirects, and goes by the final answer.
Only `404` is followed by one more attempt to connect, at the endpoint as it is written: at the socket
address that it is, else at what the resolver finds, and with no attempt where it finds nothing. -/
theorem check_http (route : HttpProbe) (endpoint : String) (n : Network) :
    let url := route.normalized.urlFor endpoint
    let answer := (Http.get url n).1
    let m := (Http.get url n).2
    let place := n.resolver.locate endpoint
    let result := ((create (some route)).check endpoint n).1
    let after := ((create (some route)).check endpoint n).2
    (∀ r, answer = .ok r ↔ ∃ first hops reply, WebUrl.read? none url = some (.web first) ∧
      Http.Chain first n hops reply m ∧ hops.length ≤ 10 ∧ r = .ofReply reply) ∧
    (result = .ok .http ↔ ∃ r, answer = .ok r ∧ 200 ≤ r.status ∧ r.status ≤ 299) ∧
    (result = .ok .http → after = m) ∧
    (result = .ok .tcpFallback ↔ ∃ r a routes, answer = .ok r ∧ r.status = 404 ∧
      place = .found a ∧ (m.dial a).1 = .accepted routes) ∧
    (∀ r, answer = .ok r → r.status = 404 →
      (∀ a, place = .found a →
        after = (m.dial a).2 ∧ after.dials = m.dials ++ [a] ∧
        result = ofConnection .tcpFallback (m.dial a).1) ∧
      (∀ reason, place = .failed reason → after = m ∧ result = .error (.probeConnect reason)) ∧
      (place = .hanging → after = m ∧ result = .error (.probeTimeout tcpTimeout))) ∧
    (∀ a, SocketAddress.ofText? endpoint = some a → place = .found a) ∧
    (∀ r, answer = .ok r → ¬(200 ≤ r.status ∧ r.status ≤ 299) → r.status ≠ 404 →
      after = m ∧ ∃ shown, result = .error (.probeStatus r.status shown) ∧ Shows shown r.body) ∧
    (∀ fault, answer = .error fault → after = m ∧ result = .error (.http fault)) ∧
    ((create (some route)).verdict endpoint n).2 = after ∧
    (((create (some route)).verdict endpoint n).1 = .available ↔ ∃ method, result = .ok method) := by
  dsimp only
  rw [verdict_eq, check_of_some (http_create route)]
  have hget := @Http.get_eq_ok_iff (route.normalized.urlFor endpoint) n
  have hresolver := Network.resolver_of_host (Http.host_get (route.normalized.urlFor endpoint) n)
  generalize Http.get (route.normalized.urlFor endpoint) n = got at hget hresolver ⊢
  obtain ⟨answer, m⟩ := got
  dsimp only at hresolver
  rw [← hresolver]
  refine ⟨fun r => ?chain, ?success, ?settled, ?fallback, fun r hr hmissing => ?missing,
    fun a ha => Resolver.locate_of_some ha _, fun r hr hsuccess hmissing => ?bad,
    fun fault hfault => ?fault, rfl, verdictOf_eq_available_iff⟩
  case chain =>
    have hpair : (answer, m) = (.ok r, m) ↔ answer = .ok r := by simp
    exact hpair.symm.trans hget
  case success =>
    rw [conclude_eq_ok_iff]
    refine exists_congr fun r => and_congr_right fun _ => ?_
    rw [connect_eq_ok_iff]
    simp
  case settled =>
    intro hresult
    obtain ⟨r, rfl, hsuccess | ⟨-, hconnect⟩⟩ := conclude_eq_ok_iff.1 hresult
    · rw [conclude_of_success hsuccess.1]
    · cases (connect_eq_ok_iff.1 hconnect).2
  case fallback =>
    rw [conclude_eq_ok_iff]
    simp [connect_eq_ok_iff]
  case missing =>
    cases hr
    rw [conclude_of_missing hmissing, connect_eq]
    refine ⟨fun a ha => ?found, fun reason hfailed => ?failed, fun hhanging => ?hanging⟩
    case found =>
      rw [ha]
      exact ⟨rfl, m.dials_dial a, rfl⟩
    case failed =>
      rw [hfailed]
      exact ⟨rfl, rfl⟩
    case hanging =>
      rw [hhanging]
      exact ⟨rfl, rfl⟩
  case bad =>
    cases hr
    rw [conclude_of_bad hsuccess hmissing]
    obtain ⟨shown, hshown, hshows⟩ := exists_shows_badAnswer r
    exact ⟨rfl, shown, congrArg Except.error hshown, hshows⟩
  case fault =>
    cases hfault
    exact ⟨rfl, rfl⟩

/-- The health route redirects to another peer, where it is missing; the plain connection goes back to
the endpoint, which is written in a short form. -/
theorem check_http_of_redirect :
    let a : SocketAddress := .v4 ⟨127, 0, 0, 1⟩ 80
    let b : SocketAddress := .v4 ⟨10, 0, 0, 2⟩ 80
    let n : Network := { peers := [
      (a, .accepting none (some [("/h", { status := 302, location := some "http://10.0.0.2/x" })])),
      (b, .accepting none (some []))] }
    let p := create (some { path := "/h" })
    SocketAddress.ofText? "127.1:80" = none ∧
      (p.check "127.1:80" n).1 = .ok .tcpFallback ∧
      (p.check "127.1:80" n).2.dials = [a, b, a] ∧
      (p.verdict "127.1:80" n).1 = .available := by
  intro a b n p
  have hstatus : (Http.get "http://127.1:80/h" n).1.toOption.map (·.status) = some 404 := by
    decide +kernel
  have hdials : (Http.get "http://127.1:80/h" n).2.dials = [a, b] := by decide +kernel
  have hdial : ∃ routes, ((Http.get "http://127.1:80/h" n).2.dial a).1 = .accepted routes :=
    ⟨some [("/h", { status := 302, location := some "http://10.0.0.2/x" })], by decide +kernel⟩
  have hplace : n.resolver.locate "127.1:80" = .found a := by decide +kernel
  obtain ⟨r, hr, hmissing⟩ := exists_of_status hstatus
  have hcheck := check_http { path := "/h" } "127.1:80" n
  have hurl : ({ path := "/h" } : HttpProbe).normalized.urlFor "127.1:80" = "http://127.1:80/h" := by
    decide +kernel
  rw [hurl] at hcheck
  obtain ⟨-, -, -, hfallback, hconnects, -, -, -, -, hverdict⟩ := hcheck
  obtain ⟨routes, hroutes⟩ := hdial
  have hresult := hfallback.2 ⟨r, a, routes, hr, hmissing, hplace, hroutes⟩
  refine ⟨by decide +kernel, hresult, ?_, hverdict.2 ⟨_, hresult⟩⟩
  rw [((hconnects r hr hmissing).1 a hplace).2.1, hdials]
  rfl

end ZonePool.Probe
