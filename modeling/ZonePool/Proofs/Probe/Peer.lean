-- SUMMARY: A check over HTTP talks to the peer that a check over TCP of the same endpoint talks to.
import ZonePool.Proofs.Net.WebUrl
import ZonePool.Proofs.Probe.Outcome

/-!
# The peer of an endpoint

An endpoint that is a socket address is read twice: as it is by a plain
connection, and as the authority of the URL of its health route. Both readings
name the same peer, whatever the spelling of the endpoint and whatever path
stands behind it, so that the first attempt of a check and the one that it may
fall back to go to that peer.
-/

namespace ZonePool.Probe

open Net (SocketAddress WebUrl)

variable {endpoint : String} {a : SocketAddress}

theorem dials_connect (h : SocketAddress.ofText? endpoint = some a) (method : ProbeMethod)
    (n : Network) : (connect method endpoint n).2.dials = n.dials ++ [a] := by
  rw [connect_of_some h, n.dials_dial]

/-- The client's answer is followed by one attempt at the endpoint when it is `404`, else by none. -/
theorem dials_conclude (h : SocketAddress.ofText? endpoint = some a)
    (got : Except HttpFault Http.Response × Network) :
    ((∃ r, got.1 = .ok r ∧ r.status = 404) ∧
        (conclude endpoint got).2.dials = got.2.dials ++ [a]) ∨
      (¬(∃ r, got.1 = .ok r ∧ r.status = 404) ∧ (conclude endpoint got).2.dials = got.2.dials) := by
  obtain ⟨fault | r, n⟩ := got
  · exact .inr ⟨by simp, rfl⟩
  · by_cases hmissing : r.status = 404
    · exact .inl ⟨⟨r, rfl, hmissing⟩, by rw [conclude_of_missing hmissing, dials_connect h]⟩
    · refine .inr ⟨by simp [hmissing], ?_⟩
      by_cases hsuccess : 200 ≤ r.status ∧ r.status ≤ 299
      · rw [conclude_of_success hsuccess]
      · rw [conclude_of_bad hsuccess hmissing]

theorem webScheme?_eq {protocol : String} (h : protocol = "http" ∨ protocol = "https") :
    ∃ encrypted, WebUrl.webScheme? protocol.toList = some encrypted := by
  rcases h with rfl | rfl
  · exact ⟨false, rfl⟩
  · exact ⟨true, rfl⟩

/-- The URL of the health route of a socket address names that address, unless it has a scope. So a
check over HTTP first connects to the peer that a check over TCP connects to, and a plain connection
after the answer goes there too; with a scope there is no attempt at all. -/
theorem check_peer (route : HttpProbe) (endpoint : String) (a : SocketAddress) (n : Network)
    (hprotocol : route.normalized.protocol = "http" ∨ route.normalized.protocol = "https")
    (hpath : ∀ c ∈ route.path.toList.head?, c = '/')
    (haddress : SocketAddress.ofText? endpoint = some a) :
    let url := route.normalized.urlFor endpoint
    let answer := (Http.get url n).1
    let asked := (Http.get url n).2.dials
    let checked := ((create (some route)).check endpoint n).2.dials
    ('%' ∉ endpoint.toList →
      (∃ u, WebUrl.read? none url = some (.web u) ∧ u.host = a.host ∧ u.dialPort = a.port.toNat ∧
        ∀ resolver, u.locate resolver = .found a) ∧
      (∃ later, asked = n.dials ++ a :: later)) ∧
    ('%' ∈ endpoint.toList → WebUrl.read? none url = none ∧ checked = n.dials) ∧
    ((∃ r, answer = .ok r ∧ r.status = 404) ∧ checked = asked ++ [a] ∨
      ¬(∃ r, answer = .ok r ∧ r.status = 404) ∧ checked = asked) ∧
    ((create none).check endpoint n).2.dials = n.dials ++ [a] := by
  dsimp only
  obtain ⟨encrypted, hscheme⟩ := webScheme?_eq hprotocol
  have hnormalized : route.normalized.path = route.path := by
    rw [HttpProbe.normalized]
    split <;> rfl
  rw [← hnormalized] at hpath
  have htcp : (create none).check endpoint n = connect .tcp endpoint n := check_of_none rfl endpoint n
  rw [check_of_some (http_create route), htcp, dials_connect haddress]
  refine ⟨fun hscope => ?plain, fun hscope => ?zoned, dials_conclude haddress _, rfl⟩
  case plain =>
    obtain ⟨u, hread, hhost, hport, hu⟩ := WebUrl.exists_read?_of_unscoped hscheme haddress hpath hscope
    obtain ⟨later, hlater⟩ := Http.exists_dials_follow Http.maxRedirects u n
    refine ⟨⟨u, hread, hhost, hport, hu⟩, later, ?_⟩
    rw [HttpProbe.urlFor, Http.get, hread]
    simpa [hu, Net.Lookup.toOption] using hlater
  case zoned =>
    have hread := WebUrl.read?_of_scoped hscheme haddress hpath hscope
    refine ⟨hread, ?_⟩
    rw [HttpProbe.urlFor, Http.get, hread]
    rfl

/-- A dotted group, a port with leading zeros that is the default of the other protocol, and a peer
without the health route. -/
theorem check_peer_of_mapped :
    let a : SocketAddress := .v6 ⟨[0, 0, 0, 0, 0, 0xFFFF, 0x0A00, 0x0001], rfl⟩ 0 443
    let n : Network := { peers := [(a, .accepting none (some []))] }
    (∃ u, WebUrl.read? none "http://[::FFFF:10.0.0.1]:00443/health" = some (.web u) ∧
        ∀ resolver, u.locate resolver = .found a) ∧
      ((create (some { path := "/health" })).check "[::FFFF:10.0.0.1]:00443" n).2.dials = [a, a] ∧
      ((create none).check "[::FFFF:10.0.0.1]:00443" n).2.dials = [a] := by
  intro a n
  have haddress : SocketAddress.ofText? "[::FFFF:10.0.0.1]:00443" = some a := by decide +kernel
  have hscope : '%' ∉ "[::FFFF:10.0.0.1]:00443".toList := by decide
  have hdials : (Http.get "http://[::FFFF:10.0.0.1]:00443/health" n).2.dials = [a] := by decide +kernel
  have hstatus : (Http.get "http://[::FFFF:10.0.0.1]:00443/health" n).1.toOption.map (·.status) =
      some 404 := by
    decide +kernel
  obtain ⟨hplain, -, hchecked, htcp⟩ :=
    check_peer { path := "/health" } "[::FFFF:10.0.0.1]:00443" a n (.inl rfl) (by simp) haddress
  obtain ⟨⟨u, hread, -, -, hu⟩, -⟩ := hplain hscope
  have hurl : ({ path := "/health" } : HttpProbe).normalized.urlFor "[::FFFF:10.0.0.1]:00443" =
      "http://[::FFFF:10.0.0.1]:00443/health" := by
    decide +kernel
  rw [hurl] at hread hchecked
  refine ⟨⟨u, hread, hu⟩, ?_, htcp⟩
  rcases hchecked with ⟨-, hchecked⟩ | ⟨hanswer, -⟩
  · rw [hchecked, hdials]
    rfl
  · exact absurd (exists_of_status hstatus) hanswer

end ZonePool.Probe
