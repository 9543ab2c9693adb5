-- SUMMARY: The service endpoint of an instance is the one that its last URI of the service names.
import ZonePool.Instance
import ZonePool.Proofs.Net.RestUri

/-!
# The endpoint of an instance

An instance lists URIs of several schemes, and some that are no URIs at all. Of
those that name a service endpoint the last one counts, whatever stands before
and behind it; and what it says is spelled once and for all.
-/

namespace ZonePool.Instance

open Net.RestUri (endpoint? Names writeEndpoint endpoint?_eq_some_iff endpoint?_eq_none_iff
  endpoint?_endpoint)

/-! ## Lists of URIs -/

/-- Looking for an endpoint from the end on. -/
theorem endpointOf_eq (uris : List String) : endpointOf uris = uris.reverse.findSome? endpoint? := by
  have hfold : ∀ found, uris.foldl (fun found uri => (endpoint? uri).or found) found =
      (uris.reverse.findSome? endpoint?).or found := by
    induction uris with
    | nil => simp
    | cons uri uris ih =>
      intro found
      rw [List.foldl_cons, ih, List.reverse_cons, List.findSome?_append, Option.or_assoc]
      simp
  rw [endpointOf, hfold, Option.or_none]

/-- What stands behind other URIs decides, if it names an endpoint. -/
theorem endpointOf_append (xs ys : List String) :
    endpointOf (xs ++ ys) = (endpointOf ys).or (endpointOf xs) := by
  simp only [endpointOf_eq, List.reverse_append, List.findSome?_append]

theorem endpointOf_singleton (uri : String) : endpointOf [uri] = endpoint? uri := by
  simp [endpointOf_eq]

theorem endpointOf_eq_none_iff {uris : List String} :
    endpointOf uris = none ↔ ∀ uri ∈ uris, endpoint? uri = none := by
  simp [endpointOf_eq]

theorem endpointOf_eq_some_iff {uris : List String} {endpoint : String} :
    endpointOf uris = some endpoint ↔
      ∃ before uri after, uris = before ++ uri :: after ∧ endpoint? uri = some endpoint ∧
        ∀ later ∈ after, endpoint? later = none := by
  rw [endpointOf_eq, List.findSome?_eq_some_iff]
  constructor
  · rintro ⟨after, uri, before, hsplit, huri, hafter⟩
    refine ⟨before.reverse, uri, after.reverse, ?_, huri, by simpa using hafter⟩
    simpa using congrArg List.reverse hsplit
  · rintro ⟨before, uri, after, rfl, huri, hafter⟩
    exact ⟨after.reverse, uri, before.reverse, by simp, huri, by simpa using hafter⟩

/-! ## One instance -/

/-- The endpoint of an instance is the host, with the port if one is given, of the last of its URIs
that names a host under the scheme of the service, and there is none exactly when no URI does. So of
two lists the second one decides unless it has no endpoint. A URI of the endpoint itself names just
this endpoint. -/
theorem restEndpoint_of_uris (i : Instance) :
    (∀ endpoint, i.restEndpoint = some endpoint ↔
      ∃ before uri after host port, i.endpoints = before ++ uri :: after ∧ Names uri host port ∧
        endpoint = String.ofList (writeEndpoint host port) ∧
        ∀ later ∈ after, ∀ host port, ¬Names later host port) ∧
    (i.restEndpoint = none ↔ ∀ uri ∈ i.endpoints, ∀ host port, ¬Names uri host port) ∧
    (∀ xs ys, restEndpoint { i with endpoints := xs ++ ys } =
      (restEndpoint { i with endpoints := ys }).or (restEndpoint { i with endpoints := xs })) ∧
    ∀ endpoint, i.restEndpoint = some endpoint →
      restEndpoint { endpoints := ["rest://" ++ endpoint] } = some endpoint := by
  refine ⟨fun endpoint => ?last, ?none, fun xs ys => endpointOf_append xs ys,
    fun endpoint hendpoint => ?again⟩
  case last =>
    simp only [restEndpoint, endpointOf_eq_some_iff, endpoint?_eq_some_iff, endpoint?_eq_none_iff]
    constructor
    · rintro ⟨before, uri, after, hsplit, ⟨host, port, hnames, hendpoint⟩, hafter⟩
      exact ⟨before, uri, after, host, port, hsplit, hnames, hendpoint, hafter⟩
    · rintro ⟨before, uri, after, host, port, hsplit, hnames, hendpoint, hafter⟩
      exact ⟨before, uri, after, hsplit, ⟨host, port, hnames, hendpoint⟩, hafter⟩
  case none => simp only [restEndpoint, endpointOf_eq_none_iff, endpoint?_eq_none_iff]
  case again =>
    obtain ⟨before, uri, after, -, huri, -⟩ := endpointOf_eq_some_iff.1 hendpoint
    rw [restEndpoint, endpointOf_singleton]
    exact endpoint?_endpoint huri

/-- An address in brackets with credentials and leading zeros, before URIs that name no endpoint; and
a host outside ASCII. -/
theorem restEndpoint_of_uris_of_spellings :
    let i : Instance := { endpoints := [
      "rest://10.0.0.1:1", "REST://u@v@[2001:DB8:0:0::1]:0080/x?y", "rest://:80", "grpc://a:1", "é"] }
    let j : Instance := { endpoints := ["rest://é%20:"] }
    i.restEndpoint = some "[2001:db8::1]:80" ∧
      restEndpoint { endpoints := ["rest://[2001:db8::1]:80"] } = some "[2001:db8::1]:80" ∧
      j.restEndpoint = some "%C3%A9%20" ∧
      restEndpoint { endpoints := ["rest://%C3%A9%20"] } = some "%C3%A9%20" := by
  intro i j
  have hi : i.restEndpoint = some "[2001:db8::1]:80" := by decide +kernel
  have hj : j.restEndpoint = some "%C3%A9%20" := by decide +kernel
  exact ⟨hi, (restEndpoint_of_uris i).2.2.2 _ hi, hj, (restEndpoint_of_uris j).2.2.2 _ hj⟩

end ZonePool.Instance
