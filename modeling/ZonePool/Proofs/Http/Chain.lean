-- SUMMARY: A request with its redirects as a chain of single requests.
import ZonePool.Proofs.Network.Record

/-!
# Chains of requests

A client that follows redirects sends one request after another, each for the
URL that the reply before it names. A `Chain` is such a sequence that ends with a
reply that names none; following redirects ends well exactly along a chain that
is short enough. Whatever comes later, the first attempt to connect is at the
address of the URL that was asked for, unless its host is not found.
-/

namespace ZonePool.Http

open Net (SocketAddress WebUrl WebTarget)

/-! ## One hop -/

/-- Where a reply to a request sends the client, if anywhere. -/
def hop? (url : WebUrl) (reply : Reply) : Option WebTarget :=
  if isRedirect reply.status then reply.location.bind (WebUrl.read? (some url)) else none

theorem follow_eq (budget : Nat) (url : WebUrl) (n : Network) :
    follow budget url n =
      match request url n with
      | (.error fault, m) => (.error fault, m)
      | (.ok reply, m) =>
        match hop? url reply, budget with
        | none, _ => (.ok (.ofReply reply), m)
        | some _, 0 => (.error .tooManyRedirects, m)
        | some (.web next), budget + 1 => follow budget next m
        | some .other, _ + 1 => (.error .badUrl, m) := by
  conv => lhs; unfold follow
  rcases request url n with ⟨fault | reply, m⟩
  · rfl
  · have hhop : (if isRedirect reply.status then reply.location.bind (WebUrl.read? (some url))
        else none) = hop? url reply := rfl
    dsimp only
    rw [hhop]
    rcases hop? url reply with _ | next | _ <;> cases budget <;> rfl

/-! ## Chains -/

/-- A request and those that its redirects lead to, up to the reply that redirects no more. -/
inductive Chain : WebUrl → Network → List WebUrl → Reply → Network → Prop where
  | last {url : WebUrl} {n m : Network} {reply : Reply} :
    request url n = (.ok reply, m) → hop? url reply = none → Chain url n [] reply m
  | hop {url next : WebUrl} {n m k : Network} {hops : List WebUrl} {reply final : Reply} :
    request url n = (.ok reply, m) → hop? url reply = some (.web next) →
    Chain next m hops final k → Chain url n (next :: hops) final k

/-- Following redirects ends well exactly when they end within the budget. -/
theorem follow_eq_ok_iff {budget : Nat} {url : WebUrl} {n m : Network} {response : Response} :
    follow budget url n = (.ok response, m) ↔
      ∃ hops reply, Chain url n hops reply m ∧ hops.length ≤ budget ∧
        response = .ofReply reply := by
  constructor
  · intro h
    induction budget generalizing url n with
    | zero =>
      rw [follow_eq] at h
      rcases hrequest : request url n with ⟨fault | reply, k⟩ <;> rw [hrequest] at h
      · cases h
      · cases hhop : hop? url reply <;> simp only [hhop] at h <;> cases h
        exact ⟨[], reply, .last hrequest hhop, Nat.le_refl 0, rfl⟩
    | succ budget ih =>
      rw [follow_eq] at h
      rcases hrequest : request url n with ⟨fault | reply, k⟩ <;> rw [hrequest] at h
      · cases h
      · rcases hhop : hop? url reply with _ | next | _ <;> simp only [hhop] at h
        · cases h
          exact ⟨[], reply, .last hrequest hhop, Nat.zero_le _, rfl⟩
        · obtain ⟨hops, final, hchain, hlength, hfinal⟩ := ih h
          exact ⟨next :: hops, final, .hop hrequest hhop hchain, Nat.succ_le_succ hlength, hfinal⟩
        · cases h
  · rintro ⟨hops, reply, hchain, hlength, rfl⟩
    induction hchain generalizing budget with
    | last hrequest hhop =>
      rw [follow_eq, hrequest]
      simp only [hhop]
    | hop hrequest hhop _ ih =>
      obtain ⟨budget, rfl⟩ := Nat.exists_eq_succ_of_ne_zero (Nat.ne_of_gt (Nat.zero_lt_of_lt hlength))
      rw [follow_eq, hrequest]
      simp only [hhop]
      exact ih (Nat.le_of_succ_le_succ hlength)

/-- A URL is answered exactly when it is one of the web and the redirects from it end in time. -/
theorem get_eq_ok_iff {text : String} {n m : Network} {response : Response} :
    get text n = (.ok response, m) ↔
      ∃ url hops reply, WebUrl.read? none text = some (.web url) ∧ Chain url n hops reply m ∧
        hops.length ≤ maxRedirects ∧ response = .ofReply reply := by
  rw [get]
  rcases WebUrl.read? none text with _ | url | _
  · simp
  · simp [follow_eq_ok_iff]
  · simp

/-! ## The first attempt -/

/-- However following redirects ends, the first attempt is at the address of the URL itself. -/
theorem exists_dials_follow (budget : Nat) (url : WebUrl) (n : Network) :
    ∃ later, (follow budget url n).2.dials =
      n.dials ++ (url.locate n.resolver).toOption.toList ++ later := by
  induction budget generalizing url n with
  | zero =>
    refine ⟨[], ?_⟩
    rw [List.append_nil, ← dials_request, follow_eq]
    rcases request url n with ⟨fault | reply, m⟩
    · rfl
    · dsimp only
      cases hop? url reply <;> rfl
  | succ budget ih =>
    rw [← dials_request, follow_eq]
    rcases request url n with ⟨fault | reply, m⟩
    · exact ⟨[], (List.append_nil _).symm⟩
    · dsimp only
      rcases hop? url reply with _ | next | _
      · exact ⟨[], (List.append_nil _).symm⟩
      · obtain ⟨later, hlater⟩ := ih next m
        exact ⟨(next.locate m.resolver).toOption.toList ++ later,
          by rw [← List.append_assoc, ← hlater]⟩
      · exact ⟨[], (List.append_nil _).symm⟩

end ZonePool.Http
