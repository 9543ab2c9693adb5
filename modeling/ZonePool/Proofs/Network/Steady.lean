-- SUMMARY: Operations on a network whose peers answer the same whatever was tried before.
import ZonePool.Proofs.Probe.Outcome

/-!
# Steady operations

Where the peers answer independently of earlier attempts, an operation comes to
the same whenever it is carried out, and adds the same attempts and served
requests to the record. Connecting and asking are such operations, and what is
put together from such operations is one.
-/

namespace ZonePool

open Net (Lookup Resolver SocketAddress WebUrl)

/-! ## Independent answers -/

/-- What a network looks like from a pool: what comes of looking hosts up, and what an attempt to
connect meets with. -/
structure Outlook where
  resolver : Resolver
  answer : SocketAddress → Connection

namespace Network

/-- Several attempts one after another. -/
def dialEach (n : Network) (attempts : List SocketAddress) : Network :=
  attempts.foldl (fun n a => (n.dial a).2) n

@[simp] theorem dialEach_nil (n : Network) : n.dialEach [] = n := rfl

@[simp] theorem dialEach_cons (n : Network) (a : SocketAddress) (attempts : List SocketAddress) :
    n.dialEach (a :: attempts) = (n.dial a).2.dialEach attempts := rfl

/-- Whatever attempts come before it, an attempt meets with the answer of its address. -/
structure Answers (n : Network) (outlook : Outlook) : Prop where
  resolver_eq : n.resolver = outlook.resolver
  fst_dialEach : ∀ earlier a, ((n.dialEach earlier).dial a).1 = outlook.answer a

/-- What the network looks like before any further attempt. -/
def outlook (n : Network) : Outlook where
  resolver := n.resolver
  answer a := (n.dial a).1

/-- What an attempt meets with does not depend on earlier attempts. -/
def Independent (n : Network) : Prop :=
  n.Answers n.outlook

variable {n : Network} {outlook : Outlook}

theorem Answers.fst_dial (h : n.Answers outlook) (a : SocketAddress) :
    (n.dial a).1 = outlook.answer a :=
  h.fst_dialEach [] a

theorem Answers.dial (h : n.Answers outlook) (a : SocketAddress) : (n.dial a).2.Answers outlook where
  resolver_eq := (resolver_of_host (n.host_dial a)).trans h.resolver_eq
  fst_dialEach earlier b := h.fst_dialEach (a :: earlier) b

/-- A connection depends on the peers and the links, not on the record. -/
theorem dial_record (n : Network) (dials : List SocketAddress) (hits : List Hit) (a : SocketAddress) :
    { n with dials, hits }.dial a = ((n.dial a).1, { (n.dial a).2 with dials := dials ++ [a], hits }) := by
  simp only [dial, peer?]
  split <;> try rfl
  split <;> rfl

theorem dialEach_record (n : Network) (dials : List SocketAddress) (hits : List Hit)
    (attempts : List SocketAddress) :
    { n with dials, hits }.dialEach attempts =
      { n.dialEach attempts with dials := dials ++ attempts, hits } := by
  induction attempts generalizing n dials with
  | nil => simp
  | cons a attempts ih =>
    rw [dialEach_cons, dialEach_cons, dial_record, ih, List.append_assoc, List.singleton_append]

theorem Answers.record (h : n.Answers outlook) (dials : List SocketAddress) (hits : List Hit) :
    { n with dials, hits }.Answers outlook where
  resolver_eq := h.resolver_eq
  fst_dialEach earlier a := by
    rw [dialEach_record, dial_record]
    exact h.fst_dialEach earlier a

theorem Answers.serve (h : n.Answers outlook) (hit : Hit) : (n.serve hit).Answers outlook :=
  h.record n.dials (n.hits ++ [hit])

theorem Answers.forget (h : n.Answers outlook) : n.forget.Answers outlook :=
  h.record [] []

/-- Peers without a limit. -/
def Unlimited (n : Network) : Prop :=
  ∀ p ∈ n.peers, ∀ limit routes, p.2 ≠ .accepting (some limit) routes

theorem spend_of_unlimited (h : n.Unlimited) (a : SocketAddress) : spend a n.peers = n.peers := by
  refine (List.map_congr_left fun p hp => ?_).trans (List.map_id n.peers)
  split
  · next b limit routes => exact absurd rfl (h _ hp (limit + 1) routes)
  · rfl

theorem dial_of_unlimited (h : n.Unlimited) (a : SocketAddress) :
    (n.dial a).2 = { n with dials := n.dials ++ [a] } := by
  simp only [dial, spend_of_unlimited h]
  split <;> try rfl
  split <;> rfl

theorem dialEach_of_unlimited (h : n.Unlimited) (attempts : List SocketAddress) :
    n.dialEach attempts = { n with dials := n.dials ++ attempts } := by
  induction attempts with
  | nil => simp
  | cons a attempts ih =>
    rw [dialEach_cons, dial_of_unlimited h, n.dialEach_record (n.dials ++ [a]) n.hits, ih,
      List.append_assoc, List.singleton_append]

/-- Peers without a limit answer independently of earlier attempts. -/
theorem Unlimited.independent (h : n.Unlimited) : n.Independent where
  resolver_eq := rfl
  fst_dialEach earlier a := by
    rw [dialEach_of_unlimited h, n.dial_record (n.dials ++ earlier) n.hits a]
    rfl

end Network

/-! ## Steady operations -/

/-- In networks of one outlook, an operation comes to one result and adds one run of attempts and of
served requests to the record, whatever the record is. -/
def Steady {α : Type} (outlook : Outlook) (f : Network → α × Network) : Prop :=
  ∃ result dials hits, ∀ n : Network, n.Answers outlook →
    (f n).1 = result ∧ (f n).2.dials = n.dials ++ dials ∧ (f n).2.hits = n.hits ++ hits ∧
      (f n).2.Answers outlook

namespace Steady

variable {α β : Type} {outlook : Outlook}

theorem pure (x : α) : Steady outlook fun n => (x, n) :=
  ⟨x, [], [], fun _ h => ⟨rfl, (List.append_nil _).symm, (List.append_nil _).symm, h⟩⟩

theorem bind {f : Network → α × Network} {g : α → Network → β × Network} (hf : Steady outlook f)
    (hg : ∀ x, Steady outlook (g x)) : Steady outlook fun n => g (f n).1 (f n).2 := by
  obtain ⟨x, dials, hits, hf⟩ := hf
  obtain ⟨y, later, served, hg⟩ := hg x
  refine ⟨y, dials ++ later, hits ++ served, fun n h => ?_⟩
  obtain ⟨hx, hdials, hhits, hanswers⟩ := hf n h
  obtain ⟨hy, hlater, hserved, hanswers⟩ := hg (f n).2 hanswers
  dsimp only
  rw [hx]
  exact ⟨hy, by rw [hlater, hdials, List.append_assoc], by rw [hserved, hhits, List.append_assoc],
    hanswers⟩

theorem congr {f g : Network → α × Network} (h : ∀ n, n.Answers outlook → f n = g n)
    (hg : Steady outlook g) : Steady outlook f := by
  obtain ⟨x, dials, hits, hg⟩ := hg
  refine ⟨x, dials, hits, fun n hn => ?_⟩
  rw [h n hn]
  exact hg n hn

theorem dial (a : SocketAddress) : Steady outlook (·.dial a) :=
  ⟨outlook.answer a, [a], [], fun n h =>
    ⟨h.fst_dial a, n.dials_dial a, by rw [n.hits_dial, List.append_nil], h.dial a⟩⟩

theorem serve (hit : Hit) (x : α) : Steady outlook fun n => (x, n.serve hit) :=
  ⟨x, [], [hit], fun _ h => ⟨rfl, (List.append_nil _).symm, rfl, h.serve hit⟩⟩

/-- What an operation does to any network, as one with an empty record shows it. -/
theorem eq_forget {f : Network → α × Network} (hf : Steady outlook f) {n b : Network}
    (hn : n.Answers outlook) (hb : b.Answers outlook) :
    (f n).1 = (f b.forget).1 ∧ (f n).2.dials = n.dials ++ (f b.forget).2.dials ∧
      (f n).2.hits = n.hits ++ (f b.forget).2.hits ∧ (f n).2.Answers outlook := by
  obtain ⟨x, dials, hits, hf⟩ := hf
  obtain ⟨hx, hdials, hhits, hanswers⟩ := hf n hn
  obtain ⟨hx', hdials', hhits', -⟩ := hf b.forget hb.forget
  have hempty : (f b.forget).2.dials = dials ∧ (f b.forget).2.hits = hits := ⟨hdials', hhits'⟩
  rw [hempty.1, hempty.2]
  exact ⟨hx.trans hx'.symm, hdials, hhits, hanswers⟩

/-! ## Connecting and asking -/

theorem react (url : WebUrl) (a : SocketAddress) (connection : Connection) :
    Steady outlook (Http.react url a connection) := by
  rcases connection with _ | _ | _ | routes
  · exact pure _
  · exact pure _
  · exact pure _
  · change Steady outlook fun n => Http.react url a (.accepted (some routes)) n
    dsimp only [Http.react]
    split
    · exact pure _
    · exact serve _ _

/-- What comes of a place that was looked up: a connection and what follows it, or nothing. -/
theorem reach (place : Lookup SocketAddress) (failed : String → α) (hanging : α)
    {g : SocketAddress → Connection → Network → α × Network}
    (hg : ∀ a connection, Steady outlook (g a connection)) :
    Steady outlook fun n =>
      match place with
      | .found a => g a (n.dial a).1 (n.dial a).2
      | .failed reason => (failed reason, n)
      | .hanging => (hanging, n) := by
  cases place with
  | found a => exact (dial a).bind (hg a)
  | failed reason => exact pure _
  | hanging => exact pure _

theorem request (url : WebUrl) : Steady outlook (Http.request url) := by
  refine congr (fun n hn => ?_)
    (reach (url.locate outlook.resolver) (fun _ => .error .unreachable) (.error .timedOut) (react url))
  have hrequest := Http.request_eq url n
  rw [hn.resolver_eq] at hrequest
  exact hrequest

theorem connect (method : ProbeMethod) (endpoint : String) :
    Steady outlook (Probe.connect method endpoint) := by
  refine congr (fun n hn => ?_)
    (reach (outlook.resolver.locate endpoint) (fun reason => .error (.probeConnect reason))
      (.error (.probeTimeout Probe.tcpTimeout))
      fun _ connection => pure (Probe.ofConnection method connection))
  have hconnect := Probe.connect_eq method endpoint n
  rw [hn.resolver_eq] at hconnect
  exact hconnect

end Steady

end ZonePool
