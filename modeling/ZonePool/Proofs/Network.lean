-- SUMMARY: Nothing that a pool does over its network changes the host.
import ZonePool.Directory
import ZonePool.Monitor

/-!
# The host of a pool

Connections come and go, and peers spend the ones they accept, but whether the
links of the host are up, and what it finds when it looks up a name, is not for a
pool to change. The equations follow the calls, from one attempt to connect up to
whole cycles and rounds.
-/

namespace ZonePool

/-- What a network takes over from the host: its links and its resolver. -/
def Network.host (n : Network) : Bool × Net.Resolver :=
  (n.linked, n.resolver)

theorem Network.linked_of_host {n m : Network} (h : m.host = n.host) : m.linked = n.linked :=
  congrArg Prod.fst h

theorem Network.resolver_of_host {n m : Network} (h : m.host = n.host) : m.resolver = n.resolver :=
  congrArg Prod.snd h

/-! ## Requests -/

theorem Network.host_dial (n : Network) (a : Net.SocketAddress) :
    (n.dial a).2.host = n.host := by
  unfold dial
  dsimp only
  split
  · rfl
  · rfl
  · rfl
  · split <;> rfl

namespace Http

theorem host_request (url : Net.WebUrl) (n : Network) : (request url n).2.host = n.host := by
  unfold request
  cases url.locate n.resolver with
  | failed | hanging => rfl
  | found a =>
    have hdial := n.host_dial a
    dsimp only
    generalize n.dial a = result at hdial ⊢
    obtain ⟨connection, n'⟩ := result
    cases connection with
    | refused | hanging => exact hdial
    | accepted routes =>
      cases routes with
      | none => exact hdial
      | some routes =>
        dsimp only
        split
        · exact hdial
        · split <;> exact hdial

theorem host_follow (budget : Nat) (url : Net.WebUrl) (n : Network) :
    (follow budget url n).2.host = n.host := by
  induction budget using Nat.strongRecOn generalizing url n with
  | ind budget ih =>
    have hrequest := host_request url n
    unfold follow
    generalize request url n = result at hrequest ⊢
    obtain ⟨reply | fault, n'⟩ := result
    · exact hrequest
    · dsimp only
      split
      · exact hrequest
      · cases budget with
        | zero => exact hrequest
        | succ budget =>
          dsimp only
          split
          · exact (ih budget (Nat.lt_succ_self budget) _ n').trans hrequest
          · exact hrequest

theorem host_get (url : String) (n : Network) : (get url n).2.host = n.host := by
  unfold get
  split
  · exact host_follow _ _ n
  · rfl

end Http

/-! ## Cycles -/

namespace Probe

theorem host_checkTcp (endpoint : String) (n : Network) :
    (checkTcp endpoint n).2.host = n.host := by
  unfold checkTcp
  cases n.resolver.locate endpoint with
  | failed | hanging => rfl
  | found a =>
    have hdial := n.host_dial a
    dsimp only
    generalize n.dial a = result at hdial ⊢
    obtain ⟨connection, n'⟩ := result
    cases connection <;> exact hdial

theorem host_checkHttp (route : HttpProbe) (endpoint : String) (n : Network) :
    (checkHttp route endpoint n).2.host = n.host := by
  have hget := Http.host_get (route.urlFor endpoint) n
  unfold checkHttp
  generalize Http.get (route.urlFor endpoint) n = result at hget ⊢
  obtain ⟨fault | response, n'⟩ := result
  · exact hget
  · have hplain := host_checkTcp endpoint n'
    dsimp only
    split
    · exact hget
    · split
      · generalize checkTcp endpoint n' = plain at hplain ⊢
        obtain ⟨failure | _, n''⟩ := plain <;> exact hplain.trans hget
      · exact hget

theorem host_check (p : Probe) (endpoint : String) (n : Network) :
    (p.check endpoint n).2.host = n.host := by
  unfold check
  cases p.http with
  | some route => exact host_checkHttp route endpoint n
  | none =>
    have hplain := host_checkTcp endpoint n
    generalize checkTcp endpoint n = plain at hplain ⊢
    obtain ⟨failure | _, n'⟩ := plain <;> exact hplain

theorem host_verdict (p : Probe) (endpoint : String) (n : Network) :
    (p.verdict endpoint n).2.host = n.host := by
  have hcheck := p.host_check endpoint n
  unfold verdict
  generalize p.check endpoint n = result at hcheck ⊢
  obtain ⟨failure | method, n'⟩ := result <;> exact hcheck

end Probe

namespace Cycle

theorem host_probeAll (p : Probe) (endpoints : List String) (n : Network) :
    (probeAll p endpoints n).2.host = n.host := by
  induction endpoints generalizing n with
  | nil => rfl
  | cons endpoint rest ih => exact (ih _).trans (p.host_verdict endpoint n)

theorem host_run (p : Probe) (c : Cycle) (n : Network) : (c.run p n).2.host = n.host :=
  host_probeAll p c.pending n

theorem host_runUntilHeld (p : Probe) (slots : Nat) (endpoints : List String) (n : Network) :
    (runUntilHeld p slots endpoints n).2.2.2.host = n.host := by
  induction endpoints generalizing slots n with
  | nil => rfl
  | cons endpoint rest ih =>
    have hcheck := p.host_check endpoint n
    unfold runUntilHeld
    generalize p.check endpoint n = result at hcheck ⊢
    obtain ⟨failure | method, n'⟩ := result
    · dsimp only
      split
      · split
        · exact hcheck
        · exact (ih _ n').trans hcheck
      · exact (ih _ n').trans hcheck
    · exact (ih _ n').trans hcheck

theorem host_hold (p : Probe) (slots : Nat) (c : Cycle) (n : Network) :
    (c.hold p slots n).2.2.host = n.host :=
  host_runUntilHeld p slots c.pending n

end Cycle

namespace Monitor

theorem host_holdStart (m : Monitor) (n : Network) : (m.holdStart n).2.2.host = n.host := by
  unfold holdStart
  split
  · rfl
  · split
    · rfl
    · exact Cycle.host_hold _ _ _ n

theorem host_finishStart (m : Monitor) (n : Network) :
    (m.finishStart n).2.2.host = n.host := by
  unfold finishStart
  split
  · rfl
  · exact Cycle.host_run _ _ n

theorem host_start (m : Monitor) (n : Network) : (m.start n).2.2.host = n.host := by
  have hhold := m.host_holdStart n
  unfold start
  generalize m.holdStart n = result at hhold ⊢
  obtain ⟨_ | held, m', n'⟩ := result
  · exact hhold
  · exact (m'.host_finishStart n').trans hhold

theorem host_holdTick (m : Monitor) (n : Network) : (m.holdTick n).2.2.host = n.host := by
  unfold holdTick
  split
  · rfl
  · split
    · exact Cycle.host_hold _ _ _ n
    · rfl

theorem host_finishTick (m : Monitor) (n : Network) : (m.finishTick n).2.2.host = n.host := by
  unfold finishTick
  split
  · exact Cycle.host_run _ _ n
  · rfl

end Monitor

theorem Pool.host_launch (addresses : List String) (options : PoolOptions) (env : Environment)
    (n : Network) : (launch addresses options env n).2.host = n.host :=
  Monitor.host_start (create addresses options env).monitor n

/-! ## Rounds -/

theorem Directory.host_fetch (d : Directory) (n : Network) :
    (d.fetch n).2.host = n.host := by
  have hget := Http.host_get d.url n
  unfold fetch
  generalize Http.get d.url n = result at hget ⊢
  obtain ⟨fault | response, n'⟩ := result
  · exact hget
  · dsimp only
    split
    · split <;> exact hget
    · exact hget

theorem Pool.host_resyncFrom (p : Pool) (d : Directory) (n : Network) :
    (p.resyncFrom d n).2.2.host = n.host := by
  have hfetch := d.host_fetch n
  unfold resyncFrom
  generalize d.fetch n = result at hfetch ⊢
  obtain ⟨failure | instances, n'⟩ := result <;> exact hfetch

end ZonePool
