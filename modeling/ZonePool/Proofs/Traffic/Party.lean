-- SUMMARY: Callers, first cycle and loop of a monitor, each of them one atomic step at a time.
import ZonePool.Proofs.Pool.InFlight

/-!
# Traffic

A monitor is started, stopped and reset by any number of callers while its own
cycles and those of its callers are under way. Each of them is a `Party`, and
all that the parties share is the store and the request to stop. A party takes
one step whenever it locks the store, looks at the request or sets it, or is
done waiting for a probe or for the clock. Between two steps of one party
anything may be done by the others, so every interleaving is a list of steps.
-/

namespace ZonePool

namespace Traffic

/-! ## Parties -/

/-- What a caller may ask of a pool or its monitor. -/
inductive Call where
  | start
  /-- What closing does, and the first part of shutting down. -/
  | stop
  /-- Wait for the loop to end, which is the other part of shutting down. -/
  | join
  /-- Run one cycle apart from the monitor's own. -/
  | runCycle
  | reset (addresses : List String)
  | resync (zones : Zones)

/-- For whom a cycle runs. -/
inductive Runner where
  | starter
  | loop
  /-- A caller that asked for the cycle. -/
  | guest
  deriving DecidableEq

/-- A cycle under way, and how many resets had been made when it took its snapshot. -/
structure Flight where
  cycle : Cycle
  resets : Nat

/-- What a party is about to do. -/
inductive Party where
  | calling (call : Call)
  /-- Take the snapshot of a cycle. -/
  | opening (runner : Runner)
  /-- End the probe of some endpoint, or commit when none is left. -/
  | probing (runner : Runner) (flight : Flight)
  /-- After the first cycle, look whether a stop was requested. -/
  | looking
  /-- Spawn the loop and return. -/
  | spawning
  /-- As the loop, wait for the request to stop or else for the next tick. -/
  | waiting
  /-- After stopping the store, request the end and return. -/
  | cancelling (first : Bool)
  | done

/-- What is seen of a step. -/
inductive Note where
  /-- A start returns; `true` when it was the one that started the monitor. -/
  | started (first : Bool)
  /-- A stop returns; `true` when it was the one that stopped the store. -/
  | stopped (first : Bool)
  | spawned
  | ticked
  /-- A cycle ends, and the store takes this status of it or nothing. -/
  | committed (runner : Runner) (flight : Flight) (status : Option StatusMap)
  | reset

/-- What the parties share, with the number of resets so far. -/
structure Shared where
  store : Store
  probe : Probe
  cancelled : Bool := false
  resets : Nat := 0

/-! ## Steps of a party -/

/-- What a party does after its cycle. -/
def Runner.afterCycle : Runner → Party
  | .starter => .looking
  | .loop => .waiting
  | .guest => .done

/-- The first step of a call. -/
def Call.next (s : Shared) : Call → List Note × Shared × Party
  | .start =>
    let (first, store) := s.store.start
    if first then ([], { s with store }, .opening .starter) else ([.started false], s, .done)
  | .stop =>
    let (first, store) := s.store.stop
    ([], { s with store }, .cancelling first)
  | .join => ([], s, .done)
  | .runCycle => ([], s, .opening .guest)
  | .reset addresses =>
    ([.reset], { s with store := s.store.reset addresses, resets := s.resets + 1 }, .done)
  | .resync zones => ([], { s with store := s.store.apply (.resync zones) }, .done)

/-- The next step of a party; if the party is probing, the probe of the endpoint ends in the
network. -/
def Party.next (s : Shared) (endpoint : String) (n : Network) :
    Party → List Note × Shared × Party
  | .calling call => call.next s
  | .opening runner => ([], s, .probing runner ⟨.begin s.store, s.resets⟩)
  | .probing runner flight =>
    if flight.cycle.pending = [] then
      let (installed, store) := s.store.commit flight.cycle.status
      ([.committed runner flight (if installed then some store.status else none)],
        { s with store }, runner.afterCycle)
    else
      ([], s, .probing runner { flight with cycle := flight.cycle.probeOne s.probe endpoint n })
  | .looking => if s.cancelled then ([.started true], s, .done) else ([], s, .spawning)
  | .spawning => ([.spawned, .started true], s, .waiting)
  | .waiting => if s.cancelled then ([], s, .done) else ([.ticked], s, .opening .loop)
  | .cancelling first => ([.stopped first], { s with cancelled := true }, .done)
  | .done => ([], s, .done)

/-- All that the next step of a party may be. -/
inductive Takes (s : Shared) : Party → List Note → Shared → Party → Prop where
  | start : s.store.lifecycle = .idle →
    Takes s (.calling .start) [] { s with store := { s.store with lifecycle := .running } }
      (.opening .starter)
  | startLate : s.store.lifecycle ≠ .idle → Takes s (.calling .start) [.started false] s .done
  | stop : s.store.lifecycle ≠ .stopped →
    Takes s (.calling .stop) [] { s with store := { s.store with lifecycle := .stopped } }
      (.cancelling true)
  | stopLate : s.store.lifecycle = .stopped →
    Takes s (.calling .stop) [] s (.cancelling false)
  | join : Takes s (.calling .join) [] s .done
  | runCycle : Takes s (.calling .runCycle) [] s (.opening .guest)
  | reset (addresses : List String) :
    Takes s (.calling (.reset addresses)) [.reset]
      { s with store := s.store.reset addresses, resets := s.resets + 1 } .done
  | resync (zones : Zones) :
    Takes s (.calling (.resync zones)) [] { s with store := s.store.apply (.resync zones) } .done
  | opening (runner : Runner) :
    Takes s (.opening runner) [] s (.probing runner ⟨.begin s.store, s.resets⟩)
  | probe (runner : Runner) (flight : Flight) (endpoint : String) (n : Network) :
    flight.cycle.pending ≠ [] →
    Takes s (.probing runner flight) [] s
      (.probing runner { flight with cycle := flight.cycle.probeOne s.probe endpoint n })
  | commit (runner : Runner) (flight : Flight) :
    flight.cycle.pending = [] → s.store.lifecycle ≠ .stopped →
    Takes s (.probing runner flight)
      [.committed runner flight (some (s.store.kept flight.cycle.status))]
      { s with store := s.store.apply (.commit flight.cycle.status) } runner.afterCycle
  | discard (runner : Runner) (flight : Flight) :
    flight.cycle.pending = [] → s.store.lifecycle = .stopped →
    Takes s (.probing runner flight) [.committed runner flight none] s runner.afterCycle
  | giveUp : s.cancelled = true → Takes s .looking [.started true] s .done
  | goOn : s.cancelled = false → Takes s .looking [] s .spawning
  | spawn : Takes s .spawning [.spawned, .started true] s .waiting
  | rest : s.cancelled = true → Takes s .waiting [] s .done
  | tick : s.cancelled = false → Takes s .waiting [.ticked] s (.opening .loop)
  | cancel (first : Bool) :
    Takes s (.cancelling first) [.stopped first] { s with cancelled := true } .done
  | idle : Takes s .done [] s .done

theorem Call.takes_next (s : Shared) (call : Call) :
    Takes s (.calling call) (call.next s).1 (call.next s).2.1 (call.next s).2.2 := by
  cases call with
  | start =>
    by_cases hidle : s.store.lifecycle = .idle
    · simp only [next, Store.start_of_idle hidle, if_true]
      exact .start hidle
    · simp only [next, Store.start_of_not_idle hidle]
      exact .startLate hidle
  | stop =>
    by_cases hstopped : s.store.lifecycle = .stopped
    · have hstop : s.store.stop = (false, s.store) := by simp [Store.stop, hstopped]
      simp only [next, hstop]
      exact .stopLate hstopped
    · have hfirst : s.store.stop.1 = true := by
        unfold Store.stop
        split
        · next h => exact absurd h hstopped
        · rfl
      simp only [next, hfirst, Store.stop_eq]
      exact .stop hstopped
  | join => exact .join
  | runCycle => exact .runCycle
  | reset addresses => exact .reset addresses
  | resync zones => exact .resync zones

theorem Party.takes_next (s : Shared) (endpoint : String) (n : Network) (party : Party) :
    Takes s party (party.next s endpoint n).1 (party.next s endpoint n).2.1
      (party.next s endpoint n).2.2 := by
  cases party with
  | calling call => exact call.takes_next s
  | opening runner => exact .opening runner
  | probing runner flight =>
    by_cases hpending : flight.cycle.pending = []
    · by_cases hstopped : s.store.lifecycle = .stopped
      · have hdiscard := Takes.discard runner flight hpending hstopped
        simpa [next, hpending, Store.commit_of_stopped hstopped] using hdiscard
      · have hcommit := Takes.commit runner flight hpending hstopped
        simpa [next, hpending, Store.apply, Store.commit_of_not_stopped hstopped] using hcommit
    · simp only [next, if_neg hpending]
      exact .probe runner flight endpoint n hpending
  | looking =>
    cases hcancelled : s.cancelled with
    | true =>
      simp only [next, hcancelled, if_true]
      exact .giveUp hcancelled
    | false =>
      simp only [next, hcancelled]
      exact .goOn hcancelled
  | spawning => exact .spawn
  | waiting =>
    cases hcancelled : s.cancelled with
    | true =>
      simp only [next, hcancelled, if_true]
      exact .rest hcancelled
    | false =>
      simp only [next, hcancelled]
      exact .tick hcancelled
  | cancelling first => exact .cancel first
  | done => exact .idle

end Traffic

end ZonePool
