-- SUMMARY: A pool of addresses: its members, its picks, its resyncs and its monitor.
import ZonePool.Monitor
import ZonePool.Readiness
import ZonePool.Selection
import ZonePool.Zones

/-!
# The pool

A pool of the addresses of one service. It hands out addresses in turn from the
most preferred tier with an available member, takes new members from its caller
or from a directory, and has its members probed by a monitor.
-/

namespace ZonePool

/-- What a pool is made with besides its addresses. -/
structure PoolOptions where
  http : Option HttpProbe := none
  /-- The first members of `DiffAz`. -/
  diffAz : List String := []
  /-- Zero and none leave the interval to the environment. -/
  checkInterval : Option Span := none
  concurrency : Nat := 1
  deriving DecidableEq, Repr

structure Pool where
  monitor : Monitor
  turn : Turn := {}

namespace Pool

/-! ## Views -/

def store (p : Pool) : Store := p.monitor.store

def metrics (p : Pool) : Metrics := p.monitor.metrics

/-- The addresses that the next pick chooses from. -/
def candidates (p : Pool) : List String :=
  p.store.tiers.candidates p.store.status

def readiness (p : Pool) : Readiness :=
  .ofHistory p.store.history

def checkInterval (p : Pool) : Span := p.monitor.interval

/-! ## Changing parts -/

def withStore (p : Pool) (store : Store) : Pool :=
  { p with monitor := { p.monitor with store } }

def withMetrics (p : Pool) (metrics : Metrics) : Pool :=
  { p with monitor := { p.monitor with metrics } }

/-- Note the sizes of the tiers. -/
def noteTiers (p : Pool) : Pool :=
  p.withMetrics (p.metrics.noteTiers p.store.tiers)

/-- Count a resync. -/
def countResync (p : Pool) (outcome : ResyncOutcome) : Pool :=
  p.withMetrics (p.metrics.countResync outcome)

/-! ## Members -/

/-- Replace the members of `Default` and forget the other tiers, the status and the history. -/
def reset (p : Pool) (addresses : List String) : Pool :=
  (p.withStore (p.store.reset addresses)).noteTiers

/-- Take the zone tiers from the instances of a directory. Without a service endpoint among them
nothing changes; otherwise the answer names the zones that were overwritten. -/
def resync (p : Pool) (instances : List Instance) : Except Failure (List Overwrite) × Pool :=
  let zones := Zones.ofInstances instances
  if zones.isEmpty then (.error .noUsableEndpoints, p.countResync .error)
  else
    let c := Classification.ofZones zones p.store.tiers.default
    let store := p.store.assign c.sameAzMembers c.diffAzMembers
    (.ok c.overwrites, ((p.withStore store).countResync .success).noteTiers)

/-! ## Picks -/

/-- The address whose turn it is, or the empty text when there is none. -/
def pick (p : Pool) : String × Pool :=
  let (address, turn) := p.turn.pick p.candidates
  (address.getD "", { p with turn })

/-- Several picks one after another. -/
def picks (p : Pool) : Nat → List String × Pool
  | 0 => ([], p)
  | n + 1 =>
    let (address, p) := p.pick
    let (others, p) := p.picks n
    (address :: others, p)

/-! ## Life -/

/-- A pool whose monitor has not started. -/
def create (addresses : List String) (options : PoolOptions) (env : Environment) : Pool :=
  let store := Store.create (distinct addresses) options.diffAz
  let interval := CheckInterval.resolve options.checkInterval env
  let pool : Pool :=
    { monitor := .create store (.create options.http) interval options.concurrency }
  pool.noteTiers

/-- Start the monitor; `true` for the one call that does so. -/
def start (p : Pool) (n : Network) : Bool × Pool × Network :=
  let (started, monitor, n) := p.monitor.start n
  (started, { p with monitor }, n)

/-- A pool that has probed its members once and goes on probing them. -/
def launch (addresses : List String) (options : PoolOptions) (env : Environment) (n : Network) :
    Pool × Network :=
  let (_, p, n) := (create addresses options env).start n
  (p, n)

/-- Stop probing, without waiting for a cycle under way. -/
def close (p : Pool) : Pool :=
  { p with monitor := p.monitor.stop.2 }

/-- Stop probing and wait for the loop to end. -/
def shutdown (p : Pool) : Pool :=
  { p with monitor := p.monitor.stop.2.join }

end Pool

end ZonePool
