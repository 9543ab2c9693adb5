-- SUMMARY: Pools driven by commands, with a network around them.
import ZonePool.Admin
import ZonePool.Directory

/-!
# Sessions

A session is a pool with the network it lives in. Its commands are what callers
of the pool can do, the passing of one interval, and changes of the network; a
cycle that hangs on silent peers leaves room for further commands before it
goes on. The admin server is asked over the network, so on a host whose links
are down there is no answer at all.
-/

namespace ZonePool

open Net (SocketAddress)

structure Session where
  pool : Pool
  network : Network

namespace Session

inductive Command where
  | pick (count : Nat)
  | reset (addresses : List String)
  | resync (instances : List Instance)
  /-- Resync with the body of a directory's answer. -/
  | resyncBody (body : String)
  /-- One round of resync with the directory at a URL. -/
  | directory (url : String)
  | close
  | shutdown
  | start
  | statusOf (endpoint : String)
  | checkInterval
  /-- Other peers from now on. -/
  | peers (peers : List (SocketAddress × Peer))
  /-- The interval passes; `during` is what happens while the cycle hangs. -/
  | cycle (during : List Command)
  /-- Ask the admin server. -/
  | get (method target : String)

inductive Answer where
  | done
  | picked (addresses : List String)
  | resynced (result : Except Failure (List Overwrite))
  | started (first : Bool)
  | status (verdict : Option Verdict)
  | interval (span : Span)
  /-- Whether a cycle was probed, and the answers of what happened while it hung. -/
  | cycled (ran : Bool) (during : Option (List Answer))
  | page (page : Page)

/-- A pool just launched in a network. -/
def launch (addresses : List String) (options : PoolOptions) (env : Environment) (n : Network) :
    Session :=
  let (pool, network) := Pool.launch addresses options env n
  { pool, network }

def withPool (s : Session) (pool : Pool) : Session := { s with pool }

def withMonitor (s : Session) (monitor : Monitor) (network : Network) : Session :=
  { pool := { s.pool with monitor }, network }

/-- The page that the admin server answers, where it can be reached. -/
def ask (s : Session) (method target : String) (recording : Bool) : Option (Page × Session) :=
  if s.network.linked then
    let (page, pool) := Admin.respond method target recording s.pool
    some (page, s.withPool pool)
  else none

mutual

/-- Carry out one command; `none` when the admin server was asked and cannot be reached. -/
def run (s : Session) : Command → Option (Answer × Session)
  | .pick count =>
    let (addresses, pool) := s.pool.picks count
    some (.picked addresses, s.withPool pool)
  | .reset addresses => some (.done, s.withPool (s.pool.reset addresses))
  | .resync instances =>
    let (result, pool) := s.pool.resync instances
    some (.resynced result, s.withPool pool)
  | .resyncBody body =>
    match Directory.instances? body with
    | .error failure => some (.resynced (.error failure), s)
    | .ok instances =>
      let (result, pool) := s.pool.resync instances
      some (.resynced result, s.withPool pool)
  | .directory url =>
    let (result, pool, network) := s.pool.resyncFrom (.ofUrl url) s.network
    some (.resynced result, { pool, network })
  | .close => some (.done, s.withPool s.pool.close)
  | .shutdown => some (.done, s.withPool s.pool.shutdown)
  | .start =>
    let (first, pool, network) := s.pool.start s.network
    some (.started first, { pool, network })
  | .statusOf endpoint => some (.status (s.pool.store.status.get? endpoint), s)
  | .checkInterval => some (.interval s.pool.checkInterval, s)
  | .peers peers => some (.done, { s with network := s.network.become peers })
  | .get method target => (s.ask method target false).map fun r => (.page r.1, r.2)
  | .cycle during =>
    match s.pool.monitor.holdTick s.network with
    | (none, monitor, network) => some (.cycled false none, s.withMonitor monitor network)
    | (some held, monitor, network) =>
      let s := s.withMonitor monitor network
      let between :=
        if held ∧ during.isEmpty = false then (s.runAll during).map fun r => (some r.1, r.2)
        else some (none, s)
      between.map fun (answers, s) =>
        let (_, monitor, network) := s.pool.monitor.finishTick s.network
        (.cycled true answers, s.withMonitor monitor network)

/-- Carry out commands in order. -/
def runAll (s : Session) : List Command → Option (List Answer × Session)
  | [] => some ([], s)
  | c :: cs =>
    match s.run c with
    | none => none
    | some (answer, s) =>
      match s.runAll cs with
      | none => none
      | some (answers, s) => some (answer :: answers, s)

end

end Session

end ZonePool
