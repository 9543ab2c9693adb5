-- SUMMARY: The service from its settings to its end.
import ZonePool.Config.Load
import ZonePool.Pool.Session

/-!
# The service

The service loads its settings, launches its pool, resyncs it with the
directory if there is one, and opens its admin server. From then on only time
and requests move it: each interval the pool probes its members, and each poll
interval the directory is asked again. It ends well on a signal, and fails only
before it serves: when the settings do not load, or when the admin server
cannot listen on its address.
-/

namespace ZonePool

open Net (SocketAddress)

/-! ## Start -/

/-- What the service is started with. -/
structure Launch where
  file : ConfigFile
  env : Environment
  /-- In place of the address of the admin server in the settings. -/
  adminListen : Option String := none

/-- Why the service did not start. -/
inductive ServiceFault where
  | load (fault : LoadFault)
  /-- The address of the admin server is no socket address. -/
  | badAddress
  /-- The admin server cannot listen on its address. -/
  | cannotListen
  deriving DecidableEq, Repr

def ServiceFault.message : ServiceFault → String
  | .load fault => fault.message
  | .badAddress => "invalid socket address syntax"
  | .cannotListen => "cannot listen on the admin address"

/-- Check the address that the admin server is to listen on. -/
def Admin.bind (address : String) : Except ServiceFault SocketAddress :=
  match SocketAddress.ofText? address with
  | none => .error .badAddress
  | some a => if Network.canListen a then .ok a else .error .cannotListen

/-- The service while it serves; times are seconds since its start. -/
structure Service where
  session : Session
  /-- The directory and the seconds between two rounds of resync. -/
  directory : Option (Directory × Nat)
  clock : Nat := 0
  nextProbe : Nat
  nextResync : Nat

namespace Service

/-! ## Timers -/

/-- One cycle of the periodic loop. -/
def probe (s : Service) : Service :=
  let (_, monitor, network) := s.session.pool.monitor.holdTick s.session.network
  let (_, monitor, network) := monitor.finishTick network
  { s with
    session := s.session.withMonitor monitor network
    nextProbe := s.clock + s.session.pool.checkInterval.secs }

/-- One round of resync, if there is a directory. -/
def resync (s : Service) : Service :=
  match s.directory with
  | none => s
  | some (directory, secs) =>
    let (_, pool, network) := s.session.pool.resyncFrom directory s.session.network
    { s with session := { pool, network }, nextResync := s.clock + secs }

/-- Let the timers that are due go off, the earlier one first. -/
def fire (s : Service) : Service :=
  let probeDue : Bool := s.nextProbe ≤ s.clock
  let resyncDue : Bool := s.directory.isSome && s.nextResync ≤ s.clock
  match probeDue, resyncDue with
  | false, false => s
  | true, false => s.probe
  | false, true => s.resync
  | true, true => if s.nextResync < s.nextProbe then s.resync.probe else s.probe.resync

/-! ## Life -/

/-- Start the service, up to the end of the first round of resync. The network tells what was tried
in any case. -/
def start (launch : Launch) (n : Network) : Except ServiceFault Service × Network :=
  match Config.load launch.file launch.env with
  | .error fault => (.error (.load fault), n)
  | .ok c =>
    let session := Session.launch c.addresses c.poolOptions launch.env n
    match Admin.bind (launch.adminListen.getD c.adminListen) with
    | .error fault => (.error fault, session.network)
    | .ok _ =>
      let service : Service :=
        { session
          directory := c.directory.map fun d => (.ofUrl d.url, d.pollSecs)
          nextProbe := session.pool.checkInterval.secs
          nextResync := 0 }
      let service := service.resync
      (.ok service, service.session.network)

inductive Command where
  /-- Ask the admin server. -/
  | get (target : String)
  | advance (secs : Nat)
  /-- Other peers from now on. -/
  | peers (peers : List (SocketAddress × Peer))

inductive Answer where
  | done
  | page (page : Page)

/-- Carry out one command; `none` when the admin server was asked and cannot be reached. -/
def run (s : Service) : Command → Option (Answer × Service)
  | .get target =>
    (s.session.ask "GET" target true).map fun r => (.page r.1, { s with session := r.2 })
  | .advance secs => some (.done, { s with clock := s.clock + secs }.fire)
  | .peers peers =>
    some (.done, { s with
      session := { s.session with network := s.session.network.become peers } })

/-- A record of what was tried, before and after each command; the network's record is emptied in
between. -/
structure Trace where
  answer : Answer
  dials : List SocketAddress
  hits : List Hit

/-- The same service with an empty record of attempts. -/
def forget (s : Service) : Service :=
  { s with session := { s.session with network := s.session.network.forget } }

/-- Carry out commands in order. -/
def runAll (s : Service) : List Command → Option (List Trace)
  | [] => some []
  | c :: cs =>
    match s.forget.run c with
    | none => none
    | some (answer, s) =>
      (s.runAll cs).map (⟨answer, s.session.network.dials, s.session.network.hits⟩ :: ·)

end Service

/-- How a run of the service went. -/
inductive Outcome where
  /-- It did not start; the attempts of its first probes are kept. -/
  | failed (fault : ServiceFault) (dials : List SocketAddress)
  /-- It served until the signal: what start-up tried, and what each command did. -/
  | ended (first : Service.Trace) (steps : List Service.Trace)
  /-- It served, but was asked where it cannot be reached. -/
  | unreachable

/-- Run the service through some commands and end it by a signal. -/
def Launch.run (launch : Launch) (n : Network) (commands : List Service.Command) : Outcome :=
  match Service.start launch n with
  | (.error fault, n) => .failed fault n.dials
  | (.ok service, n) =>
    match service.runAll commands with
    | none => .unreachable
    | some steps => .ended ⟨.done, n.dials, n.hits⟩ steps

end ZonePool
