-- SUMMARY: The service fails only before it serves, and goes on until the signal.
import ZonePool.Service
import ZonePool.Proofs.Network
import ZonePool.Proofs.Pool.Interval
import ZonePool.Proofs.Pool.Loop
import ZonePool.Proofs.Pool.Requests
import ZonePool.Proofs.Pool.Resync

/-!
# Runs of the service

Whether the service starts is settled by its settings and the address of its
admin server, which no peer has a say in. From then on one invariant carries
every run: between two commands the loop rests and both timers are set to times
to come, no further off than their periods. A cycle or a round whose peers fail
is a cycle or a round all the same, and the timer is set again.
-/

namespace ZonePool

/-! ## Faults -/

/-- Why a run did not start, if it did not. -/
def Outcome.fault? : Outcome → Option ServiceFault
  | .failed fault _ => some fault
  | .ended .. | .unreachable => none

/-- What keeps the service from starting, if anything does. -/
def Launch.fault? (launch : Launch) : Option ServiceFault :=
  match Config.load launch.file launch.env with
  | .error fault => some (.load fault)
  | .ok c =>
    match Admin.bind (launch.adminListen.getD c.adminListen) with
    | .error fault => some fault
    | .ok _ => none

theorem Config.pollSecs_ne_zero {c : Config} {d : DirectorySettings} (h : c.fault? = none)
    (hd : c.directory = some d) : d.pollSecs ≠ 0 := by
  intro hzero
  simp only [fault?, hd, hzero, if_true] at h
  split at h
  · cases h
  · split at h
    · cases h
    · split at h <;> cases h

/-! ## Rounds of resync -/

/-- How many rounds of resync have ended one way or another. -/
def Metrics.rounds (m : Metrics) : Nat :=
  m.resyncSuccess + m.resyncError + m.resyncFetchError

namespace Metrics

theorem rounds_countResync (m : Metrics) (outcome : ResyncOutcome) :
    (m.countResync outcome).rounds = m.rounds + 1 := by
  cases outcome <;> simp only [rounds, countResync] <;> omega

theorem cycles_countResync (m : Metrics) (outcome : ResyncOutcome) :
    (m.countResync outcome).cycles = m.cycles := by
  cases outcome <;> rfl

theorem rounds_eq_of_resyncs {m m' : Metrics} (h : m'.resyncs = m.resyncs) :
    m'.rounds = m.rounds := by
  have hsuccess := congrFun h .success
  have herror := congrFun h .error
  have hfetchError := congrFun h .fetchError
  simp only [resyncs] at hsuccess herror hfetchError
  simp only [rounds, hsuccess, herror, hfetchError]

end Metrics

namespace Pool

/-- A round, however it ends, is counted, and leaves the loop and the first cycle alone. -/
structure Rounded (p q : Pool) : Prop where
  resting : p.monitor.Resting → q.monitor.Resting
  interval : q.checkInterval = p.checkInterval
  cycles : q.metrics.cycles = p.metrics.cycles
  rounds : q.metrics.rounds = p.metrics.rounds + 1

theorem rounded_countResync (p : Pool) (outcome : ResyncOutcome) :
    p.Rounded (p.countResync outcome) where
  resting h := ⟨h.running, h.live, h.first, h.loop⟩
  interval := rfl
  cycles := p.metrics.cycles_countResync outcome
  rounds := p.metrics.rounds_countResync outcome

theorem rounded_resync (p : Pool) (instances : List Instance) :
    p.Rounded (p.resync instances).2 := by
  rw [resync]
  split
  · exact rounded_countResync p .error
  · exact ⟨fun h => ⟨h.running, h.live, h.first, h.loop⟩, rfl,
      p.metrics.cycles_countResync .success, p.metrics.rounds_countResync .success⟩

theorem rounded_resyncFrom (p : Pool) (d : Directory) (n : Network) :
    p.Rounded (p.resyncFrom d n).2.1 := by
  unfold resyncFrom
  split
  · exact rounded_countResync p .fetchError
  · exact rounded_resync p _

/-- A round that fails leaves the store as it was. -/
theorem store_resyncFrom_of_error {p : Pool} {d : Directory} {n : Network} {failure : Failure}
    (h : (p.resyncFrom d n).1 = .error failure) : (p.resyncFrom d n).2.1.store = p.store := by
  unfold resyncFrom at h ⊢
  generalize d.fetch n = result at h ⊢
  obtain ⟨failure | instances, n'⟩ := result
  · rfl
  · have hpool := (resync_of_error h).2
    change (p.resync instances).2.store = p.store
    rw [hpool]
    rfl

end Pool

namespace Service

variable {s : Service}

/-! ## Timers that go off -/

/-- How many cycles the service has finished. -/
def cycles (s : Service) : Nat := s.session.pool.metrics.cycles

/-- How many rounds of resync it has made. -/
def rounds (s : Service) : Nat := s.session.pool.metrics.rounds

/-- The seconds between two cycles. -/
def period (s : Service) : Nat := s.session.pool.checkInterval.secs

theorem exists_rest_of_probe (h : s.session.pool.monitor.Resting) :
    ∃ c, s.probe.session.pool.monitor = s.session.pool.monitor.rest c :=
  h.exists_rest s.session.network

theorem resting_probe (h : s.session.pool.monitor.Resting) :
    s.probe.session.pool.monitor.Resting := by
  obtain ⟨c, hprobe⟩ := exists_rest_of_probe h
  rw [hprobe]
  exact Monitor.resting_rest h.running h.live c

theorem period_probe (h : s.session.pool.monitor.Resting) : s.probe.period = s.period := by
  obtain ⟨c, hprobe⟩ := exists_rest_of_probe h
  rw [period, Pool.checkInterval, hprobe]
  rfl

theorem cycles_probe (h : s.session.pool.monitor.Resting) : s.probe.cycles = s.cycles + 1 := by
  obtain ⟨c, hprobe⟩ := exists_rest_of_probe h
  rw [cycles, Pool.metrics, hprobe, Monitor.cycles_rest]
  rfl

theorem rounds_probe (h : s.session.pool.monitor.Resting) : s.probe.rounds = s.rounds := by
  obtain ⟨c, hprobe⟩ := exists_rest_of_probe h
  rw [rounds, Pool.metrics, hprobe]
  exact Metrics.rounds_eq_of_resyncs (Monitor.resyncs_rest _ c)

theorem linked_probe (s : Service) :
    s.probe.session.network.linked = s.session.network.linked :=
  Network.linked_of_host ((Monitor.host_finishTick _ _).trans (Monitor.host_holdTick _ _))

theorem resync_of_none (h : s.directory = none) : s.resync = s := by
  rw [resync, h]

theorem resync_of_some {d : Directory × Nat} (h : s.directory = some d) :
    s.resync = { s with
      session := {
        pool := (s.session.pool.resyncFrom d.1 s.session.network).2.1
        network := (s.session.pool.resyncFrom d.1 s.session.network).2.2 }
      nextResync := s.clock + d.2 } := by
  rw [resync, h]

theorem clock_resync (s : Service) : s.resync.clock = s.clock := by
  rw [resync]
  split <;> rfl

theorem directory_resync (s : Service) : s.resync.directory = s.directory := by
  rw [resync]
  split <;> rfl

theorem nextProbe_resync (s : Service) : s.resync.nextProbe = s.nextProbe := by
  rw [resync]
  split <;> rfl

theorem linked_resync (s : Service) :
    s.resync.session.network.linked = s.session.network.linked := by
  cases h : s.directory with
  | none => rw [resync_of_none h]
  | some d =>
    rw [resync_of_some h]
    exact Network.linked_of_host (Pool.host_resyncFrom _ _ _)

/-! ## Serving -/

/-- What holds between two commands: the loop rests, and both timers are set to times to come that are
no further off than their periods. -/
structure Serving (s : Service) : Prop where
  resting : s.session.pool.monitor.Resting
  probe_due : s.clock < s.nextProbe ∧ s.nextProbe ≤ s.clock + s.period
  resync_due : ∀ d ∈ s.directory, s.clock < s.nextResync ∧ s.nextResync ≤ s.clock + d.2

/-- What holds of it while timers may be due. -/
structure Timed (s : Service) : Prop where
  resting : s.session.pool.monitor.Resting
  period_pos : 0 < s.period
  poll_pos : ∀ d ∈ s.directory, 0 < d.2
  probe_due : s.nextProbe ≤ s.clock + s.period
  resync_due : ∀ d ∈ s.directory, s.nextResync ≤ s.clock + d.2

/-- Whether the timer of the resync is due. -/
def ResyncDue (s : Service) : Prop :=
  s.directory.isSome ∧ s.nextResync ≤ s.clock

instance (s : Service) : Decidable s.ResyncDue :=
  inferInstanceAs (Decidable (_ ∧ _))

theorem Timed.serving (h : s.Timed) (hprobe : ¬s.nextProbe ≤ s.clock) (hresync : ¬s.ResyncDue) :
    s.Serving where
  resting := h.resting
  probe_due := ⟨Nat.lt_of_not_le hprobe, h.probe_due⟩
  resync_due d hd := by
    rw [ResyncDue, hd, not_and, Nat.not_le] at hresync
    exact ⟨hresync rfl, h.resync_due d hd⟩

theorem Timed.probe (h : s.Timed) : s.probe.Timed where
  resting := resting_probe h.resting
  period_pos := by
    rw [period_probe h.resting]
    exact h.period_pos
  poll_pos := h.poll_pos
  probe_due := by
    rw [period_probe h.resting]
    exact Nat.le_refl _
  resync_due := h.resync_due

/-- Once the loop has probed, its timer is no longer due. -/
theorem Timed.not_probeDue (h : s.Timed) : ¬s.probe.nextProbe ≤ s.probe.clock := by
  have hpos := h.period_pos
  change ¬s.clock + s.period ≤ s.clock
  omega

section

variable {d : Directory × Nat} (hd : s.directory = some d)
include hd

theorem nextResync_resync : s.resync.nextResync = s.clock + d.2 := by
  rw [resync_of_some hd]

theorem rounded_resync : s.session.pool.Rounded s.resync.session.pool := by
  rw [resync_of_some hd]
  exact Pool.rounded_resyncFrom _ _ _

theorem cycles_resync : s.resync.cycles = s.cycles :=
  (rounded_resync hd).cycles

theorem rounds_resync : s.resync.rounds = s.rounds + 1 :=
  (rounded_resync hd).rounds

theorem period_resync : s.resync.period = s.period :=
  congrArg Span.secs (rounded_resync hd).interval

theorem Timed.resync (h : s.Timed) : s.resync.Timed where
  resting := (rounded_resync hd).resting h.resting
  period_pos := by
    rw [period_resync hd]
    exact h.period_pos
  poll_pos := by
    rw [directory_resync]
    exact h.poll_pos
  probe_due := by
    rw [nextProbe_resync, clock_resync, period_resync hd]
    exact h.probe_due
  resync_due := by
    rw [directory_resync, nextResync_resync hd, clock_resync]
    intro e he
    obtain rfl := Option.some.inj (hd.symm.trans he)
    exact Nat.le_refl _

/-- Once the directory has been asked, the timer for it is no longer due. -/
theorem Timed.not_resyncDue (h : s.Timed) : ¬s.resync.ResyncDue := by
  have hpos := h.poll_pos d hd
  rw [ResyncDue, nextResync_resync hd, clock_resync]
  omega

end

theorem fire_eq (s : Service) :
    s.fire =
      if s.nextProbe ≤ s.clock then
        if s.ResyncDue then
          if s.nextResync < s.nextProbe then s.resync.probe else s.probe.resync
        else s.probe
      else if s.ResyncDue then s.resync else s := by
  have hdue : (s.directory.isSome && decide (s.nextResync ≤ s.clock)) = decide s.ResyncDue := by
    rw [Bool.eq_iff_iff, Bool.and_eq_true, decide_eq_true_iff, decide_eq_true_iff]
    rfl
  rw [fire, hdue]
  by_cases hprobe : s.nextProbe ≤ s.clock <;> by_cases hresync : s.ResyncDue <;>
    simp [hprobe, hresync]

/-- Timers that are due go off once each, in either order, and are set again. -/
theorem Timed.fire (h : s.Timed) :
    s.fire.Serving ∧
    s.fire.cycles = s.cycles + (if s.nextProbe ≤ s.clock then 1 else 0) ∧
    s.fire.rounds = s.rounds + (if s.ResyncDue then 1 else 0) := by
  rw [fire_eq]
  by_cases hprobe : s.nextProbe ≤ s.clock <;> by_cases hresync : s.ResyncDue
  · obtain ⟨d, hd⟩ := Option.isSome_iff_exists.1 hresync.1
    simp only [if_pos hprobe, if_pos hresync]
    split
    · have hround := h.resync hd
      refine ⟨hround.probe.serving hround.not_probeDue (h.not_resyncDue hd), ?_, ?_⟩
      · rw [cycles_probe hround.resting, cycles_resync hd]
      · rw [rounds_probe hround.resting, rounds_resync hd]
    · have hd' : s.probe.directory = some d := hd
      refine ⟨(h.probe.resync hd').serving ?_ (h.probe.not_resyncDue hd'), ?_, ?_⟩
      · rw [nextProbe_resync, clock_resync]
        exact h.not_probeDue
      · rw [cycles_resync hd', cycles_probe h.resting]
      · rw [rounds_resync hd', rounds_probe h.resting]
  · simp only [if_pos hprobe, if_neg hresync]
    exact ⟨h.probe.serving h.not_probeDue hresync, cycles_probe h.resting, rounds_probe h.resting⟩
  · obtain ⟨d, hd⟩ := Option.isSome_iff_exists.1 hresync.1
    simp only [if_neg hprobe, if_pos hresync]
    refine ⟨(h.resync hd).serving ?_ (h.not_resyncDue hd), cycles_resync hd, rounds_resync hd⟩
    rwa [nextProbe_resync, clock_resync]
  · simp only [if_neg hprobe, if_neg hresync]
    exact ⟨h.serving hprobe hresync, rfl, rfl⟩

theorem linked_fire (s : Service) : s.fire.session.network.linked = s.session.network.linked := by
  rw [fire_eq]
  split
  · split
    · split
      · rw [linked_probe, linked_resync]
      · rw [linked_resync, linked_probe]
    · exact linked_probe s
  · split
    · exact linked_resync s
    · rfl

/-! ## Commands -/

theorem Serving.later (h : s.Serving) (secs : Nat) :
    ({ s with clock := s.clock + secs } : Service).Timed where
  resting := h.resting
  period_pos := by
    have := h.probe_due
    change 0 < s.period
    omega
  poll_pos d hd := by
    have := h.resync_due d hd
    omega
  probe_due := by
    have := h.probe_due
    change s.nextProbe ≤ s.clock + secs + s.period
    omega
  resync_due d hd := by
    have := h.resync_due d hd
    change s.nextResync ≤ s.clock + secs + d.2
    omega

/-- Time that passes lets the timers go off that are due by then. -/
theorem Serving.advance (h : s.Serving) (secs : Nat) :
    ∃ t, s.run (.advance secs) = some (.done, t) ∧ t.Serving ∧
      t.cycles = s.cycles + (if s.nextProbe ≤ s.clock + secs then 1 else 0) ∧
      t.rounds = s.rounds +
        (if s.directory.isSome ∧ s.nextResync ≤ s.clock + secs then 1 else 0) :=
  ⟨_, rfl, (h.later secs).fire⟩

theorem monitor_respond (method target : String) (recording : Bool) (p : Pool) :
    (Admin.respond method target recording p).2.monitor = p.monitor := by
  by_cases haddress : Admin.pathOf target = "/address"
  · rw [Admin.respond_address haddress]
    rfl
  · rw [Admin.snd_respond_of_ne haddress]

/-- What happens to the turn and to the network does not matter. -/
theorem Serving.of_monitor (h : s.Serving) {session : Session}
    (hmonitor : session.pool.monitor = s.session.pool.monitor) :
    ({ s with session } : Service).Serving where
  resting := by
    rw [hmonitor]
    exact h.resting
  probe_due := by
    rw [period, Pool.checkInterval, hmonitor]
    exact h.probe_due
  resync_due := h.resync_due

theorem Serving.run {answer : Answer} {t : Service} (h : s.Serving) (c : Command)
    (hrun : s.run c = some (answer, t)) :
    t.Serving ∧ t.session.network.linked = s.session.network.linked := by
  cases c with
  | get target =>
    rw [Service.run, Session.ask] at hrun
    split at hrun
    · cases hrun
      exact ⟨h.of_monitor (monitor_respond "GET" target true s.session.pool), rfl⟩
    · cases hrun
  | advance secs =>
    cases hrun
    exact ⟨(h.later secs).fire.1, linked_fire _⟩
  | peers peers =>
    cases hrun
    exact ⟨h.of_monitor rfl, rfl⟩

theorem Serving.forget (h : s.Serving) : s.forget.Serving :=
  h.of_monitor rfl

/-- The service after some commands, its record of attempts emptied before each. -/
def afterAll (s : Service) : List Command → Option Service
  | [] => some s
  | c :: cs => (s.forget.run c).bind fun r => r.2.afterAll cs

theorem Serving.afterAll {t : Service} {commands : List Command} (h : s.Serving)
    (hall : s.afterAll commands = some t) : t.Serving := by
  induction commands generalizing s with
  | nil =>
    cases hall
    exact h
  | cons c commands ih =>
    obtain ⟨⟨answer, r⟩, hrun, hrest⟩ := Option.bind_eq_some_iff.1 hall
    exact ih (h.forget.run c hrun).1 hrest

/-- The admin server can be reached, or is not asked. -/
def Answers (s : Service) (commands : List Command) : Prop :=
  s.session.network.linked = true ∨ ∀ target, .get target ∉ commands

theorem exists_run {c : Command} {commands : List Command} (h : s.Answers (c :: commands)) :
    ∃ answer t, s.run c = some (answer, t) := by
  cases c with
  | get target =>
    have hlinked : s.session.network.linked = true :=
      h.resolve_right fun hnone => hnone target (List.mem_cons_self ..)
    rw [Service.run, Session.ask, if_pos hlinked]
    exact ⟨_, _, rfl⟩
  | advance secs => exact ⟨_, _, rfl⟩
  | peers peers => exact ⟨_, _, rfl⟩

theorem Serving.exists_runAll {commands : List Command} (h : s.Serving)
    (hanswers : s.Answers commands) :
    ∃ steps, s.runAll commands = some steps ∧ steps.length = commands.length := by
  induction commands generalizing s with
  | nil => exact ⟨[], rfl, rfl⟩
  | cons c commands ih =>
    obtain ⟨answer, t, hrun⟩ := exists_run (s := s.forget) (hanswers : s.forget.Answers _)
    obtain ⟨hserving, hlinked⟩ := h.forget.run c hrun
    have hrest : t.Answers commands :=
      hanswers.imp (fun h => hlinked.trans h) fun h target hmem =>
        h target (List.mem_cons_of_mem _ hmem)
    obtain ⟨steps, hsteps, hlength⟩ := ih hserving hrest
    refine ⟨⟨answer, t.session.network.dials, t.session.network.hits⟩ :: steps, ?_, ?_⟩
    · simp only [runAll, hrun, hsteps, Option.map_some]
    · rw [List.length_cons, hlength, List.length_cons]

/-! ## Start -/

/-- The service with some settings before its first round of resync. -/
def fresh (c : Config) (env : Environment) (n : Network) : Service :=
  let session := Session.launch c.addresses c.poolOptions env n
  { session
    directory := c.directory.map fun d => (.ofUrl d.url, d.pollSecs)
    nextProbe := session.pool.checkInterval.secs
    nextResync := 0 }

theorem timed_fresh {file : ConfigFile} {env : Environment} {c : Config}
    (h : Config.load file env = .ok c) (n : Network) : (fresh c env n).Timed where
  resting := Pool.resting_launch _ _ _ n
  period_pos := by
    obtain ⟨base, -, hinterval⟩ := Config.interval_of_load h
    have hsecs : (fresh c env n).period =
        (Pool.launch c.addresses c.poolOptions env n).1.checkInterval.secs := rfl
    rw [hsecs, hinterval]
    exact CheckInterval.secs_ofWhole_pos _
  poll_pos d hd := by
    obtain ⟨base, -, -, hfault⟩ := Config.of_load h
    obtain ⟨settings, hsettings, rfl⟩ := Option.map_eq_some_iff.1 hd
    exact Nat.pos_of_ne_zero (Config.pollSecs_ne_zero hfault hsettings)
  probe_due := by
    rw [Nat.le_iff_lt_or_eq]
    exact .inr (Nat.zero_add _).symm
  resync_due _ _ := Nat.zero_le _

theorem Timed.serving_resync (h : s.Timed) (hprobe : ¬s.nextProbe ≤ s.clock) :
    s.resync.Serving := by
  cases hd : s.directory with
  | none =>
    rw [resync_of_none hd]
    exact h.serving hprobe (by simp [ResyncDue, hd])
  | some d =>
    refine (h.resync hd).serving ?_ (h.not_resyncDue hd)
    rwa [nextProbe_resync, clock_resync]

end Service

/-! ## Runs -/

namespace Launch

open Service (fresh)

variable {launch : Launch}

theorem start_of_some {fault : ServiceFault} (h : launch.fault? = some fault) (n : Network) :
    (Service.start launch n).1 = .error fault := by
  unfold Service.start
  unfold fault? at h
  cases hload : Config.load launch.file launch.env with
  | error failure =>
    simp only [hload, Option.some.injEq] at h ⊢
    rw [h]
  | ok c =>
    cases hbind : Admin.bind (launch.adminListen.getD c.adminListen) with
    | error failure =>
      simp only [hload, hbind, Option.some.injEq] at h ⊢
      rw [h]
    | ok _ => simp [hload, hbind] at h

theorem start_of_none (h : launch.fault? = none) :
    ∃ c, Config.load launch.file launch.env = .ok c ∧ ∀ n, Service.start launch n =
      (.ok (fresh c launch.env n).resync, (fresh c launch.env n).resync.session.network) := by
  unfold fault? at h
  cases hload : Config.load launch.file launch.env with
  | error failure => simp [hload] at h
  | ok c =>
    cases hbind : Admin.bind (launch.adminListen.getD c.adminListen) with
    | error failure => simp [hload, hbind] at h
    | ok _ =>
      refine ⟨c, rfl, fun n => ?_⟩
      unfold Service.start
      simp only [hload, hbind]
      rfl

theorem fault?_of_start {n : Network} {s : Service} (h : (Service.start launch n).1 = .ok s) :
    launch.fault? = none := by
  cases hfault : launch.fault? with
  | none => rfl
  | some fault =>
    rw [start_of_some hfault] at h
    cases h

theorem serving_start {n : Network} {s : Service} (h : (Service.start launch n).1 = .ok s) :
    s.Serving ∧ s.session.network.linked = n.linked := by
  obtain ⟨c, hload, hstart⟩ := start_of_none (fault?_of_start h)
  rw [hstart] at h
  obtain rfl := Except.ok.inj h
  have htimed := Service.timed_fresh hload n
  refine ⟨htimed.serving_resync (Nat.not_le_of_lt htimed.period_pos), ?_⟩
  rw [Service.linked_resync]
  exact Network.linked_of_host (Pool.host_launch _ _ _ n)

theorem fault?_run (launch : Launch) (n : Network) (commands : List Service.Command) :
    (launch.run n commands).fault? = launch.fault? := by
  cases hfault : launch.fault? with
  | some fault =>
    have hstart := start_of_some hfault n
    rw [run]
    generalize Service.start launch n = result at hstart ⊢
    obtain ⟨_, n'⟩ := result
    cases hstart
    rfl
  | none =>
    obtain ⟨c, -, hstart⟩ := start_of_none hfault
    rw [run, hstart]
    dsimp only
    split <;> rfl

theorem run_of_none (h : launch.fault? = none) {n : Network} {commands : List Service.Command}
    (hanswers : n.linked = true ∨ ∀ target, .get target ∉ commands) :
    ∃ first steps, launch.run n commands = .ended first steps ∧
      steps.length = commands.length := by
  obtain ⟨c, -, hstart⟩ := start_of_none h
  obtain ⟨hserving, hlinked⟩ := serving_start (congrArg Prod.fst (hstart n))
  obtain ⟨steps, hsteps, hlength⟩ :=
    hserving.exists_runAll (hanswers.imp_left hlinked.trans)
  have hrun : launch.run n commands =
      .ended ⟨.done, (fresh c launch.env n).resync.session.network.dials,
        (fresh c launch.env n).resync.session.network.hits⟩ steps := by
    rw [run, hstart]
    simp only [hsteps]
  exact ⟨_, steps, hrun, hlength⟩

/-- Whether the service starts, and why not, has nothing to do with its peers and its requests. A
service that starts ends well. Until the signal cycles and rounds go on at their times, whatever they
meet, and at the signal the loop ends, in the middle of a cycle or not; a round that fails leaves the
tiers, and all else in the store, as they were. -/
theorem run_goes_on (launch : Launch) :
    (∀ n m commands others,
      (launch.run n commands).fault? = launch.fault? ∧
      (launch.run n commands).fault? = (launch.run m others).fault?) ∧
    (launch.fault? = none → ∀ n commands,
      n.linked = true ∨ (∀ target, .get target ∉ commands) →
      ∃ first steps, launch.run n commands = .ended first steps ∧
        steps.length = commands.length) ∧
    (∀ n start commands s, (Service.start launch n).1 = .ok start →
      start.afterAll commands = some s →
      s.Serving ∧
      (∀ secs, ∃ t, s.run (.advance secs) = some (.done, t) ∧ t.Serving ∧
        t.cycles = s.cycles + (if s.nextProbe ≤ s.clock + secs then 1 else 0) ∧
        t.rounds = s.rounds +
          (if s.directory.isSome ∧ s.nextResync ≤ s.clock + secs then 1 else 0)) ∧
      (∀ actions, (∀ a ∈ actions, a ≠ .close) →
        let p := s.session.pool.run actions
        p.Looping ∧ p.close.store.lifecycle = .stopped ∧
        ∀ m, (p.close.monitor.finishTick m).2.1.join.loop = .ended) ∧
      s.session.pool.shutdown.monitor.loop = .ended) ∧
    ∀ (p : Pool) d n failure, (p.resyncFrom d n).1 = .error failure →
      (p.resyncFrom d n).2.1.store = p.store := by
  refine ⟨fun n m commands others => ?fault, fun hnone n commands => run_of_none hnone, ?serving,
    fun p d n failure => Pool.store_resyncFrom_of_error⟩
  case fault => exact ⟨fault?_run launch n commands, by rw [fault?_run, fault?_run]⟩
  case serving =>
    intro n start commands s hstart hall
    have hserving := (serving_start hstart).1.afterAll hall
    refine ⟨hserving, hserving.advance, fun actions hopen => ?_,
      Pool.loop_shutdown hserving.resting⟩
    have hlooping := Pool.looping_run (Pool.looping_of_resting hserving.resting) hopen
    exact ⟨hlooping, Pool.lifecycle_close _, hlooping.ends⟩

/-- Nothing answers, neither the one address nor the directory. -/
theorem run_goes_on_of_no_peers :
    let launch : Launch := {
      file := ⟨"pool.toml", .absent⟩
      env := .ofList [("ADDRPOOL_ADDRESSES", "10.0.0.1:80"),
        ("ADDRPOOL_DIRECTORY_URL", "http://10.0.0.2/instances")]
      adminListen := some "127.0.0.1:0" }
    let n : Network := {}
    launch.fault? = none ∧
    (∃ first steps, launch.run n [.advance 15, .get "/ready", .peers [], .advance 30] =
      .ended first steps ∧ steps.length = 4) ∧
    ∃ start t, (Service.start launch n).1 = .ok start ∧
      start.run (.advance 30) = some (.done, t) ∧ t.Serving ∧ t.cycles = 2 ∧ t.rounds = 2 := by
  intro launch n
  obtain ⟨-, hends, hgoesOn, -⟩ := run_goes_on launch
  have hsome : (Service.start launch n).1.toOption.map (fun s =>
      (s.cycles, s.rounds, s.clock, s.nextProbe, s.nextResync, s.directory.isSome)) =
      some (1, 1, 0, 15, 30, true) := by
    decide +kernel
  cases hstart : (Service.start launch n).1 with
  | error fault =>
    rw [hstart] at hsome
    cases hsome
  | ok start =>
    rw [hstart] at hsome
    simp only [Except.toOption, Option.map_some, Option.some.injEq, Prod.mk.injEq] at hsome
    obtain ⟨hcycles, hrounds, hclock, hprobe, hresync, hdirectory⟩ := hsome
    have hfault : launch.fault? = none := fault?_of_start hstart
    obtain ⟨-, hadvance, -⟩ := hgoesOn n start [] start hstart rfl
    obtain ⟨t, ht, hserving, htcycles, htrounds⟩ := hadvance 30
    refine ⟨hfault, hends hfault n _ (.inl rfl), start, t, rfl, ht, hserving, ?_, ?_⟩
    · rw [htcycles, hcycles, hprobe, hclock]
      rfl
    · rw [htrounds, hrounds, hresync, hclock, hdirectory]
      rfl

end Launch

end ZonePool
