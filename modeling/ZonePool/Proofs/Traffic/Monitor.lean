-- SUMMARY: The operations of a monitor are steps of its traffic that nobody interrupts.
import Mathlib.Data.List.Induction
import ZonePool.Proofs.Traffic.Run

/-!
# Monitors as traffic

The atomic actions on a pool are cut more coarsely than the traffic on its
store: one of them may be several steps of a party that nobody interrupts. So
every run of a pool is a run of traffic, and what all runs of traffic keep to is
what all runs of a pool keep to.
-/

namespace ZonePool

namespace Traffic

/-! ## The monitor's own party -/

/-- One of the monitor's own cycles is in flight. -/
def Party.hasOwnCycle : Party → Bool
  | .opening runner | .probing runner _ => runner != .guest
  | _ => false

/-- The start that started the monitor, between its cycle and its return. -/
def Party.isPastFirst : Party → Bool
  | .looking | .spawning => true
  | _ => false

/-- The start that started the monitor, or the loop. -/
def Party.isOwn : Party → Bool
  | .waiting => true
  | party => party.hasOwnCycle || party.isPastFirst

/-- One as long as nobody has left the idle state. -/
def idleOnce : Lifecycle → Nat
  | .idle => 1
  | .running | .stopped => 0

/-- The monitor's own cycles follow one another: the start hands over to the loop. -/
theorem bounds_own :
    Bounds (fun _ => True) (fun _ => false) (fun _ => false) Party.isOwn idleOnce where
  calling _ := rfl
  stays _ _ := trivial
  counts htakes _ := by
    cases htakes with
    | start h => simp [h, idleOnce, Party.isOwn, Party.hasOwnCycle]
    | stop h => simp [idleOnce, Party.isOwn, Party.hasOwnCycle, Party.isPastFirst]
    | commit runner | discard runner =>
      cases runner <;>
        simp [Party.isOwn, Party.hasOwnCycle, Party.isPastFirst, Runner.afterCycle]
    | _ => simp [Party.isOwn, Party.hasOwnCycle, Party.isPastFirst]

theorem nobody_of_idle {default diffAz : List String} {probe : Probe} {steps : List Step}
    (hidle : ((onNew default diffAz probe).run steps).shared.store.lifecycle = .idle) :
    ∀ party ∈ ((onNew default diffAz probe).run steps).parties, party.isOwn = false := by
  have hown := bounds_own.run (t := onNew default diffAz probe) trivial steps
  have hnew : idleOnce (onNew default diffAz probe).shared.store.lifecycle = 1 := rfl
  have hstill : idleOnce .idle = 1 := rfl
  have hnobody : (onNew default diffAz probe).parties = [] := rfl
  simp only [hidle, hnew, hstill, hnobody, List.countP_false, Function.const_apply,
    List.countP_nil] at hown
  have hzero : ((onNew default diffAz probe).run steps).parties.countP Party.isOwn = 0 := by omega
  simpa using hzero

/-! ## Steps of one party in a row -/

/-- Some steps lead from one to the other. -/
def Reaches (t u : Traffic) : Prop :=
  ∃ steps, t.run steps = u

theorem Reaches.refl (t : Traffic) : Reaches t t := ⟨[], rfl⟩

theorem Reaches.trans {t u v : Traffic} : Reaches t u → Reaches u v → Reaches t v := by
  rintro ⟨first, rfl⟩ ⟨second, rfl⟩
  exact ⟨first ++ second, run_append t first second⟩

section

variable (s : Shared) (before after : List Party)

theorem reaches_next (party : Party) (endpoint : String) (n : Network) :
    Reaches ⟨s, before ++ party :: after⟩
      ⟨(party.next s endpoint n).2.1, before ++ (party.next s endpoint n).2.2 :: after⟩ :=
  ⟨[.advance before.length endpoint n], congrArg Prod.snd (go_advance rfl endpoint n)⟩

/-- A new caller comes and takes the first step. -/
theorem reaches_call (t : Traffic) (call : Call) :
    Reaches t ⟨(call.next t.shared).2.1, t.parties ++ [(call.next t.shared).2.2]⟩ := by
  have hcalls : Reaches t ⟨t.shared, t.parties ++ .calling call :: []⟩ := ⟨[.call call], rfl⟩
  exact hcalls.trans (reaches_next t.shared t.parties [] (.calling call) "" {})

variable {s}

/-- A cycle probes some of its endpoints. -/
theorem reaches_probing (runner : Runner) (resets : Nat) {c c' : Cycle}
    (h : Cycle.Advances s.probe c c') :
    Reaches ⟨s, before ++ .probing runner ⟨c, resets⟩ :: after⟩
      ⟨s, before ++ .probing runner ⟨c', resets⟩ :: after⟩ := by
  induction h with
  | refl c => exact .refl _
  | @probe c c' n _ ih =>
    cases hpending : c.pending with
    | nil =>
      have hidle : (c.probeNext s.probe n).1 = c := by simp [Cycle.probeNext, hpending]
      rwa [hidle] at ih
    | cons endpoint rest =>
      have hne : c.pending ≠ [] := by simp [hpending]
      have hprobe := reaches_next s before after (.probing runner ⟨c, resets⟩) endpoint n
      simp only [Party.next, if_neg hne] at hprobe
      rw [Cycle.probeNext_eq_probeOne s.probe hpending] at ih
      exact hprobe.trans ih

/-- A cycle without pending endpoints commits. -/
theorem reaches_commit (runner : Runner) (resets : Nat) {c : Cycle} (h : c.pending = []) :
    Reaches ⟨s, before ++ .probing runner ⟨c, resets⟩ :: after⟩
      ⟨{ s with store := (s.store.commit c.status).2 }, before ++ runner.afterCycle :: after⟩ := by
  have hcommit := reaches_next s before after (.probing runner ⟨c, resets⟩) "" {}
  simpa only [Party.next, h, if_true] using hcommit

end

/-! ## What a monitor shows of its traffic -/

/-- The loop does nothing any more, or not yet. -/
def isOff : Loop → Bool
  | .absent | .ended => true
  | .waiting | .probing _ => false

/-- The monitor's own party, as the monitor shows it between two actions. -/
inductive Shown : Party → Option Cycle → Loop → Prop where
  | first (c : Cycle) (resets : Nat) {loop : Loop} : isOff loop = true →
    Shown (.probing .starter ⟨c, resets⟩) (some c) loop
  | waiting : Shown .waiting none .waiting
  | loop (c : Cycle) (resets : Nat) :
    Shown (.probing .loop ⟨c, resets⟩) none (.probing c)

/-- At most one of the parties is the monitor's own, and that is as the monitor shows it. -/
inductive Holds (parties : List Party) : Option Cycle → Loop → Prop where
  | nobody {loop : Loop} : (∀ party ∈ parties, party.isOwn = false) → isOff loop = true →
    Holds parties none loop
  | own {before after : List Party} {party : Party} {first : Option Cycle} {loop : Loop} :
    parties = before ++ party :: after →
    (∀ other ∈ before ++ after, other.isOwn = false) → Shown party first loop →
    Holds parties first loop

structure Shows (t : Traffic) (m : Monitor) : Prop where
  store : t.shared.store = m.store
  probe : t.shared.probe = m.probe
  cancelled : t.shared.cancelled = m.cancelled
  holds : Holds t.parties m.first m.loop

/-- A party of someone else comes. -/
theorem Holds.concat {parties : List Party} {first : Option Cycle} {loop : Loop}
    (h : Holds parties first loop) {party : Party} (hother : party.isOwn = false) :
    Holds (parties ++ [party]) first loop := by
  cases h with
  | nobody hnone hoff =>
    refine .nobody ?_ hoff
    intro other hmem
    rcases List.mem_append.1 hmem with hold | hnew
    · exact hnone other hold
    · rwa [List.mem_singleton.1 hnew]
  | @own before after own _ _ hparties hothers hshown =>
    have hsplit : parties ++ [party] = before ++ own :: (after ++ [party]) := by
      rw [hparties, List.append_assoc, List.cons_append]
    refine .own hsplit ?_ hshown
    intro other hmem
    rw [← List.append_assoc, List.mem_append] at hmem
    rcases hmem with hold | hnew
    · exact hothers other hold
    · rwa [List.mem_singleton.1 hnew]

/-- A call that ends with its first step, or goes on as someone else's party. -/
theorem Shows.call {t : Traffic} {m m' : Monitor} (h : Shows t m) (call : Call)
    (hother : (call.next t.shared).2.2.isOwn = false)
    (hstore : (call.next t.shared).2.1.store = m'.store)
    (hprobe : (call.next t.shared).2.1.probe = m'.probe)
    (hcancelled : (call.next t.shared).2.1.cancelled = m'.cancelled)
    (hfirst : m'.first = m.first) (hloop : m'.loop = m.loop) :
    ∃ u, Reaches t u ∧ Shows u m' := by
  refine ⟨_, reaches_call t call, hstore, hprobe, hcancelled, ?_⟩
  rw [hfirst, hloop]
  exact h.holds.concat hother

theorem Holds.of_first {parties : List Party} {c : Cycle} {loop : Loop}
    (h : Holds parties (some c) loop) :
    ∃ before after resets, parties = before ++ .probing .starter ⟨c, resets⟩ :: after ∧
      (∀ other ∈ before ++ after, other.isOwn = false) ∧ isOff loop = true := by
  cases h with
  | own hparties hothers hshown =>
    cases hshown with
    | first _ resets hoff => exact ⟨_, _, resets, hparties, hothers, hoff⟩

theorem Holds.of_waiting {parties : List Party} {first : Option Cycle}
    (h : Holds parties first .waiting) :
    ∃ before after, parties = before ++ .waiting :: after ∧
      (∀ other ∈ before ++ after, other.isOwn = false) ∧ first = none := by
  cases h with
  | nobody _ hoff => cases hoff
  | own hparties hothers hshown =>
    cases hshown with
    | first _ _ hoff => cases hoff
    | waiting => exact ⟨_, _, hparties, hothers, rfl⟩

theorem Holds.of_loop {parties : List Party} {first : Option Cycle} {c : Cycle}
    (h : Holds parties first (.probing c)) :
    ∃ before after resets, parties = before ++ .probing .loop ⟨c, resets⟩ :: after ∧
      (∀ other ∈ before ++ after, other.isOwn = false) ∧ first = none := by
  cases h with
  | nobody _ hoff => cases hoff
  | own hparties hothers hshown =>
    cases hshown with
    | first _ _ hoff => cases hoff
    | loop _ resets => exact ⟨_, _, resets, hparties, hothers, rfl⟩

theorem Shown.isOwn {party : Party} {first : Option Cycle} {loop : Loop}
    (h : Shown party first loop) : party.isOwn = true := by
  cases h <;> rfl

theorem Holds.off {parties : List Party} {first : Option Cycle} {loop : Loop}
    (h : Holds parties first loop) (hnobody : ∀ party ∈ parties, party.isOwn = false) :
    isOff loop = true := by
  cases h with
  | nobody _ hoff => exact hoff
  | @own before after party _ _ hparties _ hshown =>
    have hother := hnobody party (by simp [hparties])
    rw [hshown.isOwn] at hother
    cases hother

/-- The monitor's own party ends. -/
theorem holds_done {before after : List Party}
    (hothers : ∀ other ∈ before ++ after, other.isOwn = false) {loop : Loop}
    (hoff : isOff loop = true) : Holds (before ++ .done :: after) none loop := by
  refine .nobody ?_ hoff
  intro party hmem
  rcases List.mem_append.1 hmem with hbefore | hmem
  · exact hothers party (List.mem_append_left _ hbefore)
  rcases List.mem_cons.1 hmem with rfl | hafter
  · rfl
  · exact hothers party (List.mem_append_right _ hafter)

/-! ## One operation -/

section

variable {t : Traffic} {m : Monitor}

theorem Shows.stop (h : Shows t m) : ∃ u, Reaches t u ∧ Shows u m.stop.2 := by
  have hcall := reaches_call t .stop
  have hcancel := reaches_next (Call.stop.next t.shared).2.1 t.parties []
    (Call.stop.next t.shared).2.2 "" {}
  refine ⟨_, hcall.trans hcancel, ?_, h.probe, rfl, h.holds.concat rfl⟩
  exact congrArg (fun s => s.stop.2) h.store

theorem Shows.join (h : Shows t m) : ∃ u, Reaches t u ∧ Shows u m.join := by
  cases hloop : m.loop with
  | absent | probing | ended => exact ⟨t, .refl t, by simpa [Monitor.join, hloop] using h⟩
  | waiting =>
    cases hcancelled : m.cancelled with
    | false => exact ⟨t, .refl t, by simpa [Monitor.join, hloop, hcancelled] using h⟩
    | true =>
      obtain ⟨s, parties⟩ := t
      obtain ⟨before, after, rfl, hothers, hfirst⟩ := (hloop ▸ h.holds).of_waiting
      have hend := reaches_next s before after .waiting "" {}
      have hrequested : s.cancelled = true := h.cancelled.trans hcancelled
      simp only [Party.next, hrequested, if_true] at hend
      refine ⟨_, hend, ?_⟩
      simp only [Monitor.join, hloop, hcancelled, if_true]
      exact ⟨h.store, h.probe, h.cancelled.trans hcancelled, hfirst ▸ holds_done hothers rfl⟩

/-- As long as nobody holds a cycle of the monitor's own, a start may begin one. -/
theorem Shows.beginStart (h : Shows t m)
    (hnobody : m.store.lifecycle = .idle → ∀ party ∈ t.parties, party.isOwn = false) :
    ∃ u, Reaches t u ∧ Shows u m.beginStart.2 := by
  by_cases hidle : m.store.lifecycle = .idle
  · have hoff := h.holds.off (hnobody hidle)
    have hstart : t.shared.store.start = (true, { m.store with lifecycle := .running }) := by
      rw [h.store, Store.start_of_idle hidle]
    have hcall := reaches_call t .start
    simp only [Call.next, hstart, if_true] at hcall
    have hopen := reaches_next { t.shared with store := { m.store with lifecycle := .running } }
      t.parties [] (.opening .starter) "" {}
    refine ⟨_, hcall.trans hopen, ?_⟩
    simp only [Monitor.beginStart, Store.start_of_idle hidle]
    refine ⟨rfl, h.probe, h.cancelled, .own rfl ?_ (.first _ t.shared.resets hoff)⟩
    simpa using hnobody hidle
  · refine ⟨t, .refl t, ?_⟩
    simpa only [Monitor.beginStart, Store.start_of_not_idle hidle] using h

theorem Shows.probeFirst (h : Shows t m) (n : Network) :
    ∃ u, Reaches t u ∧ Shows u (m.probeFirst n).1 := by
  cases hfirst : m.first with
  | none => exact ⟨t, .refl t, by simpa [Monitor.probeFirst, hfirst] using h⟩
  | some c =>
    obtain ⟨s, parties⟩ := t
    obtain ⟨before, after, resets, rfl, hothers, hoff⟩ := (hfirst ▸ h.holds).of_first
    have hprobe : Cycle.Advances s.probe c (c.probeNext s.probe n).1 := .probe n (.refl _)
    refine ⟨_, reaches_probing before after .starter resets hprobe, ?_⟩
    have hsame : s.probe = m.probe := h.probe
    simp only [Monitor.probeFirst, hfirst, hsame]
    exact ⟨h.store, h.probe, h.cancelled, .own rfl hothers (.first _ resets hoff)⟩

theorem Shows.probeLoop (h : Shows t m) (n : Network) :
    ∃ u, Reaches t u ∧ Shows u (m.probeLoop n).1 := by
  cases hloop : m.loop with
  | absent | waiting | ended => exact ⟨t, .refl t, by simpa [Monitor.probeLoop, hloop] using h⟩
  | probing c =>
    obtain ⟨s, parties⟩ := t
    obtain ⟨before, after, resets, rfl, hothers, hfirst⟩ := (hloop ▸ h.holds).of_loop
    have hprobe : Cycle.Advances s.probe c (c.probeNext s.probe n).1 := .probe n (.refl _)
    refine ⟨_, reaches_probing before after .loop resets hprobe, ?_⟩
    have hsame : s.probe = m.probe := h.probe
    simp only [Monitor.probeLoop, hloop, hsame]
    exact ⟨h.store, h.probe, h.cancelled, .own rfl hothers (hfirst ▸ .loop _ resets)⟩

/-- The first cycle commits, and unless the end is requested the start goes on as the loop. -/
theorem Shows.endStart (h : Shows t m) : ∃ u, Reaches t u ∧ Shows u m.endStart.2 := by
  cases hfirst : m.first with
  | none => exact ⟨t, .refl t, by simpa [Monitor.endStart, hfirst] using h⟩
  | some c =>
    by_cases hpending : c.pending = []
    · obtain ⟨s, parties⟩ := t
      obtain ⟨before, after, resets, rfl, hothers, hoff⟩ := (hfirst ▸ h.holds).of_first
      obtain ⟨metrics, hcommit⟩ := Pool.commit_monitor m c
      have hstore : (s.store.commit c.status).2 = (m.store.commit c.status).2 :=
        congrArg (fun s => (s.commit c.status).2) h.store
      have hlook := (reaches_commit before after .starter resets hpending).trans
        (reaches_next { s with store := (s.store.commit c.status).2 } before after .looking "" {})
      have hsame : s.cancelled = m.cancelled := h.cancelled
      cases hcancelled : m.cancelled with
      | true =>
        simp only [Party.next, hsame, hcancelled, if_true] at hlook
        refine ⟨_, hlook, ?_⟩
        simp only [Monitor.endStart, hfirst, hpending, List.isEmpty_nil, if_true, hcommit,
          hcancelled]
        exact ⟨hstore, h.probe, rfl, holds_done hothers hoff⟩
      | false =>
        simp only [Party.next, hsame, hcancelled] at hlook
        have hspawn := hlook.trans (reaches_next _ before after .spawning "" {})
        refine ⟨_, hspawn, ?_⟩
        simp only [Monitor.endStart, hfirst, hpending, List.isEmpty_nil, if_true, hcommit,
          hcancelled]
        exact ⟨hstore, h.probe, rfl, .own rfl hothers .waiting⟩
    · exact ⟨t, .refl t, by simpa [Monitor.endStart, hfirst, hpending] using h⟩

theorem Shows.tick (h : Shows t m) : ∃ u, Reaches t u ∧ Shows u m.tick.2 := by
  cases hloop : m.loop with
  | absent | probing | ended => exact ⟨t, .refl t, by simpa [Monitor.tick, hloop] using h⟩
  | waiting =>
    obtain ⟨s, parties⟩ := t
    obtain ⟨before, after, rfl, hothers, hfirst⟩ := (hloop ▸ h.holds).of_waiting
    have hnext := reaches_next s before after .waiting "" {}
    have hsame : s.cancelled = m.cancelled := h.cancelled
    cases hcancelled : m.cancelled with
    | true =>
      simp only [Party.next, hsame, hcancelled, if_true] at hnext
      refine ⟨_, hnext, ?_⟩
      simp only [Monitor.tick, hloop, hcancelled, if_true]
      exact ⟨h.store, h.probe, hsame.trans hcancelled, hfirst ▸ holds_done hothers rfl⟩
    | false =>
      simp only [Party.next, hsame, hcancelled] at hnext
      have hopen := hnext.trans (reaches_next s before after (.opening .loop) "" {})
      refine ⟨_, hopen, ?_⟩
      have hbegin : Cycle.begin s.store = Cycle.begin m.store := congrArg Cycle.begin h.store
      simp only [Monitor.tick, hloop, hcancelled, Party.next, hbegin]
      exact ⟨h.store, h.probe, hsame.trans hcancelled,
        .own rfl hothers (hfirst ▸ .loop _ s.resets)⟩

theorem Shows.endTick (h : Shows t m) : ∃ u, Reaches t u ∧ Shows u m.endTick.2 := by
  cases hloop : m.loop with
  | absent | waiting | ended => exact ⟨t, .refl t, by simpa [Monitor.endTick, hloop] using h⟩
  | probing c =>
    by_cases hpending : c.pending = []
    · obtain ⟨s, parties⟩ := t
      obtain ⟨before, after, resets, rfl, hothers, hfirst⟩ := (hloop ▸ h.holds).of_loop
      obtain ⟨metrics, hcommit⟩ := Pool.commit_monitor m c
      refine ⟨_, reaches_commit before after .loop resets hpending, ?_⟩
      simp only [Monitor.endTick, hloop, hpending, List.isEmpty_nil, if_true, hcommit]
      exact ⟨congrArg (fun s => (s.commit c.status).2) h.store, h.probe, h.cancelled,
        .own rfl hothers (hfirst ▸ .waiting)⟩
    · exact ⟨t, .refl t, by simpa [Monitor.endTick, hloop, hpending] using h⟩

/-- A whole cycle outside the loop is one of a caller that nobody interrupts. -/
theorem Shows.runCycle (h : Shows t m) (n : Network) :
    ∃ u, Reaches t u ∧ Shows u (m.runCycle n).2.1 := by
  let c := ((Cycle.begin m.store).run m.probe n).1
  have hrun : ((Cycle.begin t.shared.store).run t.shared.probe n).1 = c := by
    rw [h.store, h.probe]
  obtain ⟨metrics, hcommit⟩ := Pool.commit_monitor m c
  have hafter : (m.runCycle n).2.1 = { m with store := (m.store.commit c.status).2, metrics } :=
    congrArg Prod.snd hcommit
  have hopen := (reaches_call t .runCycle).trans
    (reaches_next t.shared t.parties [] (.opening .guest) "" {})
  have hprobes := hopen.trans (reaches_probing t.parties [] .guest t.shared.resets
    (Cycle.advances_run t.shared.probe (.begin t.shared.store) n))
  have hend := hprobes.trans (reaches_commit t.parties [] .guest t.shared.resets rfl)
  rw [hrun] at hend
  refine ⟨_, hend, ?_⟩
  rw [hafter]
  exact ⟨congrArg (fun s => (s.commit c.status).2) h.store, h.probe, h.cancelled,
    h.holds.concat rfl⟩

end

/-! ## Whole runs -/

/-- The actions of callers and of the monitor; a cycle committed out of nowhere is neither. -/
def IsOperation : Pool.Action → Prop
  | .commit _ => False
  | _ => True

theorem Shows.act {t : Traffic} {p : Pool} (h : Shows t p.monitor)
    (hnobody : p.store.lifecycle = .idle → ∀ party ∈ t.parties, party.isOwn = false)
    {a : Pool.Action} (ha : IsOperation a) : ∃ u, Reaches t u ∧ Shows u (p.act a).monitor := by
  cases a with
  | reset addresses =>
    exact h.call (.reset addresses) rfl (congrArg (fun s => s.reset addresses) h.store) h.probe
      h.cancelled rfl rfl
  | resync instances =>
    rw [Pool.act, Pool.resync]
    split
    · exact ⟨t, .refl t, h.store, h.probe, h.cancelled, h.holds⟩
    · exact h.call (.resync (Zones.ofInstances instances)) rfl
        (congrArg (fun s => s.apply (.resync (Zones.ofInstances instances))) h.store) h.probe
        h.cancelled rfl rfl
  | missResync | pick => exact ⟨t, .refl t, h.store, h.probe, h.cancelled, h.holds⟩
  | close => exact h.stop
  | join => exact h.join
  | start => exact h.beginStart hnobody
  | probeFirst n => exact h.probeFirst n
  | endStart => exact h.endStart
  | tick => exact h.tick
  | probeLoop n => exact h.probeLoop n
  | endTick => exact h.endTick
  | commit c => exact ha.elim

/-- Every run of a new pool is a run of the traffic on its store. -/
theorem exists_shows_run (addresses : List String) (options : PoolOptions) (env : Environment)
    {actions : List Pool.Action} (h : ∀ a ∈ actions, IsOperation a) :
    ∃ steps, Shows
      ((onNew (distinct addresses) options.diffAz (.create options.http)).run steps)
      ((Pool.create addresses options env).run actions).monitor := by
  induction actions using List.reverseRecOn with
  | nil => exact ⟨[], rfl, rfl, rfl, .nobody nofun rfl⟩
  | append_singleton actions a ih =>
    obtain ⟨steps, hshows⟩ := ih fun b hb => h b (List.mem_append_left _ hb)
    obtain ⟨u, ⟨more, rfl⟩, hafter⟩ := hshows.act
      (fun hidle => nobody_of_idle (hshows.store.symm ▸ hidle)) (h a (by simp))
    refine ⟨steps ++ more, ?_⟩
    rwa [run_append, Pool.run_append]

end Traffic

end ZonePool
