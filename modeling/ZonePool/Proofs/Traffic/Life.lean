-- SUMMARY: One start, one stop and one loop, whatever the interleaving, and nothing new after a stop.
import ZonePool.Proofs.Traffic.Monitor

/-!
# The life of a monitor

Starting goes on for a whole cycle between leaving the idle state and spawning
the loop, and stopping a store comes before the request to end. So stops and
more starts may land in every gap. What keeps them apart is that the idle state
is left only once: whoever leaves it stands for all that is done only once. A
stop counts from its return on; a start that looks between its two steps may
still spawn a loop, which then ends without a tick.
-/

namespace ZonePool

/-- The second is the first, or comes after it in a life. -/
inductive Lifecycle.Moves : Lifecycle → Lifecycle → Prop where
  | stay (l : Lifecycle) : Moves l l
  | start : Moves .idle .running
  | stopIdle : Moves .idle .stopped
  | stopRunning : Moves .running .stopped

theorem Lifecycle.Moves.of_stopped {l : Lifecycle} (h : Moves .stopped l) : l = .stopped := by
  cases h
  rfl

namespace Traffic

/-! ## Kinds of notes -/

/-- The return of the start that started the monitor. -/
def Note.isFirstStart : Note → Bool
  | .started first => first
  | _ => false

/-- The return of the stop that stopped the store. -/
def Note.isFirstStop : Note → Bool
  | .stopped first => first
  | _ => false

def Note.isSpawn : Note → Bool
  | .spawned => true
  | _ => false

def Note.isTick : Note → Bool
  | .ticked => true
  | _ => false

/-- The end of the first cycle. -/
def Note.endsFirst : Note → Bool
  | .committed .starter _ _ => true
  | _ => false

/-- A status is installed. -/
def Note.isInstall : Note → Bool
  | .committed _ _ (some _) => true
  | _ => false

/-! ## Kinds of parties -/

/-- The start that started the monitor, until it returns. -/
def Party.isStarter : Party → Bool
  | .opening runner | .probing runner _ => runner == .starter
  | .looking | .spawning => true
  | _ => false

def Party.isSpawning : Party → Bool
  | .spawning => true
  | _ => false

/-- The stop that stopped the store, until it returns. -/
def Party.isFirstStop : Party → Bool
  | .cancelling first => first
  | _ => false

/-! ## The lifecycle -/

theorem Takes.moves {s s' : Shared} {party party' : Party} {notes : List Note}
    (h : Takes s party notes s' party') : s.store.lifecycle.Moves s'.store.lifecycle := by
  cases h with
  | start hidle =>
    rw [hidle]
    exact .start
  | stop hopen =>
    cases hlifecycle : s.store.lifecycle with
    | idle => exact .stopIdle
    | running => exact .stopRunning
    | stopped => exact absurd hlifecycle hopen
  | commit =>
    rw [Store.lifecycle_apply_commit]
    exact .stay _
  | _ => exact .stay _

theorem Goes.moves {t u : Traffic} {notes : List Note} (h : Goes t notes u) :
    t.shared.store.lifecycle.Moves u.shared.store.lifecycle := by
  cases h with
  | call | nobody => exact .stay _
  | advance _ htakes => exact htakes.moves

/-! ## What is done only once -/

/-- One as long as nobody has stopped the store. -/
def openOnce : Lifecycle → Nat
  | .idle | .running => 1
  | .stopped => 0

/-- Only the start that left the idle state returns `true`. -/
theorem bounds_firstStart :
    Bounds (fun _ => True) Note.isFirstStart (fun _ => false) Party.isStarter idleOnce where
  calling _ := rfl
  stays _ _ := trivial
  counts htakes _ := by
    cases htakes with
    | start h => simp [h, idleOnce, Party.isStarter]
    | stop h => simp [idleOnce, Party.isStarter]
    | spawn => exact Nat.le_refl _
    | commit runner | discard runner =>
      cases runner <;> simp [Party.isStarter, Note.isFirstStart, Runner.afterCycle]
    | _ => simp [Party.isStarter, Note.isFirstStart]

/-- Whoever spawns the loop returns `true`. -/
theorem bounds_spawn :
    Bounds (fun _ => True) Note.isSpawn Note.isFirstStart (fun _ => false) (fun _ => 0) where
  calling _ := rfl
  stays _ _ := trivial
  counts htakes _ := by
    cases htakes with
    | spawn => exact Nat.le_refl _
    | _ => simp [Note.isSpawn]

/-- Only the stop that stopped the store returns `true`. -/
theorem bounds_firstStop :
    Bounds (fun _ => True) Note.isFirstStop (fun _ => false) Party.isFirstStop openOnce where
  calling _ := rfl
  stays _ _ := trivial
  counts {s _ _ _ _} htakes _ := by
    cases htakes with
    | start h => simp [h, openOnce, Party.isFirstStop]
    | stop h =>
      cases hlifecycle : s.store.lifecycle with
      | idle | running => simp [openOnce, Party.isFirstStop]
      | stopped => exact absurd hlifecycle h
    | commit runner | discard runner =>
      cases runner <;> simp [Party.isFirstStop, Note.isFirstStop, Runner.afterCycle]
    | spawn => exact Nat.le_refl _
    | cancel first => cases first <;> simp [Party.isFirstStop, Note.isFirstStop]
    | _ => simp [Party.isFirstStop, Note.isFirstStop]

/-! ## What a stop rules out -/

/-- Nothing is spawned before the first cycle ends. -/
theorem bounds_spawn_first :
    Bounds (fun _ => True) Note.isSpawn Note.endsFirst Party.isPastFirst (fun _ => 0) where
  calling _ := rfl
  stays _ _ := trivial
  counts htakes _ := by
    cases htakes with
    | commit runner | discard runner =>
      cases runner <;> simp [Party.isPastFirst, Note.isSpawn, Note.endsFirst, Runner.afterCycle]
    | spawn => exact Nat.le_refl _
    | _ => simp [Party.isPastFirst, Note.isSpawn]

theorem Takes.cancelled {s s' : Shared} {party party' : Party} {notes : List Note}
    (htakes : Takes s party notes s' party') (h : s.cancelled = true) : s'.cancelled = true := by
  cases htakes with
  | cancel => rfl
  | _ => exact h

/-- After the request to end, only a start that has not seen it spawns the loop. -/
theorem bounds_spawn_cancelled :
    Bounds (·.cancelled = true) Note.isSpawn (fun _ => false) Party.isSpawning (fun _ => 0) where
  calling _ := rfl
  stays := Takes.cancelled
  counts htakes h := by
    cases htakes with
    | goOn hgo =>
      rw [h] at hgo
      cases hgo
    | commit runner | discard runner =>
      cases runner <;> simp [Party.isSpawning, Note.isSpawn, Runner.afterCycle]
    | spawn => exact Nat.le_refl _
    | _ => simp [Party.isSpawning, Note.isSpawn]

/-- After the request to end, no tick is taken. -/
theorem bounds_tick_cancelled :
    Bounds (·.cancelled = true) Note.isTick (fun _ => false) (fun _ => false) (fun _ => 0) where
  calling _ := rfl
  stays := Takes.cancelled
  counts htakes h := by
    cases htakes with
    | tick htick =>
      rw [h] at htick
      cases htick
    | spawn => exact Nat.le_refl _
    | _ => simp [Note.isTick]

/-- A stopped store takes nothing. -/
theorem bounds_install_stopped :
    Bounds (·.store.lifecycle = .stopped) Note.isInstall (fun _ => false) (fun _ => false)
      (fun _ => 0) where
  calling _ := rfl
  stays htakes h := (h ▸ htakes.moves).of_stopped
  counts htakes h := by
    cases htakes with
    | commit _ _ _ hopen => exact absurd h hopen
    | spawn => exact Nat.le_refl _
    | _ => simp [Note.isInstall]

/-- A stopped store keeps its status and its history until a reset empties both. -/
theorem stopped_run {t : Traffic} (h : t.shared.store.lifecycle = .stopped) (later : List Step) :
    let s := (t.run later).shared.store
    s.lifecycle = .stopped ∧
      (s.status = t.shared.store.status ∧ s.history = t.shared.store.history ∨
        s.status = .empty ∧ s.history = []) := by
  refine run_induction (P := fun u => u.shared.store.lifecycle = .stopped ∧
    (u.shared.store.status = t.shared.store.status ∧
      u.shared.store.history = t.shared.store.history ∨
      u.shared.store.status = .empty ∧ u.shared.store.history = [])) ?_ ⟨h, .inl ⟨rfl, rfl⟩⟩ later
  rintro u notes v hgoes ⟨hstopped, hkept⟩
  refine ⟨(hstopped ▸ hgoes.moves).of_stopped, ?_⟩
  cases hgoes with
  | call | nobody => exact hkept
  | advance _ htakes =>
    cases htakes with
    | reset => exact .inr ⟨rfl, rfl⟩
    | commit _ _ _ hopen => exact absurd hstopped hopen
    | _ => exact hkept

/-! ## Cycles in flight -/

/-- A party stays in its place, and only its own steps change it. -/
theorem Goes.place {t u : Traffic} {notes : List Note} (h : Goes t notes u) {place : Nat}
    {party : Party} (hparty : t.parties[place]? = some party) :
    u.parties[place]? = some party ∨
      ∃ party', Takes t.shared party notes u.shared party' ∧ u.parties[place]? = some party' := by
  cases h with
  | nobody => exact .inl hparty
  | call call =>
    obtain ⟨hlt, -⟩ := List.getElem?_eq_some_iff.1 hparty
    exact .inl (by rw [List.getElem?_append_left hlt, hparty])
  | @advance before after moved moved' notes shared hparties htakes =>
    rw [hparties] at hparty
    rcases Nat.lt_trichotomy place before.length with hlt | rfl | hgt
    · rw [List.getElem?_append_left hlt] at hparty ⊢
      exact .inl hparty
    · rw [List.getElem?_append_right (Nat.le_refl _), Nat.sub_self] at hparty ⊢
      cases hparty
      exact .inr ⟨moved', htakes, rfl⟩
    · obtain ⟨more, rfl⟩ := Nat.exists_eq_add_of_lt hgt
      have hskip : before.length + more + 1 - before.length = more + 1 := by omega
      rw [List.getElem?_append_right (by omega), hskip] at hparty ⊢
      exact .inl hparty

/-- The cycle of a flight ends among the steps, with a verdict on each of its endpoints. -/
def Finishes (t : Traffic) (runner : Runner) (flight : Flight) (later : List Step) : Prop :=
  ∃ flight' status, .committed runner flight' status ∈ t.log later ∧
    (flight'.cycle.verdicts.map (·.1)).Perm flight.cycle.endpoints

theorem probing_go {t u : Traffic} {notes : List Note} (h : Goes t notes u) {place : Nat}
    {runner : Runner} {flight : Flight}
    (hplace : t.parties[place]? = some (.probing runner flight)) :
    (∃ flight', u.parties[place]? = some (.probing runner flight') ∧
        flight'.cycle.endpoints.Perm flight.cycle.endpoints) ∨
      flight.cycle.pending = [] ∧ ∃ status, .committed runner flight status ∈ notes := by
  rcases h.place hplace with hsame | ⟨party', htakes, hafter⟩
  · exact .inl ⟨flight, hsame, .refl _⟩
  · generalize u.shared = s' at htakes
    cases htakes with
    | probe _ _ endpoint n _ =>
      exact .inl ⟨_, hafter, flight.cycle.endpoints_probeOne t.shared.probe endpoint n⟩
    | commit _ _ hpending _ => exact .inr ⟨hpending, _, List.mem_singleton_self _⟩
    | discard _ _ hpending _ => exact .inr ⟨hpending, _, List.mem_singleton_self _⟩

/-- Whatever else happens, a cycle stays in flight until it has probed all of its endpoints. -/
theorem probing_run {t : Traffic} {place : Nat} {runner : Runner} {flight : Flight}
    (hplace : t.parties[place]? = some (.probing runner flight)) (later : List Step) :
    (∃ flight', (t.run later).parties[place]? = some (.probing runner flight') ∧
        flight'.cycle.endpoints.Perm flight.cycle.endpoints) ∨
      t.Finishes runner flight later := by
  induction later generalizing t flight with
  | nil => exact .inl ⟨flight, hplace, .refl _⟩
  | cons step later ih =>
    rcases probing_go (t.goes_go step) hplace with ⟨next, hnext, hperm⟩ | ⟨hpending, status, hmem⟩
    · rcases ih hnext with ⟨last, hlast, hrest⟩ | ⟨last, status, hmem, hrest⟩
      · exact .inl ⟨last, hlast, hrest.trans hperm⟩
      · exact .inr ⟨last, status, List.mem_append_right _ hmem, hrest.trans hperm⟩
    · refine .inr ⟨flight, status, List.mem_append_left _ hmem, ?_⟩
      rw [Cycle.endpoints, hpending, List.append_nil]

theorem go_place {t : Traffic} {place : Nat} {party : Party}
    (hplace : t.parties[place]? = some party) (endpoint : String) (n : Network) :
    t.go (.advance place endpoint n) =
      ((party.next t.shared endpoint n).1, ⟨(party.next t.shared endpoint n).2.1,
        t.parties.set place (party.next t.shared endpoint n).2.2⟩) := by
  simp [go, hplace]

/-- A cycle in flight can always be finished without anyone else. -/
theorem exists_finish {t : Traffic} {place : Nat} {runner : Runner} {flight : Flight}
    (hplace : t.parties[place]? = some (.probing runner flight)) :
    ∃ later, (∀ step ∈ later, ∃ endpoint n, step = .advance place endpoint n) ∧
      t.Finishes runner flight later := by
  induction hpending : flight.cycle.pending generalizing t flight with
  | nil =>
    have hgo := go_place hplace "" {}
    simp only [Party.next, hpending, if_true] at hgo
    obtain ⟨status, hmem⟩ : ∃ status,
        .committed runner flight status ∈ t.log [.advance place "" {}] := by
      rw [log_cons, hgo]
      exact ⟨_, List.mem_append_left _ (List.mem_singleton_self _)⟩
    refine ⟨[.advance place "" {}], by simp, flight, status, hmem, ?_⟩
    rw [Cycle.endpoints, hpending, List.append_nil]
  | cons endpoint rest ih =>
    obtain ⟨hlt, -⟩ := List.getElem?_eq_some_iff.1 hplace
    have hne : flight.cycle.pending ≠ [] := by simp [hpending]
    have hgo := go_place hplace endpoint {}
    simp only [Party.next, if_neg hne] at hgo
    let probed := flight.cycle.probeOne t.shared.probe endpoint {}
    have hnext : (t.go (.advance place endpoint {})).2.parties[place]? =
        some (.probing runner { flight with cycle := probed }) := by
      rw [hgo]
      exact List.getElem?_set_self hlt
    have hrest : probed.pending = rest := by simp [probed, Cycle.probeOne, hpending]
    obtain ⟨later, hown, last, status, hmem, hperm⟩ := ih hnext hrest
    refine ⟨.advance place endpoint {} :: later, ?_, last, status, ?_, ?_⟩
    · exact List.forall_mem_cons.2 ⟨⟨endpoint, {}, rfl⟩, hown⟩
    · exact List.mem_append_right _ hmem
    · exact hperm.trans (flight.cycle.endpoints_probeOne t.shared.probe endpoint {})

/-! ## The law of a life -/

theorem Party.isOwn_of_hasOwnCycle {party : Party} (h : party.hasOwnCycle = true) :
    party.isOwn = true := by
  cases party with
  | opening | probing => simp [isOwn, h]
  | calling | looking | spawning | waiting | cancelling | done => cases h

theorem Party.isPastFirst_of_isSpawning {party : Party} (h : party.isSpawning = true) :
    party.isPastFirst = true := by
  cases party with
  | spawning => rfl
  | calling | opening | probing | looking | waiting | cancelling | done => cases h

/-- When a stop returns, the end has been requested. -/
theorem Goes.stopped {t u : Traffic} {notes : List Note} {first : Bool} (h : Goes t notes u)
    (hstopped : .stopped first ∈ notes) : notes = [.stopped first] ∧ u.shared.cancelled = true := by
  cases h with
  | call | nobody => cases hstopped
  | advance _ htakes =>
    cases htakes with
    | cancel =>
      obtain rfl : first = _ := by simpa using hstopped
      exact ⟨rfl, rfl⟩
    | _ => simp at hstopped

/-- Once a stop has returned no tick is taken, and nothing is ever spawned when the first cycle had
not ended by then. -/
theorem stopped_go {new : Traffic} (hnew : new.parties = []) {steps : List Step} {step : Step}
    {first : Bool} (hstopped : .stopped first ∈ ((new.run steps).go step).1) (later : List Step) :
    (∀ note ∈ ((new.run steps).go step).2.log later, note.isTick = false) ∧
      ((∀ note ∈ new.log steps, note.endsFirst = false) →
        ∀ note ∈ new.log (steps ++ step :: later), note.isSpawn = false) := by
  obtain ⟨hnotes, hcancelled⟩ := ((new.run steps).goes_go step).stopped hstopped
  constructor
  · have htick := bounds_tick_cancelled.run hcancelled later
    simpa using htick
  · intro hbefore
    have hfirst := bounds_spawn_first.run (t := new) trivial (steps ++ [step])
    have hafter := bounds_spawn_cancelled.run hcancelled later
    have hnone : (new.log steps).countP Note.endsFirst = 0 := by simpa using hbefore
    have hspawning : ∀ parties : List Party,
        parties.countP Party.isSpawning ≤ parties.countP Party.isPastFirst :=
      fun parties => List.countP_mono_left fun _ _ h => Party.isPastFirst_of_isSpawning h
    have hstep : [Note.stopped first].countP Note.endsFirst = 0 := rfl
    simp only [log_append, run_append, log_cons, log_nil, run_cons, run_nil, hnotes,
      List.append_nil, List.countP_append, hnew, List.countP_nil, hnone, hstep] at hfirst
    have hle := hspawning ((new.run steps).go step).2.parties
    have hzero : (new.log (steps ++ step :: later)).countP Note.isSpawn = 0 := by
      simp only [log_append, log_cons, hnotes, List.countP_append]
      simp only [List.countP_false, Function.const_apply] at hafter
      omega
    simpa using hzero

/-- Whatever the interleaving of callers, first cycle and loop: the lifecycle moves on only; one
start and one stop return `true`, one loop is spawned, and one of the monitor's own cycles is in
flight at a time. Nothing is installed once the store is stopped, and no cycle begins by a tick once
a stop has returned, although the cycles in flight finish their probes. The runs of a pool are among
these runs by `exists_shows_run`. -/
theorem life_run (default diffAz : List String) (probe : Probe) (steps : List Step) :
    let new := onNew default diffAz probe
    let t := new.run steps
    (∀ step, t.shared.store.lifecycle.Moves (t.go step).2.shared.store.lifecycle) ∧
    (new.log steps).countP Note.isFirstStart ≤ 1 ∧
    (new.log steps).countP Note.isFirstStop ≤ 1 ∧
    (new.log steps).countP Note.isSpawn ≤ 1 ∧
    t.parties.countP Party.hasOwnCycle ≤ 1 ∧
    (t.shared.store.lifecycle = .stopped → ∀ later,
      (∀ note ∈ t.log later, note.isInstall = false) ∧
      let s := (t.run later).shared.store
      s.lifecycle = .stopped ∧
        (s.status = t.shared.store.status ∧ s.history = t.shared.store.history ∨
          s.status = .empty ∧ s.history = [])) ∧
    (∀ step first, .stopped first ∈ (t.go step).1 → ∀ later,
      (∀ note ∈ (t.go step).2.log later, note.isTick = false) ∧
      ((∀ note ∈ new.log steps, note.endsFirst = false) →
        ∀ note ∈ new.log (steps ++ step :: later), note.isSpawn = false)) ∧
    (∀ place runner flight, t.parties[place]? = some (.probing runner flight) →
      (∀ later, (∃ flight', (t.run later).parties[place]? = some (.probing runner flight') ∧
          flight'.cycle.endpoints.Perm flight.cycle.endpoints) ∨ t.Finishes runner flight later) ∧
      ∃ later, (∀ step ∈ later, ∃ endpoint n, step = .advance place endpoint n) ∧
        t.Finishes runner flight later) := by
  intro new t
  have hstart := bounds_firstStart.run (t := new) trivial steps
  have hstop := bounds_firstStop.run (t := new) trivial steps
  have hspawn := bounds_spawn.run (t := new) trivial steps
  have hown := bounds_own.run (t := new) trivial steps
  have hidle : idleOnce new.shared.store.lifecycle = 1 := rfl
  have hopen : openOnce new.shared.store.lifecycle = 1 := rfl
  have hnobody : new.parties = [] := rfl
  have hcycles : t.parties.countP Party.hasOwnCycle ≤ (new.run steps).parties.countP Party.isOwn :=
    List.countP_mono_left fun _ _ h => Party.isOwn_of_hasOwnCycle h
  simp only [hidle, hopen, hnobody, List.countP_false, Function.const_apply, List.countP_nil]
    at hstart hstop hspawn hown
  refine ⟨fun step => (t.goes_go step).moves, by omega, by omega, by omega,
    hcycles.trans (by omega), ?_, ?_, ?_⟩
  · intro hstopped later
    have hinstall := bounds_install_stopped.run hstopped later
    exact ⟨by simpa using hinstall, stopped_run hstopped later⟩
  · intro step first hstopped later
    exact stopped_go rfl hstopped later
  · intro place runner flight hplace
    exact ⟨probing_run hplace, exists_finish hplace⟩

/-- A stop that returns while the first cycle waits for its only probe: that cycle can still be
finished, and however it goes on, no loop is spawned. -/
theorem life_run_of_stop_in_first_cycle :
    let new := onNew ["10.0.0.1:80"] [] (.create none)
    let steps : List Step := [.call .start, .advance 0 "" {}, .advance 0 "" {}, .call .stop,
      .advance 1 "" {}]
    let t := new.run steps
    .stopped true ∈ (t.go (.advance 1 "" {})).1 ∧
      (∀ later, ∀ note ∈ new.log (steps ++ .advance 1 "" {} :: later), note.isSpawn = false) ∧
      ∃ later, t.Finishes .starter ⟨⟨["10.0.0.1:80"], []⟩, 0⟩ later := by
  intro new steps t
  obtain ⟨-, -, -, -, -, -, hstop, hflight⟩ :=
    life_run ["10.0.0.1:80"] [] (.create none) steps
  have hstopped : .stopped true ∈ (t.go (.advance 1 "" {})).1 := List.mem_singleton_self _
  have hplace : t.parties[0]? = some (.probing .starter ⟨⟨["10.0.0.1:80"], []⟩, 0⟩) := by rfl
  have hbefore : ∀ note ∈ new.log steps, note.endsFirst = false := fun _ hnone => nomatch hnone
  obtain ⟨later, -, hfinishes⟩ := (hflight 0 _ _ hplace).2
  exact ⟨hstopped, fun later => (hstop _ true hstopped later).2 hbefore, later, hfinishes⟩

end Traffic

end ZonePool
