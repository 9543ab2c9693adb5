-- SUMMARY: What a reset forgets, and what cycles in flight bring back.
import ZonePool.Proofs.Pool.History
import ZonePool.Proofs.Traffic.Run

/-!
# Resets among cycles

A reset empties status and history but does not reach the cycles in flight. So
all that a store knows after a reset was committed after it, by a cycle that
took its snapshot after it or by one that the reset met in flight. Each of the
latter has at most one status to commit, and of that only what it found about
the members of that moment is kept. A cycle is told by its place, since a party
keeps its place and has one cycle at a time.
-/

namespace ZonePool

namespace Traffic

/-! ## What the store has taken -/

/-- A status that the store took, the cycle it is of and the place of its party. -/
structure Entry where
  place : Nat
  flight : Flight
  status : StatusMap

/-- The entries since the last reset, after one more note of the party in a place. -/
def Note.takeInto (place : Nat) (entries : List Entry) : Note → List Entry
  | .reset => []
  | .committed _ flight (some status) => entries ++ [⟨place, flight, status⟩]
  | .started _ | .stopped _ | .spawned | .ticked | .committed _ _ none => entries

/-- The entries since the last reset, after one more step with its notes. -/
def Step.takeInto (entries : List Entry) (notes : List Note) : Step → List Entry
  | .call _ => entries
  | .advance place _ _ => notes.foldl (Note.takeInto place) entries

/-- The entries since the last reset, after several more steps. -/
def takenAfter (t : Traffic) (entries : List Entry) : List Step → List Entry
  | [] => entries
  | step :: later => (t.go step).2.takenAfter (step.takeInto entries (t.go step).1) later

/-- What the store has taken after several steps, since the last reset in them if there is one. -/
def taken (t : Traffic) (later : List Step) : List Entry :=
  t.takenAfter [] later

theorem Takes.keeps {s s' : Shared} {party party' : Party} {notes : List Note}
    (htakes : Takes s party notes s' party') (place : Nat) {entries : List Entry}
    (h : s.store.Keeps (entries.map (·.status))) :
    s'.store.Keeps ((notes.foldl (Note.takeInto place) entries).map (·.status)) := by
  cases htakes with
  | reset => exact ⟨rfl, rfl⟩
  | commit runner flight _ hopen =>
    have hcommit := Store.keeps_apply h (.commit flight.cycle.status)
    rw [Store.logStep, Store.commit_of_not_stopped hopen, if_pos rfl] at hcommit
    rw [List.foldl_cons, List.foldl_nil, Note.takeInto, List.map_append]
    exact hcommit
  | _ => exact ⟨h.history, h.status⟩

theorem GoesAt.keeps {t u : Traffic} {step : Step} {notes : List Note} (hgoes : GoesAt t step notes u)
    {entries : List Entry} (h : t.shared.store.Keeps (entries.map (·.status))) :
    u.shared.store.Keeps ((step.takeInto entries notes).map (·.status)) := by
  cases hgoes with
  | call | nobody => exact h
  | @advance place _ _ _ _ _ _ _ htakes => exact htakes.keeps place h

/-- The store keeps the end of what it has taken. -/
theorem keeps_run {t : Traffic} {entries : List Entry}
    (h : t.shared.store.Keeps (entries.map (·.status))) (later : List Step) :
    (t.run later).shared.store.Keeps ((t.takenAfter entries later).map (·.status)) := by
  induction later generalizing t entries with
  | nil => exact h
  | cons step later ih => exact ih ((t.goesAt_go step).keeps h)

/-! ## Where it comes from -/

/-- The party in the place has the cycle in flight, with fewer of its endpoints probed perhaps. -/
def FliesAt (t : Traffic) (place : Nat) (flight : Flight) : Prop :=
  ∃ runner probing, t.parties[place]? = some (.probing runner probing) ∧
    probing.resets = flight.resets ∧ probing.cycle.endpoints.Perm flight.cycle.endpoints

/-- The party in the place is about to take the snapshot of the cycle. -/
def OpensAt (t : Traffic) (place : Nat) (flight : Flight) : Prop :=
  ∃ runner, t.parties[place]? = some (.opening runner) ∧ flight.resets = t.shared.resets ∧
    t.shared.store.snapshot.Perm flight.cycle.endpoints

/-- The party in the place takes the snapshot of the cycle on the way. -/
def OpensWithin (t : Traffic) (place : Nat) (flight : Flight) (later : List Step) : Prop :=
  ∃ before endpoint n after, later = before ++ .advance place endpoint n :: after ∧
    (t.run before).OpensAt place flight

theorem OpensWithin.append {t : Traffic} {place : Nat} {flight : Flight} {later : List Step}
    (h : t.OpensWithin place flight later) (rest : List Step) :
    t.OpensWithin place flight (later ++ rest) := by
  obtain ⟨before, endpoint, n, after, rfl, hopens⟩ := h
  exact ⟨before, endpoint, n, after ++ rest, by simp, hopens⟩

theorem OpensWithin.cons {t : Traffic} {place : Nat} {flight : Flight} {step : Step}
    {later : List Step} (h : (t.go step).2.OpensWithin place flight later) :
    t.OpensWithin place flight (step :: later) := by
  obtain ⟨before, endpoint, n, after, rfl, hopens⟩ := h
  exact ⟨step :: before, endpoint, n, after, rfl, hopens⟩

/-- A flight after a step of its own party was one before the step, or is opened by it. -/
theorem Takes.probing {s s' : Shared} {party : Party} {notes : List Note} {runner : Runner}
    {flight : Flight} (h : Takes s party notes s' (.probing runner flight)) :
    (∃ probing, party = .probing runner probing ∧ probing.resets = flight.resets ∧
      probing.cycle.endpoints.Perm flight.cycle.endpoints) ∨
    party = .opening runner ∧ flight.resets = s.resets ∧
      s.store.snapshot.Perm flight.cycle.endpoints := by
  generalize hparty' : Party.probing runner flight = party' at h
  cases h with
  | opening =>
    cases hparty'
    exact .inr ⟨rfl, rfl, .refl _⟩
  | probe _ probing endpoint n _ =>
    cases hparty'
    exact .inl ⟨probing, rfl, rfl, (probing.cycle.endpoints_probeOne s.probe endpoint n).symm⟩
  | commit ended | discard ended => cases ended <;> cases hparty'
  | _ => cases hparty'

theorem GoesAt.fliesAt {t u : Traffic} {step : Step} {notes : List Note}
    (h : GoesAt t step notes u) {place : Nat} {flight : Flight} (hflies : u.FliesAt place flight) :
    t.FliesAt place flight ∨
      ∃ endpoint n, step = .advance place endpoint n ∧ t.OpensAt place flight := by
  obtain ⟨runner, probing, hplace, hresets, hperm⟩ := hflies
  cases h with
  | nobody => exact .inl ⟨runner, probing, hplace, hresets, hperm⟩
  | call call =>
    rw [List.getElem?_append] at hplace
    split at hplace
    · exact .inl ⟨runner, probing, hplace, hresets, hperm⟩
    · cases List.mem_singleton.1 (List.mem_of_getElem? hplace)
  | @advance moved _ _ _ _ endpoint n hparty htakes =>
    rw [List.getElem?_set] at hplace
    split at hplace
    · next hsame =>
      subst hsame
      split at hplace
      · cases hplace
        rcases htakes.probing with ⟨before, rfl, hbefore, hendpoints⟩ | ⟨rfl, hnow, hsnapshot⟩
        · exact .inl ⟨runner, before, hparty, hbefore.trans hresets, hendpoints.trans hperm⟩
        · exact .inr ⟨endpoint, n, rfl, runner, hparty, hresets.symm.trans hnow,
            hsnapshot.trans hperm⟩
      · cases hplace
    · exact .inl ⟨runner, probing, hplace, hresets, hperm⟩

/-- A cycle that is in flight at last was in flight at first or took its snapshot on the way. -/
theorem fliesAt_run {t : Traffic} {later : List Step} {place : Nat} {flight : Flight}
    (h : (t.run later).FliesAt place flight) :
    t.FliesAt place flight ∨ t.OpensWithin place flight later := by
  induction later generalizing t with
  | nil => exact .inl h
  | cons step later ih =>
    rcases ih h with hflies | hopens
    · rcases (t.goesAt_go step).fliesAt hflies with hbefore | ⟨endpoint, n, rfl, hnow⟩
      · exact .inl hbefore
      · exact .inr ⟨[], endpoint, n, later, rfl, hnow⟩
    · exact .inr hopens.cons

/-- In this step the party in the place of the entry commits its cycle, and the store keeps of it what
it has found about the members of that very moment. -/
def Commits (t : Traffic) (e : Entry) (endpoint : String) (n : Network) : Prop :=
  ∃ runner, t.parties[e.place]? = some (.probing runner e.flight) ∧
    (t.go (.advance e.place endpoint n)).1 = [.committed runner e.flight (some e.status)] ∧
    e.status = t.shared.store.kept e.flight.cycle.status

theorem Takes.mem_takeInto {s s' : Shared} {party party' : Party} {notes : List Note}
    (h : Takes s party notes s' party') {place : Nat} {entries : List Entry} {e : Entry}
    (hmem : e ∈ notes.foldl (Note.takeInto place) entries) :
    e ∈ entries ∨ e.place = place ∧ ∃ runner, party = .probing runner e.flight ∧
      notes = [.committed runner e.flight (some e.status)] ∧
      e.status = s.store.kept e.flight.cycle.status := by
  cases h with
  | reset => cases hmem
  | commit runner flight =>
    rcases List.mem_append.1 hmem with hold | hnew
    · exact .inl hold
    · obtain rfl := List.mem_singleton.1 hnew
      exact .inr ⟨rfl, runner, rfl, rfl, rfl⟩
  | _ => exact .inl hmem

/-- Every entry was there before or is taken in a step on the way. -/
theorem commits_of_mem {t : Traffic} {entries : List Entry} {later : List Step} {e : Entry}
    (h : e ∈ t.takenAfter entries later) :
    e ∈ entries ∨ ∃ before endpoint n after, later = before ++ .advance e.place endpoint n :: after ∧
      (t.run before).Commits e endpoint n := by
  induction later generalizing t entries with
  | nil => exact .inl h
  | cons step later ih =>
    rcases ih h with hnow | ⟨before, endpoint, n, after, rfl, hcommits⟩
    · have hgoes := t.goesAt_go step
      generalize hwent : t.go step = went at hgoes hnow
      obtain ⟨notes, u⟩ := went
      cases hgoes with
      | call | nobody => exact .inl hnow
      | advance endpoint n hparty htakes =>
        refine (htakes.mem_takeInto hnow).imp_right ?_
        rintro ⟨rfl, runner, rfl, rfl, hkept⟩
        refine ⟨[], endpoint, n, later, rfl, runner, hparty, ?_, hkept⟩
        rw [run_nil, hwent]
    · exact .inr ⟨step :: before, endpoint, n, after, rfl, hcommits⟩

/-- What the store has taken was committed on the way, by a cycle that took its snapshot before that on
the way or was in flight at first. -/
theorem origin_of_mem {t : Traffic} {later : List Step} {e : Entry} (h : e ∈ t.taken later) :
    ∃ before endpoint n after, later = before ++ .advance e.place endpoint n :: after ∧
      (t.run before).Commits e endpoint n ∧
      (t.OpensWithin e.place e.flight before ∨ t.FliesAt e.place e.flight) := by
  obtain ⟨before, endpoint, n, after, hlater, hcommits⟩ :=
    (commits_of_mem h).resolve_left List.not_mem_nil
  refine ⟨before, endpoint, n, after, hlater, hcommits, ?_⟩
  obtain ⟨runner, hflight, -⟩ := hcommits
  exact (fliesAt_run ⟨runner, e.flight, hflight, rfl, .refl _⟩).symm

/-! ## Counting resets -/

theorem Takes.resets_le {s s' : Shared} {party party' : Party} {notes : List Note}
    (h : Takes s party notes s' party') : s.resets ≤ s'.resets := by
  cases h with
  | reset => exact Nat.le_succ _
  | _ => exact Nat.le_refl _

theorem Goes.resets_le {t u : Traffic} {notes : List Note} (h : Goes t notes u) :
    t.shared.resets ≤ u.shared.resets := by
  cases h with
  | call | nobody => exact Nat.le_refl _
  | advance _ htakes => exact htakes.resets_le

theorem resets_le_run (t : Traffic) (later : List Step) :
    t.shared.resets ≤ (t.run later).shared.resets := by
  refine run_induction (P := fun u => t.shared.resets ≤ u.shared.resets) ?_ (Nat.le_refl _) later
  intro u notes v hgoes hle
  exact hle.trans hgoes.resets_le

theorem OpensWithin.resets_le {t : Traffic} {place : Nat} {flight : Flight} {later : List Step}
    (h : t.OpensWithin place flight later) : t.shared.resets ≤ flight.resets := by
  obtain ⟨before, -, -, -, -, -, -, hresets, -⟩ := h
  rw [hresets]
  exact resets_le_run t before

theorem Goes.resets_of_reset {t u : Traffic} {notes : List Note} (h : Goes t notes u)
    (hreset : .reset ∈ notes) :
    u.shared.resets = t.shared.resets + 1 ∧ u.shared.store.Keeps [] := by
  cases h with
  | call | nobody => cases hreset
  | advance _ htakes =>
    cases htakes with
    | reset => exact ⟨rfl, rfl, rfl⟩
    | _ => simp at hreset

/-- No cycle in flight is ahead of the resets. -/
theorem resets_of_fliesAt (default diffAz : List String) (probe : Probe) (steps : List Step)
    {place : Nat} {flight : Flight}
    (h : ((onNew default diffAz probe).run steps).FliesAt place flight) :
    flight.resets ≤ ((onNew default diffAz probe).run steps).shared.resets := by
  rcases fliesAt_run h with ⟨_, _, hnobody, -⟩ | ⟨before, endpoint, n, after, rfl, -, -, hresets, -⟩
  · cases hnobody
  · rw [hresets, run_append]
    exact resets_le_run _ _

/-! ## What cycles in flight bring back -/

/-- A cycle is in flight that took its snapshot when there had been so many resets, or fewer. -/
def Party.hasOldFlight (resets : Nat) : Party → Bool
  | .probing _ flight => flight.resets ≤ resets
  | _ => false

theorem Takes.hasOldFlight {s s' : Shared} {party party' : Party} {notes : List Note}
    (h : Takes s party notes s' party') {resets : Nat} (hnew : resets < s.resets)
    (hold : party.hasOldFlight resets = false) : party'.hasOldFlight resets = false := by
  cases h with
  | opening => simpa [Party.hasOldFlight] using hnew
  | probe => exact hold
  | commit runner | discard runner => cases runner <;> rfl
  | _ => rfl

/-- Of the cycles that took their snapshots when there had been so many resets, or fewer, each has at
most one entry, and is over when it has one. -/
structure AtMostOnce (resets : Nat) (t : Traffic) (entries : List Entry) : Prop where
  nodup : ((entries.filter (·.flight.resets ≤ resets)).map (·.place)).Nodup
  landed : ∀ e ∈ entries, e.flight.resets ≤ resets →
    ∀ party ∈ t.parties[e.place]?, party.hasOldFlight resets = false

namespace AtMostOnce

variable {resets : Nat} {t u : Traffic} {entries : List Entry}

theorem nil : AtMostOnce resets t [] where
  nodup := List.nodup_nil
  landed := nofun

theorem concat (h : AtMostOnce resets t entries) {e : Entry}
    (hplace : e.flight.resets ≤ resets →
      ∀ earlier ∈ entries, earlier.flight.resets ≤ resets → earlier.place ≠ e.place)
    (hlanded : ∀ party ∈ t.parties[e.place]?, party.hasOldFlight resets = false) :
    AtMostOnce resets t (entries ++ [e]) where
  nodup := by
    rw [List.filter_append, List.map_append]
    by_cases hold : e.flight.resets ≤ resets
    · have hlast : [e].filter (·.flight.resets ≤ resets) = [e] := by simp [hold]
      rw [hlast]
      refine List.nodup_append.2 ⟨h.nodup, List.nodup_singleton _, ?_⟩
      intro place hmem last hlast
      obtain ⟨earlier, hearlier, rfl⟩ := List.mem_map.1 hmem
      obtain rfl := List.mem_singleton.1 hlast
      rw [List.mem_filter, decide_eq_true_eq] at hearlier
      exact hplace hold earlier hearlier.1 hearlier.2
    · have hlast : [e].filter (·.flight.resets ≤ resets) = [] := by simpa using hold
      rw [hlast]
      simpa using h.nodup
  landed earlier hearlier hold := by
    rcases List.mem_append.1 hearlier with hbefore | hlast
    · exact h.landed earlier hbefore hold
    · obtain rfl := List.mem_singleton.1 hlast
      exact hlanded

/-- A step of one party begins no old cycle, there or elsewhere. -/
theorem set (h : AtMostOnce resets t entries) (hnew : resets < t.shared.resets) {place : Nat}
    {party party' : Party} {notes : List Note} {shared : Shared}
    (hplace : t.parties[place]? = some party) (htakes : Takes t.shared party notes shared party') :
    AtMostOnce resets ⟨shared, t.parties.set place party'⟩ entries where
  nodup := h.nodup
  landed e he hold next hnext := by
    rw [List.getElem?_set] at hnext
    split at hnext
    · next hsame =>
      split at hnext
      · cases hnext
        exact htakes.hasOldFlight hnew (h.landed e he hold party (hsame ▸ hplace))
      · cases hnext
    · exact h.landed e he hold next hnext

theorem go (h : AtMostOnce resets t entries) (hnew : resets < t.shared.resets) {step : Step}
    {notes : List Note} (hgoes : GoesAt t step notes u) :
    AtMostOnce resets u (step.takeInto entries notes) := by
  cases hgoes with
  | nobody => exact h
  | call call =>
    refine ⟨h.nodup, fun e he hold party hparty => ?_⟩
    rw [List.getElem?_append] at hparty
    split at hparty
    · exact h.landed e he hold party hparty
    · obtain rfl := List.mem_singleton.1 (List.mem_of_getElem? hparty)
      rfl
  | @advance place _ _ _ _ endpoint n hplace htakes =>
    have hset := h.set hnew hplace htakes
    cases htakes with
    | reset => exact nil
    | commit runner flight =>
      refine hset.concat (fun hold earlier hearlier hfirst hsame => ?_) fun next hnext => ?_
      · change earlier.place = place at hsame
        rw [← hsame] at hplace
        have hflight := h.landed earlier hearlier hfirst _ hplace
        simp only [Party.hasOldFlight, decide_eq_false_iff_not] at hflight
        exact hflight hold
      · rw [List.getElem?_set_self (List.getElem?_eq_some_iff.1 hplace).1] at hnext
        cases hnext
        cases runner <;> rfl
    | _ => exact hset

theorem takenAfter (h : AtMostOnce resets t entries) (hnew : resets < t.shared.resets)
    (later : List Step) : AtMostOnce resets (t.run later) (t.takenAfter entries later) := by
  induction later generalizing t entries with
  | nil => exact h
  | cons step later ih =>
    exact ih (h.go hnew (t.goesAt_go step)) (hnew.trans_le (t.goes_go step).resets_le)

end AtMostOnce

/-! ## The law of resets -/

/-- All that a store knows some time after a reset was committed after it, by a party in whose step the
store kept what the cycle had found about the members of that moment. The cycle took its snapshot
after the reset or was met in flight by it, and of those met in flight each brings back one status at
most. -/
theorem reset_run (default diffAz : List String) (probe : Probe) {steps : List Step} {step : Step}
    (hreset : .reset ∈ (((onNew default diffAz probe).run steps).go step).1) (later : List Step) :
    let t := (onNew default diffAz probe).run steps
    let u := (t.go step).2
    let entries := u.taken later
    let s := (u.run later).shared.store
    s.history = (entries.map (·.status)).rtake 3 ∧
    s.status = (entries.map (·.status)).getLast?.getD .empty ∧
    (∀ e ∈ entries, ∃ before endpoint n after,
      later = before ++ .advance e.place endpoint n :: after ∧
      (u.run before).Commits e endpoint n ∧
      (t.shared.resets < e.flight.resets ∧ u.OpensWithin e.place e.flight before ∨
        e.flight.resets ≤ t.shared.resets ∧ u.FliesAt e.place e.flight)) ∧
    ((entries.filter (·.flight.resets ≤ t.shared.resets)).map (·.place)).Nodup ∧
    ((∀ place flight, ¬u.FliesAt place flight) →
      ∀ e ∈ entries, u.OpensWithin e.place e.flight later) := by
  intro t u entries s
  have hgoes := t.goes_go step
  obtain ⟨hresets, hempty⟩ := hgoes.resets_of_reset hreset
  have hnew : t.shared.resets < u.shared.resets := hresets.symm ▸ Nat.lt_succ_self _
  have hkeeps : s.Keeps (entries.map (·.status)) := keeps_run hempty later
  have honce : AtMostOnce t.shared.resets (u.run later) entries :=
    AtMostOnce.nil.takenAfter hnew later
  have hold : ∀ place flight, u.FliesAt place flight → flight.resets ≤ t.shared.resets := by
    intro place flight hflies
    rcases (t.goesAt_go step).fliesAt hflies with hbefore | ⟨-, -, -, -, -, hsame, -⟩
    · exact resets_of_fliesAt default diffAz probe steps hbefore
    · exact hsame.le
  refine ⟨hkeeps.history, hkeeps.status, fun e he => ?comes, honce.nodup, fun hnone e he => ?fresh⟩
  case comes =>
    obtain ⟨before, endpoint, n, after, hlater, hcommits, hfrom⟩ := origin_of_mem he
    refine ⟨before, endpoint, n, after, hlater, hcommits, ?_⟩
    rcases hfrom with hopens | hflies
    · exact .inl ⟨hnew.trans_le hopens.resets_le, hopens⟩
    · exact .inr ⟨hold _ _ hflies, hflies⟩
  case fresh =>
    obtain ⟨before, endpoint, n, after, hlater, -, hopens | hflies⟩ := origin_of_mem he
    · rw [hlater]
      exact hopens.append _
    · exact absurd hflies (hnone _ _)

/-- A reset that meets the first cycle in flight: however it goes on, that cycle alone brings back
no more than one status. -/
theorem reset_run_of_first_in_flight :
    let t := (onNew ["10.0.0.1:80"] [] (.create none)).run
      [.call .start, .advance 0 "" {}, .advance 0 "" {}, .call (.reset ["10.0.0.2:80"])]
    let u := (t.go (.advance 1 "" {})).2
    .reset ∈ (t.go (.advance 1 "" {})).1 ∧
      ∀ later, ((u.taken later).filter (·.flight.resets ≤ 0)).length ≤ 1 := by
  intro t u
  have hreset : .reset ∈ (t.go (.advance 1 "" {})).1 := List.mem_singleton_self _
  refine ⟨hreset, fun later => ?_⟩
  obtain ⟨-, -, hfrom, hnodup, -⟩ :=
    reset_run ["10.0.0.1:80"] [] (.create none) hreset later
  -- The caller of the reset is done, so every old entry is of the party before it.
  have hfirst : ∀ e ∈ (u.taken later).filter (·.flight.resets ≤ 0), e.place = 0 := by
    intro e he
    rw [List.mem_filter, decide_eq_true_eq] at he
    obtain ⟨-, -, -, -, -, -, ⟨hlate, -⟩ | ⟨-, runner, probing, hplace, -⟩⟩ := hfrom e he.1
    · exact absurd he.2 (Nat.not_le_of_lt hlate)
    · generalize e.place = place at hplace ⊢
      rcases place with _ | _ | place
      · rfl
      · cases hplace
      · cases hplace
  have hplaces := List.eq_replicate_of_mem (List.forall_mem_map.2 hfirst)
  rw [List.length_map] at hplaces
  exact List.nodup_replicate.1 (hplaces ▸ hnodup)

/-- The status that a cycle in flight brings back counts, although it is empty and its cycle took its
snapshot before the reset. -/
theorem reset_meets_first_in_flight :
    let t := (onNew ["10.0.0.1:80"] [] (.create none)).run
      [.call .start, .advance 0 "" {}, .advance 0 "" {}, .call (.reset ["10.0.0.2:80"])]
    let u := (t.go (.advance 1 "" {})).2
    let later : List Step := [.advance 0 "10.0.0.1:80" {}, .advance 0 "" {}]
    .reset ∈ (t.go (.advance 1 "" {})).1 ∧
      (u.run later).shared.store.history = [.empty] ∧
      (u.taken later).length = 1 ∧
      ∀ e ∈ u.taken later, u.FliesAt e.place e.flight ∧
        ¬u.OpensWithin e.place e.flight later := by
  intro t u later
  refine ⟨List.mem_singleton_self _, rfl, rfl, fun e he => ?_⟩
  obtain rfl := List.mem_singleton.1 he
  refine ⟨⟨.starter, ⟨.begin t.shared.store, 0⟩, rfl, rfl, ?_⟩, fun hopens => ?_⟩
  · exact (Cycle.endpoints_probeOne _ _ _ _).symm
  · have hle : 1 ≤ 0 := hopens.resets_le
    exact absurd hle (by decide)

end Traffic

end ZonePool
