-- SUMMARY: Runs of the traffic on a store, and what no run of it increases.
import ZonePool.Proofs.Traffic.Party

/-!
# Runs of the traffic

A run is a list of steps: a new caller comes, or some party takes its next step.
What a run notes is its log. Nearly all that can be said of a log is that some
notes are rare, and that comes from counting: a party that may still make such a
note counts as much as the note, and a step never makes the count grow.
-/

namespace ZonePool

open Traffic

structure Traffic where
  shared : Shared
  parties : List Party

namespace Traffic

inductive Step where
  | call (call : Call)
  /-- The party in this place takes its next step; if it is probing, the probe of the endpoint ends
  in the network. -/
  | advance (place : Nat) (endpoint : String) (n : Network)

/-- A new store with a probe, and nobody on it. -/
def onNew (default diffAz : List String) (probe : Probe) : Traffic :=
  ⟨{ store := .create default diffAz, probe }, []⟩

/-! ## Steps -/

/-- What is seen of a step, and the traffic after it. -/
def go (t : Traffic) : Step → List Note × Traffic
  | .call call => ([], { t with parties := t.parties ++ [.calling call] })
  | .advance place endpoint n =>
    match t.parties[place]? with
    | none => ([], t)
    | some party =>
      let (notes, shared, party) := party.next t.shared endpoint n
      (notes, ⟨shared, t.parties.set place party⟩)

/-- All that a step may be, with the place of the party that takes it. -/
inductive GoesAt (t : Traffic) : Step → List Note → Traffic → Prop where
  | call (call : Call) : GoesAt t (.call call) [] ⟨t.shared, t.parties ++ [.calling call]⟩
  | nobody (place : Nat) (endpoint : String) (n : Network) :
    GoesAt t (.advance place endpoint n) [] t
  | advance {place : Nat} {party party' : Party} {notes : List Note} {shared : Shared}
    (endpoint : String) (n : Network) :
    t.parties[place]? = some party → Takes t.shared party notes shared party' →
    GoesAt t (.advance place endpoint n) notes ⟨shared, t.parties.set place party'⟩

theorem goesAt_go (t : Traffic) (step : Step) : GoesAt t step (t.go step).1 (t.go step).2 := by
  cases step with
  | call call => exact .call call
  | advance place endpoint n =>
    cases hparty : t.parties[place]? with
    | none =>
      simp only [go, hparty]
      exact .nobody place endpoint n
    | some party =>
      simp only [go, hparty]
      exact .advance endpoint n hparty (party.takes_next t.shared endpoint n)

/-- All that a step may be, wherever it is taken. -/
inductive Goes (t : Traffic) : List Note → Traffic → Prop where
  | call (call : Call) : Goes t [] ⟨t.shared, t.parties ++ [.calling call]⟩
  | advance {before after : List Party} {party party' : Party} {notes : List Note} {shared : Shared} :
    t.parties = before ++ party :: after → Takes t.shared party notes shared party' →
    Goes t notes ⟨shared, before ++ party' :: after⟩
  | nobody : Goes t [] t

theorem GoesAt.goes {t u : Traffic} {step : Step} {notes : List Note} (h : GoesAt t step notes u) :
    Goes t notes u := by
  cases h with
  | call call => exact .call call
  | nobody => exact .nobody
  | @advance place party party' _ _ _ _ hparty htakes =>
    obtain ⟨hlt, hget⟩ := List.getElem?_eq_some_iff.1 hparty
    have hsplit : t.parties = t.parties.take place ++ party :: t.parties.drop (place + 1) := by
      rw [← hget, List.getElem_cons_drop, List.take_append_drop]
    rw [List.set_eq_take_append_cons_drop, if_pos hlt]
    exact .advance hsplit htakes

theorem goes_go (t : Traffic) (step : Step) : Goes t (t.go step).1 (t.go step).2 :=
  (t.goesAt_go step).goes

theorem go_advance {t : Traffic} {before after : List Party} {party : Party}
    (h : t.parties = before ++ party :: after) (endpoint : String) (n : Network) :
    t.go (.advance before.length endpoint n) =
      ((party.next t.shared endpoint n).1,
        ⟨(party.next t.shared endpoint n).2.1,
          before ++ (party.next t.shared endpoint n).2.2 :: after⟩) := by
  simp [go, h]

/-! ## Runs -/

/-- Several steps one after another. -/
def run (t : Traffic) (steps : List Step) : Traffic :=
  steps.foldl (fun t step => (t.go step).2) t

/-- What is seen of several steps, in order. -/
def log (t : Traffic) : List Step → List Note
  | [] => []
  | step :: steps => (t.go step).1 ++ (t.go step).2.log steps

@[simp] theorem run_nil (t : Traffic) : t.run [] = t := rfl

@[simp] theorem run_cons (t : Traffic) (step : Step) (steps : List Step) :
    t.run (step :: steps) = (t.go step).2.run steps := rfl

theorem run_append (t : Traffic) (first second : List Step) :
    t.run (first ++ second) = (t.run first).run second :=
  List.foldl_append

@[simp] theorem log_nil (t : Traffic) : t.log [] = [] := rfl

@[simp] theorem log_cons (t : Traffic) (step : Step) (steps : List Step) :
    t.log (step :: steps) = (t.go step).1 ++ (t.go step).2.log steps := rfl

theorem log_append (t : Traffic) (first second : List Step) :
    t.log (first ++ second) = t.log first ++ (t.run first).log second := by
  induction first generalizing t with
  | nil => rfl
  | cons step first ih => simp [ih]

/-- What every step keeps holds after every run. -/
theorem run_induction {P : Traffic → Prop}
    (hstep : ∀ t notes u, Goes t notes u → P t → P u) {t : Traffic} (h : P t)
    (steps : List Step) : P (t.run steps) := by
  induction steps generalizing t with
  | nil => exact h
  | cons step steps ih => exact ih (hstep t _ _ (t.goes_go step) h)

/-! ## What no run increases -/

/-- As long as `P` holds, which then goes on holding, a step makes no more notes of kind `α` than it
makes of kind `β` or pays for: with a party of kind `μ`, or with what the lifecycle is worth. -/
structure Bounds (P : Shared → Prop) (α β : Note → Bool) (μ : Party → Bool) (φ : Lifecycle → Nat) :
    Prop where
  calling : ∀ call, μ (.calling call) = false
  stays : ∀ {s party notes s' party'}, Takes s party notes s' party' → P s → P s'
  counts : ∀ {s party notes s' party'}, Takes s party notes s' party' → P s →
    notes.countP α + [party'].countP μ + φ s'.store.lifecycle ≤
      notes.countP β + [party].countP μ + φ s.store.lifecycle

variable {P : Shared → Prop} {α β : Note → Bool} {μ : Party → Bool} {φ : Lifecycle → Nat}

theorem Bounds.go (h : Bounds P α β μ φ) {t u : Traffic} {notes : List Note} (hgoes : Goes t notes u)
    (ht : P t.shared) :
    P u.shared ∧ notes.countP α + u.parties.countP μ + φ u.shared.store.lifecycle ≤
      notes.countP β + t.parties.countP μ + φ t.shared.store.lifecycle := by
  cases hgoes with
  | call call => exact ⟨ht, by simp [h.calling]⟩
  | nobody => exact ⟨ht, by simp⟩
  | @advance before after party party' notes shared hparties htakes =>
    refine ⟨h.stays htakes ht, ?_⟩
    have hcounts := h.counts htakes ht
    rw [hparties, List.append_cons, List.append_cons before party]
    simp only [List.countP_append]
    omega

theorem Bounds.run (h : Bounds P α β μ φ) {t : Traffic} (ht : P t.shared) (steps : List Step) :
    (t.log steps).countP α + (t.run steps).parties.countP μ + φ (t.run steps).shared.store.lifecycle ≤
      (t.log steps).countP β + t.parties.countP μ + φ t.shared.store.lifecycle := by
  induction steps generalizing t with
  | nil => simp
  | cons step steps ih =>
    obtain ⟨hnext, hgo⟩ := h.go (t.goes_go step) ht
    have hrest := ih hnext
    simp only [log_cons, run_cons, List.countP_append]
    omega

end Traffic

end ZonePool
