-- SUMMARY: Selections of any callers take turns while tiers and status stay the same.
import ZonePool.Admin
import ZonePool.Proofs.Json.Quote
import ZonePool.Proofs.Pool.Pick
import ZonePool.Proofs.Turn

/-!
# Selections by any callers

An address is selected by a call or by a request to the admin server, and all of
them share one count of turns. As long as nothing changes the tiers and the
status, the candidates stay the same, and so the selections of all callers
together take turns among them, whatever else happens in between.
-/

namespace ZonePool

/-! ## The address page -/

theorem Admin.addressPage_injective {a b : String}
    (h : jsonPage 200 (addressBody a) = jsonPage 200 (addressBody b)) : a = b := by
  have hbody : Json.compact (addressBody a) = Json.compact (addressBody b) := by
    simpa [jsonPage, Json.render, String.ofList_inj] using h
  have hquote : Json.quote a = Json.quote b := by
    simpa [addressBody, Document.ofMembers, Json.compact, Json.compactMembers, Json.quoteKey]
      using hbody
  exact Json.quote_injective hquote

theorem Admin.serve_address {target : String} (h : pathOf target = "/address") (recording : Bool)
    (p : Pool) : serve target recording p = (jsonPage 200 (addressBody p.pick.1), p.pick.2) := by
  simp [serve, route, h]

theorem Admin.snd_serve_of_ne {target : String} (h : pathOf target ≠ "/address")
    (recording : Bool) (p : Pool) : (serve target recording p).2 = p := by
  unfold serve route
  simp only [if_neg h]
  split
  · rfl
  split
  · rfl
  split
  · rfl
  split
  · rfl
  · rfl

/-! ## Candidates -/

theorem Tiers.nodup_candidates {t : Tiers} (h : ∀ tier, (t.get tier).Nodup) (status : StatusMap) :
    (t.candidates status).Nodup := by
  by_cases hup : ∃ tier, ∃ a ∈ t.get tier, status.get? a = some .available
  · obtain ⟨-, tier, -, -, hfound, -, -⟩ := candidates_of_available hup
    rw [hfound]
    exact (h tier).filter _
  · rw [candidates_of_none_available hup]
    exact h .default

namespace Pool

theorem Reachable.nodup_candidates {p : Pool} (h : p.Reachable) : p.candidates.Nodup := by
  obtain ⟨seed, hplaced⟩ := h.wellPlaced
  exact Tiers.nodup_candidates hplaced.nodup _

/-! ## Selections -/

/-- What one caller or request does to a pool. -/
inductive Step where
  | act (action : Action)
  /-- A request to the admin server. -/
  | get (target : String) (recording : Bool)

/-- The answer to a selection. -/
inductive Selection where
  | address (a : String)
  | page (p : Page)

/-- Whether the answer hands out an address. -/
def Selection.gives (a : String) : Selection → Bool
  | .address b => b == a
  | .page p => p == Admin.jsonPage 200 (Admin.addressBody a)

def after (p : Pool) : Step → Pool
  | .act action => p.act action
  | .get target recording => (Admin.serve target recording p).2

/-- The answer of a step that is a selection. -/
def selection? (p : Pool) : Step → Option Selection
  | .act .pick => some (.address p.pick.1)
  | .act _ => none
  | .get target recording =>
    if Admin.pathOf target = "/address" then some (.page (Admin.serve target recording p).1)
    else none

/-- The answers of the selections among some steps, in order. -/
def selections (p : Pool) : List Step → List Selection
  | [] => []
  | s :: steps => (p.selection? s).toList ++ (p.after s).selections steps

/-- None of the steps changes the tiers or the status. -/
def Steady (p : Pool) : List Step → Prop
  | [] => True
  | s :: steps =>
    ((p.after s).store.tiers = p.store.tiers ∧ (p.after s).store.status = p.store.status) ∧
      (p.after s).Steady steps

/-! ## One step -/

/-- An answer gives the address whose turn it is. -/
theorem gives_of_selection? {p : Pool} {s : Step} {x : Selection} (h : p.selection? s = some x)
    (a : String) : x.gives a = true ↔ p.pick.1 = a := by
  cases s with
  | act action =>
    cases action with
    | pick =>
      cases h
      exact beq_iff_eq
    | reset | resync | missResync | close | join | start | probeFirst | endStart | tick | probeLoop
    | endTick | commit => cases h
  | get target recording =>
    rw [selection?] at h
    split at h
    · next haddress =>
      cases h
      rw [Selection.gives, Admin.serve_address haddress, beq_iff_eq]
      exact ⟨Admin.addressPage_injective, fun heq => by rw [heq]⟩
    · cases h

/-- A selection takes a turn. -/
theorem turn_after_of_some {p : Pool} {s : Step} {x : Selection} (h : p.selection? s = some x) :
    (p.after s).turn = (p.turn.pick p.candidates).2 := by
  cases s with
  | act action =>
    cases action with
    | pick => rfl
    | reset | resync | missResync | close | join | start | probeFirst | endStart | tick | probeLoop
    | endTick | commit => cases h
  | get target recording =>
    rw [selection?] at h
    split at h
    · next haddress =>
      rw [after, Admin.serve_address haddress]
      rfl
    · cases h

/-- Nothing else takes one. -/
theorem turn_after_of_none {p : Pool} {s : Step} (h : p.selection? s = none) :
    (p.after s).turn = p.turn := by
  cases s with
  | act action =>
    cases action with
    | pick => cases h
    | resync instances =>
      rw [after, act, resync]
      split <;> rfl
    | reset | missResync | close | join | start | probeFirst | endStart | tick | probeLoop
    | endTick | commit => rfl
  | get target recording =>
    rw [selection?] at h
    split at h
    · cases h
    · next hother => rw [after, Admin.snd_serve_of_ne hother]

/-! ## Runs -/

theorem candidates_after {p : Pool} {s : Step} (htiers : (p.after s).store.tiers = p.store.tiers)
    (hstatus : (p.after s).store.status = p.store.status) :
    (p.after s).candidates = p.candidates := by
  rw [candidates, candidates, htiers, hstatus]

/-- The answer gives the candidate whose turn it is, and no other address. -/
def Selection.Takes (candidates : List String) (x : Selection) (turn : Option String) : Prop :=
  ∃ b ∈ candidates, turn = some b ∧ ∀ a, x.gives a = true ↔ a = b

/-- The selections of a steady run are turns in a row. -/
theorem forall₂_selections {p : Pool} (hne : p.candidates ≠ []) {steps : List Step}
    (hsteady : p.Steady steps) :
    List.Forall₂ (Selection.Takes p.candidates) (p.selections steps)
      (p.turn.pickEach (List.replicate (p.selections steps).length p.candidates)).1 := by
  induction steps generalizing p with
  | nil => exact .nil
  | cons s steps ih =>
    obtain ⟨⟨htiers, hstatus⟩, hrest⟩ := hsteady
    have hsame := candidates_after htiers hstatus
    have htail := ih (hsame ▸ hne) hrest
    rw [hsame] at htail
    rw [selections]
    cases hselect : p.selection? s with
    | none =>
      rw [turn_after_of_none hselect] at htail
      exact htail
    | some x =>
      rw [turn_after_of_some hselect] at htail
      have hhead : x.Takes p.candidates (p.turn.pick p.candidates).1 := by
        obtain ⟨picked, hmem, hpick⟩ := p.turn.pick_mem hne
        refine ⟨picked, hmem, hpick, fun a => ?_⟩
        rw [gives_of_selection? hselect, fst_pick, hpick, Option.getD_some, eq_comm]
      exact .cons hhead htail

/-! ## The law of turns -/

section

variable {candidates : List String} {answers : List Selection} {turns : List (Option String)}

theorem exists_gives_of_takes (h : List.Forall₂ (Selection.Takes candidates) answers turns) :
    ∀ x ∈ answers, ∃ b ∈ candidates, ∀ a, x.gives a = true ↔ a = b := by
  induction h with
  | nil => simp
  | cons hx _ ih =>
    obtain ⟨b, hmem, -, hgives⟩ := hx
    rw [List.forall_mem_cons]
    exact ⟨⟨b, hmem, hgives⟩, ih⟩

theorem countP_gives (h : List.Forall₂ (Selection.Takes candidates) answers turns) (a : String) :
    answers.countP (·.gives a) = turns.count (some a) := by
  induction h with
  | nil => rfl
  | @cons x turn answers turns hx _ ih =>
    obtain ⟨b, -, rfl, hgives⟩ := hx
    have hhead : x.gives a = (some b == some a) := by
      rw [Bool.eq_iff_iff, hgives, beq_iff_eq, Option.some_inj, eq_comm]
    rw [List.countP_cons, List.count_cons, ih, hhead]

theorem isChain_gives (h : List.Forall₂ (Selection.Takes candidates) answers turns)
    (hchain : turns.IsChain (· ≠ ·)) :
    answers.IsChain fun x y => ∀ a, x.gives a = true → y.gives a = false := by
  induction h with
  | nil => exact .nil
  | cons hx htail ih =>
    cases htail with
    | nil => exact .singleton _
    | cons hy _ =>
      rw [List.isChain_cons_cons] at hchain
      refine List.isChain_cons_cons.2 ⟨fun a hgives => ?_, ih hchain.2⟩
      obtain ⟨b, -, rfl, hxb⟩ := hx
      obtain ⟨c, -, rfl, hyc⟩ := hy
      rw [hxb] at hgives
      rw [← Bool.not_eq_true, hyc, hgives]
      exact fun heq => hchain.1 (congrArg some heq)

end

/-- While nothing changes the tiers and the status, the selections of all callers give one candidate
each. So many rounds of them give every candidate so many times, unless the count begins anew
within them, and two candidates alternate from any count on. -/
theorem selections_take_turns {p : Pool} (hreachable : p.Reachable) (hne : p.candidates ≠ [])
    (turn : Turn) {steps : List Step} (hsteady : { p with turn }.Steady steps) :
    let answers := { p with turn }.selections steps
    (∀ x ∈ answers, ∃ b ∈ p.candidates, ∀ a, x.gives a = true ↔ a = b) ∧
    (∀ k, answers.length = p.candidates.length * k →
      turn.count.toNat + p.candidates.length * k ≤ UInt64.size →
      ∀ a ∈ p.candidates, answers.countP (·.gives a) = k) ∧
    (p.candidates.length = 2 →
      answers.IsChain fun x y => ∀ a, x.gives a = true → y.gives a = false) := by
  intro answers
  have hnodup := hreachable.nodup_candidates
  have htakes : List.Forall₂ (Selection.Takes p.candidates) answers
      (turn.pickEach (List.replicate answers.length p.candidates)).1 :=
    forall₂_selections (p := { p with turn }) hne hsteady
  refine ⟨exists_gives_of_takes htakes, fun k hlength hwrap a ha => ?_, fun htwo => ?_⟩
  · rw [countP_gives htakes, hlength]
    exact Turn.count_pickEach_rounds hnodup ha hwrap
  · exact isChain_gives htakes (turn.isChain_pickEach hnodup htwo _)

/-- A call and a request, with a start in between, give each of two candidates once, although the
count has only two turns left. -/
theorem selections_take_turns_of_two :
    let p := create ["10.0.0.1:80", "10.0.0.2:80"] {} .empty
    let turn : Turn := ⟨18446744073709551614⟩
    let steps : List Step := [.act .pick, .act .start, .get "/address?next" false]
    p.Reachable ∧ p.candidates ≠ [] ∧ { p with turn }.Steady steps ∧
      ∀ a ∈ p.candidates, ({ p with turn }.selections steps).countP (Selection.gives a) = 1 := by
  intro p turn steps
  have hreachable : p.Reachable := ⟨_, _, _, [], rfl⟩
  have hne : p.candidates ≠ [] := by decide
  have haddress : Admin.pathOf "/address?next" = "/address" := by decide
  have hrequest : ∀ q : Pool, (q.after (.get "/address?next" false)).store = q.store := by
    intro q
    rw [after, Admin.serve_address haddress]
    rfl
  have hsteady : { p with turn }.Steady steps := by
    refine ⟨⟨rfl, rfl⟩, ⟨rfl, rfl⟩, ?_, trivial⟩
    rw [hrequest]
    exact ⟨rfl, rfl⟩
  have hlength : ({ p with turn }.selections steps).length = 2 := by
    simp [steps, selections, selection?, haddress]
  refine ⟨hreachable, hne, hsteady, ?_⟩
  exact (selections_take_turns hreachable hne turn hsteady).2.1 1 hlength (by decide)

end Pool

end ZonePool
