-- SUMMARY: Requests to the admin server go unnoticed, except those for an address.
import ZonePool.Proofs.Pool.Selections
import ZonePool.Pool.Session

/-!
# Requests among other inputs

The admin server reads the pool that everyone else acts on. A request for an
address is a pick. Any other request leaves the pool as it found it, so whoever
watches the rest of a run cannot tell whether the request was made.
-/

namespace ZonePool

/-! ## One request -/

namespace Admin

theorem respond_address {target : String} (h : pathOf target = "/address") (method : String)
    (recording : Bool) (p : Pool) :
    respond method target recording p =
      ((jsonPage 200 (addressBody p.pick.1)).sentFor method, p.pick.2) := by
  rw [respond, serve_address h]

theorem snd_respond_of_ne {target : String} (h : pathOf target ≠ "/address") (method : String)
    (recording : Bool) (p : Pool) : (respond method target recording p).2 = p := by
  rw [respond, snd_serve_of_ne h]

end Admin

namespace Pool

theorem snd_pick (p : Pool) :
    p.pick.2 = { p with turn := ⟨p.turn.count + if p.candidates = [] then 0 else 1⟩ } := by
  rw [pick]
  cases p.candidates with
  | nil => simp [Turn.pick]
  | cons first more => rfl

/-! ## Inputs -/

/-- What reaches a pool. -/
inductive Input where
  | act (action : Action)
  /-- A request to the admin server. -/
  | ask (method target : String)

/-- Whether an input may change the pool. -/
def Input.counts : Input → Bool
  | .act _ => true
  | .ask _ target => Admin.pathOf target == "/address"

/-- What an action answers its caller. -/
def reply (p : Pool) : Action → Session.Answer
  | .pick => .picked [p.pick.1]
  | .resync instances => .resynced (p.resync instances).1
  | .start => .started p.monitor.beginStart.1
  | _ => .done

/-- The answer to an input, and the pool after it. -/
def take (recording : Bool) (p : Pool) : Input → Session.Answer × Pool
  | .act action => (p.reply action, p.act action)
  | .ask method target =>
    let (page, p) := Admin.respond method target recording p
    (.page page, p)

/-- What can be seen of one input: its answer, and everything there is in the pool after it. -/
structure Seen where
  input : Input
  answer : Session.Answer
  pool : Pool

/-- All that can be seen of some inputs in order. -/
def watch (recording : Bool) (p : Pool) : List Input → List Seen
  | [] => []
  | i :: inputs =>
    ⟨i, (p.take recording i).1, (p.take recording i).2⟩ ::
      (p.take recording i).2.watch recording inputs

/-- The pool after some inputs. -/
def takeAll (recording : Bool) (p : Pool) (inputs : List Input) : Pool :=
  inputs.foldl (fun p i => (p.take recording i).2) p

theorem takeAll_cons (recording : Bool) (p : Pool) (i : Input) (inputs : List Input) :
    p.takeAll recording (i :: inputs) = (p.take recording i).2.takeAll recording inputs := rfl

/-! ## Inputs that do not count -/

theorem snd_take_of_not_counts {i : Input} (h : i.counts = false) (recording : Bool) (p : Pool) :
    (p.take recording i).2 = p := by
  cases i with
  | act action => cases h
  | ask method target => exact Admin.snd_respond_of_ne (ne_of_beq_false h) method recording p

section

variable {keep : Input → Bool} (hkeep : ∀ i, i.counts = true → keep i = true)
include hkeep

private theorem snd_take_of_not_keep {i : Input} (h : keep i = false) (recording : Bool)
    (p : Pool) : (p.take recording i).2 = p := by
  refine snd_take_of_not_counts ?_ recording p
  rw [Bool.eq_false_iff]
  intro hcounts
  rw [hkeep i hcounts] at h
  cases h

/-- Without some of the inputs that do not count, the others look as they did with them. -/
theorem watch_filter (recording : Bool) (p : Pool) (inputs : List Input) :
    p.watch recording (inputs.filter keep) =
      (p.watch recording inputs).filter (keep ·.input) := by
  induction inputs generalizing p with
  | nil => rfl
  | cons i inputs ih =>
    cases h : keep i with
    | true => simp only [watch, List.filter_cons, h, if_true, ih]
    | false =>
      simp only [watch, List.filter_cons, h, Bool.false_eq_true, if_false, ih,
        snd_take_of_not_keep hkeep h]

theorem takeAll_filter (recording : Bool) (p : Pool) (inputs : List Input) :
    p.takeAll recording (inputs.filter keep) = p.takeAll recording inputs := by
  induction inputs generalizing p with
  | nil => rfl
  | cons i inputs ih =>
    cases h : keep i with
    | true => simp only [takeAll_cons, List.filter_cons, h, if_true, ih]
    | false =>
      simp only [takeAll_cons, List.filter_cons, h, Bool.false_eq_true, if_false, ih,
        snd_take_of_not_keep hkeep h]

end

/-! ## The law of requests -/

/-- Requests for anything but an address can be taken out of any run, all of them or some: what is
left of the run looks the same. A request for an address is a pick, which takes a turn if there are
candidates. -/
theorem requests_go_unnoticed (recording : Bool) (p : Pool) (inputs : List Input) :
    (∀ keep : Input → Bool, (∀ i, i.counts = true → keep i = true) →
      p.watch recording (inputs.filter keep) =
        (p.watch recording inputs).filter (keep ·.input) ∧
      p.takeAll recording (inputs.filter keep) = p.takeAll recording inputs) ∧
    ∀ method target, Admin.pathOf target = "/address" →
      let q := p.takeAll recording inputs
      q.take recording (.act .pick) = (.picked [q.pick.1], q.pick.2) ∧
      q.take recording (.ask method target) =
        (.page ((Admin.jsonPage 200 (Admin.addressBody q.pick.1)).sentFor method), q.pick.2) ∧
      q.pick.2 = { q with turn := ⟨q.turn.count + if q.candidates = [] then 0 else 1⟩ } := by
  refine ⟨fun keep hkeep => ?unnoticed, fun method target haddress => ?address⟩
  case unnoticed =>
    exact ⟨watch_filter hkeep recording p inputs, takeAll_filter hkeep recording p inputs⟩
  case address =>
    intro q
    refine ⟨rfl, ?_, snd_pick q⟩
    rw [take, Admin.respond_address haddress]

/-- Between a pick and a request for an address by `HEAD`, the tiers and a page that does not exist
are asked for. -/
theorem requests_go_unnoticed_of_four :
    let p := create ["10.0.0.1:80", "10.0.0.2:80"] {} .empty
    let first : List Input := [.act .pick, .ask "GET" "/tiers?all", .ask "POST" "/addresses"]
    let second : Input := .ask "HEAD" "http://localhost:9091/address"
    p.watch true [.act .pick, second] =
        (p.watch true (first ++ [second])).filter (·.input.counts) ∧
      ((p.takeAll true first).take true second).2.turn.count = 2 := by
  intro p first second
  constructor
  · exact ((requests_go_unnoticed true p (first ++ [second])).1 _ fun _ => id).1
  · obtain ⟨hrun, haddress⟩ := requests_go_unnoticed true p first
    have hfirst : p.pick.2 = p.takeAll true first := (hrun _ fun _ => id).2
    obtain ⟨-, hrequest, hturn⟩ := haddress "HEAD" "http://localhost:9091/address" (by decide)
    rw [hrequest, hturn, ← hfirst, snd_pick]
    decide

end Pool

end ZonePool
