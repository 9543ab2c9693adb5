-- SUMMARY: Which addresses are candidates, and the turn that picks among them.
import ZonePool.Store

/-!
# Selection

Candidates are the available members of the most preferred tier that has one;
when no tier has one they are all members of `Default`. Candidates take turns:
a 64-bit count of the picks so far, shared by all callers of a pool, chooses the
next one and wraps at its end.
-/

namespace ZonePool

/-! ## Candidates -/

namespace Tiers

/-- The members of a tier that are on record as available. -/
def availableIn (t : Tiers) (status : StatusMap) (tier : Tier) : List String :=
  (t.get tier).filter status.isUp

/-- The available members of the first tier of `tiers` that has one. -/
def firstAvailable (t : Tiers) (status : StatusMap) : List Tier → Option (List String)
  | [] => none
  | tier :: rest =>
    match t.availableIn status tier with
    | [] => t.firstAvailable status rest
    | first :: more => some (first :: more)

/-- The addresses to pick from. -/
def candidates (t : Tiers) (status : StatusMap) : List String :=
  (t.firstAvailable status Tier.priority).getD t.default

end Tiers

/-! ## Taking turns -/

/-- A count of the picks so far, modulo 2^64. -/
structure Turn where
  count : UInt64 := 0
  deriving DecidableEq, Repr, Inhabited

namespace Turn

/-- The candidate whose turn it is; with no candidate the count stays. -/
def pick (turn : Turn) (candidates : List String) : Option String × Turn :=
  match candidates with
  | [] => (none, turn)
  | _ => (candidates[turn.count.toNat % candidates.length]?, ⟨turn.count + 1⟩)

/-- One pick from each list in order. -/
def pickEach (turn : Turn) : List (List String) → List (Option String) × Turn
  | [] => ([], turn)
  | candidates :: rest =>
    let (picked, turn) := turn.pick candidates
    let (others, turn) := turn.pickEach rest
    (picked :: others, turn)

end Turn

end ZonePool
