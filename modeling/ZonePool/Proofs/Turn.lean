-- SUMMARY: Turns in a row are rotations of the candidates.
import Mathlib.Data.List.Count
import Mathlib.Data.List.Rotate
import ZonePool.Selection

/-!
# Turns in a row

As long as the candidates stay the same, the count walks through them in order
and begins anew at the end of the list. So as many turns in a row as there are
candidates are a rotation of the list, unless the count itself begins anew in
between; with two candidates the walk alternates even then, as the number of
counts is even.
-/

namespace ZonePool.Turn

variable {candidates : List String}

/-! ## Picks one after another -/

theorem pick_of_ne_nil (turn : Turn) (h : candidates ≠ []) :
    turn.pick candidates =
      (candidates[turn.count.toNat % candidates.length]?, ⟨turn.count + 1⟩) := by
  cases candidates with
  | nil => exact absurd rfl h
  | cons first more => rfl

theorem pickEach_append (turn : Turn) (first second : List (List String)) :
    turn.pickEach (first ++ second) =
      ((turn.pickEach first).1 ++ ((turn.pickEach first).2.pickEach second).1,
        ((turn.pickEach first).2.pickEach second).2) := by
  induction first generalizing turn with
  | nil => rfl
  | cons candidates first ih => simp [pickEach, ih]

/-- So many turns in a row, of whatever count. -/
theorem pickEach_replicate (turn : Turn) (h : candidates ≠ []) (m : Nat) :
    turn.pickEach (List.replicate m candidates) =
      ((List.range m).map fun i =>
          candidates[(turn.count + UInt64.ofNat i).toNat % candidates.length]?,
        ⟨turn.count + UInt64.ofNat m⟩) := by
  induction m with
  | zero => simp [pickEach]
  | succ m ih =>
    rw [List.replicate_succ', pickEach_append, ih, List.range_succ, List.map_append]
    simp [pickEach, pick_of_ne_nil _ h, UInt64.add_assoc]

theorem toNat_count_add {turn : Turn} {i : Nat} (h : turn.count.toNat + i < UInt64.size) :
    (turn.count + UInt64.ofNat i).toNat = turn.count.toNat + i := by
  have hsize : UInt64.size = 18446744073709551616 := rfl
  rw [UInt64.toNat_add, UInt64.toNat_ofNat']
  omega

/-! ## Rounds -/

/-- One turn for each candidate is a rotation of the candidates. -/
theorem pickEach_round {turn : Turn} (h : candidates ≠ [])
    (hwrap : turn.count.toNat + candidates.length ≤ UInt64.size) :
    (turn.pickEach (List.replicate candidates.length candidates)).1 =
      (candidates.rotate turn.count.toNat).map some := by
  rw [pickEach_replicate turn h]
  refine List.ext_getElem (by simp) ?_
  intro i hi _
  have hlt : i < candidates.length := by simpa using hi
  have hmod : (turn.count.toNat + i) % candidates.length < candidates.length :=
    Nat.mod_lt _ (by omega)
  have hcount : (turn.count + UInt64.ofNat i).toNat = turn.count.toNat + i :=
    toNat_count_add (by omega)
  simp only [List.getElem_map, List.getElem_range, List.getElem_rotate, hcount,
    List.getElem?_eq_getElem hmod, Nat.add_comm i]

/-- In so many rounds every candidate has its turn so many times. -/
theorem count_pickEach_rounds {turn : Turn} {a : String} (hnodup : candidates.Nodup)
    (ha : a ∈ candidates) {k : Nat} (hwrap : turn.count.toNat + candidates.length * k ≤ UInt64.size) :
    (turn.pickEach (List.replicate (candidates.length * k) candidates)).1.count (some a) = k := by
  have hne : candidates ≠ [] := List.ne_nil_of_mem ha
  have hpos : 0 < candidates.length := List.length_pos_of_mem ha
  induction k with
  | zero => simp [pickEach]
  | succ k ih =>
    rw [Nat.mul_succ] at hwrap ⊢
    -- The count begins anew after the last round at the earliest.
    have hstart : (turn.count + UInt64.ofNat (candidates.length * k)).toNat =
        turn.count.toNat + candidates.length * k := toNat_count_add (by omega)
    have hlast : ((turn.pickEach (List.replicate (candidates.length * k) candidates)).2.pickEach
        (List.replicate candidates.length candidates)).1.count (some a) = 1 := by
      rw [pickEach_replicate turn hne, pickEach_round hne (by simp only [hstart]; omega),
        List.count_map_of_injective _ _ fun _ _ => Option.some.inj, (List.rotate_perm _ _).count_eq]
      exact List.count_eq_one_of_mem hnodup ha
    rw [← List.replicate_append_replicate, pickEach_append, List.count_append, hlast,
      ih (by omega)]

/-! ## Two candidates -/

/-- The number of counts is even, so going on by one always changes the parity. -/
theorem parity_succ (count : UInt64) : (count + 1).toNat % 2 ≠ count.toNat % 2 := by
  rw [UInt64.toNat_add]
  simp only [UInt64.toNat_one]
  omega

/-- Of two candidates, two turns in a row go to different ones, whatever the count. -/
theorem isChain_pickEach (turn : Turn) (hnodup : candidates.Nodup) (htwo : candidates.length = 2)
    (m : Nat) :
    (turn.pickEach (List.replicate m candidates)).1.IsChain (· ≠ ·) := by
  have hne : candidates ≠ [] := List.ne_nil_of_length_pos (by omega)
  rw [pickEach_replicate turn hne, List.isChain_iff_getElem]
  intro i hi heq
  simp only [List.getElem_map, List.getElem_range, htwo] at heq
  have hsame : (turn.count + UInt64.ofNat i).toNat % 2 =
      (turn.count + UInt64.ofNat (i + 1)).toNat % 2 := by
    refine (List.getElem?_inj ?_ hnodup).1 heq
    rw [htwo]
    exact Nat.mod_lt _ Nat.two_pos
  have hnext : turn.count + UInt64.ofNat (i + 1) = turn.count + UInt64.ofNat i + 1 := by
    simp [UInt64.add_assoc]
  rw [hnext] at hsame
  exact parity_succ _ hsame.symm

end ZonePool.Turn
