-- SUMMARY: Lists without repetition by first occurrences, and the union of the three tiers.
import Mathlib.Data.List.Induction
import Mathlib.Data.List.Perm.Basic
import ZonePool.Tier

/-!
# Addresses once each

Taking out repetitions is said by what the result is: the same addresses, in the
order in which they first occur. No list has two such results. The induction is
on the addresses seen so far: one more of them is either known already, and
changes nothing, or comes last.
-/

namespace ZonePool

variable {xs ys zs : List String}

/-! ## First occurrences -/

/-- The second list has the elements of the first one, each once and in the order in which they first
occur there. -/
structure FirstOccurrences (xs ys : List String) : Prop where
  mem_iff : ∀ a, a ∈ ys ↔ a ∈ xs
  ordered : ys.Pairwise fun a b => xs.idxOf a < xs.idxOf b

theorem FirstOccurrences.nodup (h : FirstOccurrences xs ys) : ys.Nodup := by
  refine h.ordered.imp ?_
  rintro a _ hlt rfl
  exact Nat.lt_irrefl _ hlt

/-- A list has its first occurrences in one order only. -/
theorem FirstOccurrences.unique (hys : FirstOccurrences xs ys) (hzs : FirstOccurrences xs zs) :
    ys = zs := by
  have hperm : ys.Perm zs :=
    (List.perm_ext_iff_of_nodup hys.nodup hzs.nodup).2 fun a =>
      (hys.mem_iff a).trans (hzs.mem_iff a).symm
  refine hperm.eq_of_pairwise ?_ hys.ordered hzs.ordered
  intro a b _ _ hab hba
  exact absurd hba (Nat.lt_asymm hab)

/-! ## One more address -/

theorem distinct_concat (xs : List String) (a : String) :
    distinct (xs ++ [a]) = if a ∈ xs then distinct xs else distinct xs ++ [a] := by
  rw [distinct, List.eraseDups_append, List.removeAll]
  have hone : [a].eraseDups = [a] := rfl
  split <;> simp_all [distinct]

theorem firstOccurrences_distinct (xs : List String) : FirstOccurrences xs (distinct xs) where
  mem_iff _ := mem_distinct
  ordered := by
    induction xs using List.reverseRecOn with
    | nil => exact .nil
    | append_singleton xs a ih =>
      have hplace : ∀ {b}, b ∈ distinct xs → (xs ++ [a]).idxOf b = xs.idxOf b := fun hb =>
        List.idxOf_append_of_mem (mem_distinct.1 hb)
      have hordered : (distinct xs).Pairwise fun b c => (xs ++ [a]).idxOf b < (xs ++ [a]).idxOf c :=
        ih.imp_of_mem fun hb hc hlt => by rwa [hplace hb, hplace hc]
      rw [distinct_concat]
      split
      · exact hordered
      · next ha =>
        refine List.pairwise_append.2 ⟨hordered, List.pairwise_singleton _ _, fun b hb c hc => ?_⟩
        obtain rfl := List.mem_singleton.1 hc
        rw [hplace hb, List.idxOf_append_of_notMem ha]
        exact Nat.lt_of_lt_of_le (List.idxOf_lt_length_iff.2 (mem_distinct.1 hb)) (Nat.le_add_right _ _)

theorem distinct_eq_iff : distinct xs = ys ↔ ys.Nodup ∧ FirstOccurrences xs ys := by
  constructor
  · rintro rfl
    exact ⟨nodup_distinct xs, firstOccurrences_distinct xs⟩
  · rintro ⟨-, h⟩
    exact (firstOccurrences_distinct xs).unique h

theorem distinct_distinct (xs : List String) : distinct (distinct xs) = distinct xs := by
  induction xs using List.reverseRecOn with
  | nil => rfl
  | append_singleton xs a ih =>
    rw [distinct_concat]
    split
    · exact ih
    · next ha => rw [distinct_concat, if_neg (mt mem_distinct.1 ha), ih]

/-! ## Two lists, one after the other -/

theorem distinct_filter (p : String → Bool) (xs : List String) :
    distinct (xs.filter p) = (distinct xs).filter p := by
  induction xs using List.reverseRecOn with
  | nil => rfl
  | append_singleton xs a ih =>
    rw [List.filter_append, distinct_concat]
    cases hp : p a with
    | true =>
      have hkept : [a].filter p = [a] := by simp [hp]
      have hmem : a ∈ xs.filter p ↔ a ∈ xs := by simp [hp]
      rw [hkept, distinct_concat, ih, if_congr hmem rfl rfl]
      split
      · rfl
      · rw [List.filter_append, hkept]
    | false =>
      have hdropped : [a].filter p = [] := by simp [hp]
      rw [hdropped, List.append_nil, ih]
      split
      · rfl
      · rw [List.filter_append, hdropped, List.append_nil]

/-- What the first list has already is not taken from the second one. -/
theorem distinct_append (xs ys : List String) :
    distinct (xs ++ ys) = distinct xs ++ (distinct ys).filter (· ∉ xs) := by
  have hnew : ys.removeAll xs = ys.filter (· ∉ xs) := by simp [List.removeAll]
  rw [distinct, List.eraseDups_append, hnew, ← distinct, ← distinct, distinct_filter]

/-! ## The union of the tiers -/

namespace Tiers

theorem union_eq (t : Tiers) :
    t.union = distinct t.default ++ (distinct t.sameAz).filter (· ∉ t.default) ++
      (distinct t.diffAz).filter fun a => a ∉ t.default ∧ a ∉ t.sameAz := by
  simp only [union, members, distinct_append, List.mem_append, not_or]

theorem count_union (t : Tiers) (a : String) :
    t.union.count a = if a ∈ t.members then 1 else 0 := by
  rw [union, (nodup_distinct t.members).count, if_congr mem_distinct rfl rfl]

end Tiers

/-! ## The law -/

/-- Of any list exactly the first occurrences are kept, in their order. Nothing changes when this is
done again; of two lists the second adds what the first lacks; and the union has each member of a
tier once, those of `Default` first, then the new ones of `SameAz`, then the new ones of `DiffAz`. -/
theorem distinct_keeps_first_occurrences :
    (∀ xs ys, distinct xs = ys ↔ ys.Nodup ∧ FirstOccurrences xs ys) ∧
    (∀ xs, distinct (distinct xs) = distinct xs) ∧
    (∀ xs ys, distinct (xs ++ ys) = distinct xs ++ (distinct ys).filter (· ∉ xs)) ∧
    (∀ (t : Tiers) (a : String),
      t.union.count a = if a ∈ t.default ++ t.sameAz ++ t.diffAz then 1 else 0) ∧
    (∀ t : Tiers, t.union =
      distinct t.default ++ (distinct t.sameAz).filter (· ∉ t.default) ++
        (distinct t.diffAz).filter fun a => a ∉ t.default ∧ a ∉ t.sameAz) :=
  ⟨fun _ _ => distinct_eq_iff, distinct_distinct, distinct_append, Tiers.count_union, Tiers.union_eq⟩

example : Tiers.union ⟨["a:1", "b:1", "a:1"], ["c:1", "b:1"], ["d:1", "c:1", "a:1"]⟩ =
    ["a:1", "b:1", "c:1", "d:1"] := by
  decide

end ZonePool
