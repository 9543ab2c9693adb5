-- SUMMARY: Lists cut after their longest front within a class.

/-!
# Cuts

Most readers take the longest front of a text whose characters belong to a
class, and go on with the rest. Nothing is lost by such a cut, its front lies
in the class, and its rest begins outside.
-/

namespace ZonePool.Text

variable {α : Type}

/-- The longest front of a list within a class, and the rest. -/
def cut (p : α → Bool) (xs : List α) : List α × List α :=
  (xs.takeWhile p, xs.dropWhile p)

theorem fst_append_snd_cut (p : α → Bool) (xs : List α) : (cut p xs).1 ++ (cut p xs).2 = xs :=
  List.takeWhile_append_dropWhile

theorem of_mem_fst_cut {p : α → Bool} {xs : List α} {x : α} (h : x ∈ (cut p xs).1) : p x := by
  induction xs with
  | nil => simp [cut] at h
  | cons y ys ih =>
    simp only [cut, List.takeWhile_cons] at h ih
    split at h
    · rcases List.mem_cons.1 h with rfl | h
      · assumption
      · exact ih h
    · simp at h

theorem head?_snd_cut {p : α → Bool} {xs : List α} {x : α} (h : (cut p xs).2.head? = some x) :
    p x = false := by
  have := List.head?_dropWhile_not p xs
  simp only [cut] at h
  simp_all

theorem length_snd_cut_le (p : α → Bool) (xs : List α) : (cut p xs).2.length ≤ xs.length := by
  have := congrArg List.length (fst_append_snd_cut p xs)
  rw [List.length_append] at this
  omega

/-- A front that is not empty makes the rest shorter. -/
theorem length_snd_cut_lt {p : α → Bool} {xs : List α} (h : (cut p xs).1 ≠ []) :
    (cut p xs).2.length < xs.length := by
  have := congrArg List.length (fst_append_snd_cut p xs)
  have := List.length_pos_iff.2 h
  rw [List.length_append] at *
  omega

/-! ## Where the cut falls -/

/-- A front within the class is cut off whole, and the cut falls somewhere behind it. -/
theorem cut_append {p : α → Bool} {xs : List α} (h : ∀ x ∈ xs, p x = true) (ys : List α) :
    cut p (xs ++ ys) = (xs ++ (cut p ys).1, (cut p ys).2) := by
  simp only [cut, List.takeWhile_append_of_pos h, List.dropWhile_append_of_pos h]

theorem cut_of_forall {p : α → Bool} {xs : List α} (h : ∀ x ∈ xs, p x = true) :
    cut p xs = (xs, []) := by
  simpa [cut] using cut_append h []

theorem cut_append_cons {p : α → Bool} {xs ys : List α} {y : α} (h : ∀ x ∈ xs, p x = true)
    (hy : p y = false) : cut p (xs ++ y :: ys) = (xs, y :: ys) := by
  rw [cut_append h]
  simp [cut, hy]

end ZonePool.Text
