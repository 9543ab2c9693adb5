-- SUMMARY: What trimming leaves of a text.
import ZonePool.Text.Blank
import ZonePool.Text.Cut

/-!
# Trimming

Trimming is said by what is cut off and what stays: the characters cut off are
blanks, and what stays neither begins nor ends with one. There is one such text
for any characters, and it is empty when all of them are blank.
-/

namespace ZonePool.Text

/-! ## Characters of a class at two ends -/

section

variable {p : Char → Bool} {cs front back : List Char}

theorem dropWhile_of_head? (h : ∀ c ∈ cs.head?, p c = false) : cs.dropWhile p = cs := by
  cases cs with
  | nil => rfl
  | cons c cs => simp [h c rfl]

theorem strip_append (hfront : ∀ c ∈ front, p c = true) (hback : ∀ c ∈ back, p c = true)
    (hhead : ∀ c ∈ cs.head?, p c = false) (hlast : ∀ c ∈ cs.getLast?, p c = false) :
    strip p (front ++ cs ++ back) = cs := by
  have hback' : ∀ c ∈ back.reverse, p c = true := by simpa using hback
  have hlast' : ∀ c ∈ cs.reverse.head?, p c = false := by rwa [List.head?_reverse]
  rw [strip, List.append_assoc, List.dropWhile_append_of_pos hfront]
  cases cs with
  | nil =>
    have hempty : back.dropWhile p = [] := congrArg Prod.snd (cut_of_forall hback)
    rw [List.nil_append, hempty]
    rfl
  | cons c cs =>
    have hwhole : (c :: cs ++ back).dropWhile p = c :: cs ++ back := dropWhile_of_head? hhead
    rw [hwhole, List.reverse_append,
      List.dropWhile_append_of_pos hback', dropWhile_of_head? hlast', List.reverse_reverse]

theorem exists_dropWhile (p : Char → Bool) (cs : List Char) :
    ∃ back, cs.dropWhile p = strip p cs ++ back ∧ ∀ c ∈ back, p c = true := by
  have hback := fst_append_snd_cut p (cs.dropWhile p).reverse
  refine ⟨(cut p (cs.dropWhile p).reverse).1.reverse, ?_, fun c hc => ?_⟩
  · have hreverse := congrArg List.reverse hback
    rw [List.reverse_append, List.reverse_reverse] at hreverse
    exact hreverse.symm
  · exact of_mem_fst_cut (List.mem_reverse.1 hc)

theorem exists_strip (p : Char → Bool) (cs : List Char) :
    ∃ front back, cs = front ++ strip p cs ++ back ∧
      (∀ c ∈ front, p c = true) ∧ ∀ c ∈ back, p c = true := by
  obtain ⟨back, hdrop, hback⟩ := exists_dropWhile p cs
  have hcut : (cut p cs).1 ++ cs.dropWhile p = cs := fst_append_snd_cut p cs
  refine ⟨(cut p cs).1, back, ?_, fun c hc => of_mem_fst_cut hc, hback⟩
  rw [List.append_assoc, ← hdrop, hcut]

theorem of_getLast?_strip {c : Char} (h : c ∈ (strip p cs).getLast?) : p c = false := by
  rw [strip, List.getLast?_reverse] at h
  exact head?_snd_cut h

theorem of_head?_strip {c : Char} (h : c ∈ (strip p cs).head?) : p c = false := by
  obtain ⟨back, hdrop, -⟩ := exists_dropWhile p cs
  have hhead : (cs.dropWhile p).head? = some c := by
    rw [hdrop, List.head?_append, h, Option.some_or]
  exact head?_snd_cut hhead

theorem strip_eq_nil_iff : strip p cs = [] ↔ ∀ c ∈ cs, p c = true := by
  obtain ⟨front, back, hcs, hfront, hback⟩ := exists_strip p cs
  constructor
  · intro h c hc
    rw [hcs, h, List.append_nil] at hc
    exact (List.mem_append.1 hc).elim (hfront c) (hback c)
  · intro h
    have hstrip : strip p (cs ++ [] ++ []) = [] := strip_append h nofun nofun nofun
    rwa [List.append_nil, List.append_nil] at hstrip

end

/-! ## Trimmed texts -/

/-- The text is what some characters are without the white space at their two ends. -/
structure Trims (cs : List Char) (text : String) : Prop where
  around : ∃ front back, cs = front ++ text.toList ++ back ∧
    (∀ c ∈ front, isBlank c = true) ∧ ∀ c ∈ back, isBlank c = true
  head : ∀ c ∈ text.toList.head?, isBlank c = false
  last : ∀ c ∈ text.toList.getLast?, isBlank c = false

theorem trims_iff {cs : List Char} {text : String} :
    Trims cs text ↔ text = trim (String.ofList cs) := by
  rw [trim, String.toList_ofList]
  constructor
  · rintro ⟨⟨front, back, rfl, hfront, hback⟩, hhead, hlast⟩
    rw [strip_append hfront hback hhead hlast, String.ofList_toList]
  · rintro rfl
    refine ⟨?around, ?head, ?last⟩
    all_goals rw [String.toList_ofList]
    case around => exact exists_strip isBlank cs
    case head => exact fun c hc => of_head?_strip hc
    case last => exact fun c hc => of_getLast?_strip hc

/-- Trimming takes away nothing but blanks. -/
theorem Trims.exists_nonblank {cs : List Char} {text : String} (h : Trims cs text)
    (hcs : ∃ c ∈ cs, isBlank c = false) : ∃ c ∈ text.toList, isBlank c = false := by
  obtain ⟨front, back, rfl, hfront, hback⟩ := h.around
  obtain ⟨c, hc, hnonblank⟩ := hcs
  refine ⟨c, ?_, hnonblank⟩
  rw [List.mem_append, List.mem_append] at hc
  rcases hc with (hc | hc) | hc
  · simp [hfront c hc] at hnonblank
  · exact hc
  · simp [hback c hc] at hnonblank

theorem isEmpty_trim (s : String) : (trim s).isEmpty = isBlankText s := by
  rw [trim, isBlankText, Bool.eq_iff_iff, String.isEmpty_iff, ← String.toList_eq_nil_iff,
    String.toList_ofList, strip_eq_nil_iff, List.all_eq_true]

end ZonePool.Text
