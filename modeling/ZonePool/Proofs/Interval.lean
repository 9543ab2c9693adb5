-- SUMMARY: Which texts set a check interval, and to what.
import ZonePool.Proofs.Pool.Interval
import ZonePool.Proofs.Text.Blank
import ZonePool.Proofs.Text.Decimal

/-!
# Intervals in texts

A text sets an interval when what trimming leaves of it is a number in decimal,
from one up to the seconds of a day. Two bounds are checked on the way, the one
of 64 bits and the one of a day; since a day is well within 64 bits, a number
that fails the first check could not have passed the second one.
-/

namespace ZonePool

open Text (Trims trims_iff SpellsNumber)

/-! ## Numbers in texts -/

namespace Text

/-- A number begins with a plus sign or a digit. -/
theorem SpellsNumber.exists_head {text : String} {n : Nat} (h : SpellsNumber text n) :
    ∃ c, text.toList.head? = some c ∧ (c = '+' ∨ c.isDigit = true) := by
  obtain ⟨digits, heq | heq, hnumeral⟩ := h
  · cases digits with
    | nil => exact absurd rfl hnumeral.ne_nil
    | cons c digits =>
      rw [heq]
      exact ⟨c, rfl, .inr (hnumeral.isDigit c List.mem_cons_self)⟩
  · rw [heq]
    exact ⟨'+', rfl, .inl rfl⟩

/-- A text spells one number at most. -/
theorem SpellsNumber.unique {text : String} {m n : Nat} (hm : SpellsNumber text m)
    (hn : SpellsNumber text n) : m = n := by
  have hplus : ∀ {digits k}, ¬Numeral ('+' :: digits) k := fun h =>
    absurd (h.isDigit '+' List.mem_cons_self) (by decide)
  obtain ⟨digits, hdigits, hm⟩ := hm
  obtain ⟨others, hothers, hn⟩ := hn
  have hsame : digits = others := by
    rcases hdigits with rfl | hdigits <;> rcases hothers with rfl | hothers
    · rfl
    · exact absurd (hothers ▸ hm) hplus
    · exact absurd (hdigits ▸ hn) hplus
    · exact (List.cons.inj (hdigits.symm.trans hothers)).2
  rw [← hm.value, ← hn.value, hsame]

end Text

/-! ## Reading -/

namespace CheckInterval

/-- The text is a number of seconds up to a day of them. -/
def SpellsSecs (text : String) (secs : Nat) : Prop :=
  SpellsNumber text secs ∧ 1 ≤ secs ∧ secs ≤ 86400

theorem parse_of_spellsSecs {s : String} {secs : Nat} (h : SpellsSecs (Text.trim s) secs) :
    parse (some s) = .ofSecs secs := by
  obtain ⟨hnumber, hrange⟩ := h
  have hword : secs < Text.wordLimit := Nat.lt_of_le_of_lt hrange.2 (by decide)
  rw [parse_eq, Option.bind_some, Text.readWord?_eq_some_iff.2 (Text.spellsWord_iff.2 ⟨hnumber, hword⟩),
    Option.map_some, Option.getD_some, ofWhole, if_pos hrange]

theorem parse_of_not_spellsSecs {s : String} (h : ¬∃ secs, SpellsSecs (Text.trim s) secs) :
    parse (some s) = .ofSecs 15 := by
  rw [parse_eq, Option.bind_some]
  cases hread : Text.readWord? (Text.trim s) with
  | none => rfl
  | some secs =>
    have hnumber := (Text.spellsWord_iff.1 (Text.readWord?_eq_some_iff.1 hread)).1
    rw [Option.map_some, Option.getD_some, ofWhole, if_neg fun hrange => h ⟨secs, hnumber, hrange⟩]

/-- A text that is a number from one to the seconds of a day, with blanks around it, sets that many
seconds, and every other text stands for fifteen: one with nothing but blanks, one with a minus sign
and one whose number does not fit into 64 bits among them. -/
theorem parse_of_text (s : String) :
    ∃ text, Trims s.toList text ∧
      (∀ secs, SpellsSecs text secs → parse (some s) = .ofSecs secs) ∧
      ((¬∃ secs, SpellsSecs text secs) → parse (some s) = .ofSecs 15) ∧
      (text = "" ∨ text.toList.head? = some '-' ∨ (∃ n, SpellsNumber text n ∧ Text.wordLimit ≤ n) →
        parse (some s) = .ofSecs 15) := by
  have htrims : Trims s.toList (Text.trim s) := by
    rw [trims_iff, String.ofList_toList]
  refine ⟨Text.trim s, htrims, fun _ => parse_of_spellsSecs, parse_of_not_spellsSecs, fun hother => ?_⟩
  refine parse_of_not_spellsSecs ?_
  rintro ⟨secs, hnumber, hrange⟩
  obtain ⟨c, hhead, hc⟩ := hnumber.exists_head
  rcases hother with hempty | hminus | ⟨n, hn, hlarge⟩
  · rw [hempty] at hhead
    cases hhead
  · obtain rfl := Option.some.inj (hhead.symm.trans hminus)
    revert hc
    decide
  · have hsame := hnumber.unique hn
    have hday : 86400 < Text.wordLimit := by decide
    omega

/-- A day with zeros before it and blanks around it, and a number that a word would wrap to one second. -/
theorem parse_of_text_of_edges :
    parse (some "\u3000+0086400\n") = .ofSecs 86400 ∧
      parse (some "18446744073709551617") = .ofSecs 15 := by
  constructor
  · obtain ⟨text, htrims, hnumber, -, -⟩ := parse_of_text "\u3000+0086400\n"
    obtain rfl : text = "+0086400" := (trims_iff.1 htrims).trans (by decide)
    have hdigits : "0086400".toList.all Char.isDigit = true := by decide
    refine hnumber 86400 ⟨⟨"0086400".toList, .inr (by decide), ?_⟩, by decide⟩
    exact ⟨by decide, List.all_eq_true.1 hdigits, by decide⟩
  · obtain ⟨text, htrims, -, -, hother⟩ := parse_of_text "18446744073709551617"
    obtain rfl : text = "18446744073709551617" := (trims_iff.1 htrims).trans (by decide)
    have hdigits : "18446744073709551617".toList.all Char.isDigit = true := by decide
    refine hother (.inr (.inr
      ⟨Text.wordLimit + 1, ⟨"18446744073709551617".toList, .inl rfl, ?_⟩, by decide⟩))
    exact ⟨by decide, List.all_eq_true.1 hdigits, by decide⟩

end CheckInterval

end ZonePool
