-- SUMMARY: Addresses of version 6 read back as they were written.
import Mathlib.Data.List.TakeWhile
import ZonePool.Proofs.Net.Ip

/-!
# Version 6 addresses read back

Groups are written in hexadecimal with a colon between them, so no two colons
meet but where a run of zeros was left out. A reader that cuts a text there has
the groups on both sides, and fills the gap with as many zeros as are missing.
-/

namespace ZonePool.Net.Ipv6

open Text (hexadecimal)

/-! ## Groups -/

theorem ne_colon_of_mem_hexadecimal {n : Nat} {c : Char} (h : c ∈ hexadecimal n) : c ≠ ':' := by
  rintro rfl
  have hdigit := (Text.digit?_of_readDigits? (Text.readDigits?_hexadecimal n)).2 _ h
  exact absurd hdigit (by decide)

theorem group?_hexadecimal (g : UInt16) : group? (hexadecimal g.toNat) = some g := by
  have hlength : (hexadecimal g.toNat).length ≤ 4 :=
    (Nat.length_toDigits_le_iff (by decide) (by decide)).2 g.toNat_lt
  rw [group?, if_neg (Nat.not_lt.2 hlength), Text.readDigits?_hexadecimal]
  exact congrArg some UInt16.ofNat_toNat

theorem writeGroups_cons_cons (g h : UInt16) (gs : List UInt16) :
    writeGroups (g :: h :: gs) = hexadecimal g.toNat ++ ':' :: writeGroups (h :: gs) := by
  simp [writeGroups]

theorem writeGroups_eq : ∀ gs : List UInt16,
    writeGroups gs = [':'].intercalate (gs.map fun g => hexadecimal g.toNat)
  | [] => rfl
  | [g] => by simp [writeGroups]
  | g :: h :: gs => by simp [writeGroups_cons_cons, writeGroups_eq (h :: gs)]

theorem groupList?_hexadecimal (dotted : Bool) (gs : List UInt16) :
    groupList? dotted (gs.map fun g => hexadecimal g.toNat) = some gs := by
  induction gs with
  | nil => rfl
  | cons g gs ih =>
    cases gs with
    | nil => simp [groupList?, group?_hexadecimal]
    | cons next gs =>
      rw [List.map_cons] at ih
      simp [groupList?, group?_hexadecimal, ih]

theorem exists_writeGroups_cons (g : UInt16) (gs : List UInt16) :
    ∃ c cs, writeGroups (g :: gs) = c :: cs ∧ c ≠ ':' := by
  obtain ⟨c, cs, hcons⟩ := List.exists_cons_of_ne_nil (Nat.toDigits_ne_nil (n := g.toNat) (b := 16))
  have hc : c ≠ ':' := ne_colon_of_mem_hexadecimal (n := g.toNat) (by simp [hexadecimal, hcons])
  cases gs with
  | nil => exact ⟨c, cs, hcons, hc⟩
  | cons next gs => exact ⟨c, _, by rw [writeGroups_cons_cons, hexadecimal, hcons, List.cons_append], hc⟩

theorem side?_writeGroups (dotted : Bool) (gs : List UInt16) :
    side? dotted (writeGroups gs) = some gs := by
  cases gs with
  | nil => rfl
  | cons g gs =>
    obtain ⟨c, cs, hcons, -⟩ := exists_writeGroups_cons g gs
    have hne : (writeGroups (g :: gs)).isEmpty = false := by rw [hcons]; rfl
    have hcolon : ∀ part ∈ (g :: gs).map fun g => hexadecimal g.toNat, ':' ∉ part := by
      intro part hpart hmem
      obtain ⟨h, -, rfl⟩ := List.mem_map.1 hpart
      exact ne_colon_of_mem_hexadecimal hmem rfl
    rw [side?, hne, writeGroups_eq, List.splitOn_intercalate ':' hcolon (by simp)]
    exact groupList?_hexadecimal dotted (g :: gs)

/-! ## The gap -/

theorem cutGap_append {front : List Char} (h : ∀ c ∈ front, c ≠ ':') (rest : List Char) :
    cutGap (front ++ rest) = (cutGap rest).map fun r => (front ++ r.1, r.2) := by
  induction front with
  | nil => simp
  | cons c front ih =>
    rw [List.forall_mem_cons] at h
    simp [cutGap, h.1, ih h.2, Function.comp_def]

theorem cutGap_colon {c : Char} (h : c ≠ ':') (rest : List Char) :
    cutGap (':' :: c :: rest) = (cutGap (c :: rest)).map fun r => (':' :: r.1, r.2) := by
  simp [cutGap, h]

theorem cutGap_writeGroups_append (gs : List UInt16) (rest : List Char) :
    cutGap (writeGroups gs ++ rest) = (cutGap rest).map fun r => (writeGroups gs ++ r.1, r.2) := by
  induction gs with
  | nil => simp [writeGroups]
  | cons g gs ih =>
    have hgroup := cutGap_append (fun _ => ne_colon_of_mem_hexadecimal (n := g.toNat))
    cases gs with
    | nil => exact hgroup rest
    | cons next gs =>
      obtain ⟨c, cs, hcons, hc⟩ := exists_writeGroups_cons next gs
      have hcolon := cutGap_colon hc (cs ++ rest)
      rw [← List.cons_append, ← hcons, ih] at hcolon
      rw [writeGroups_cons_cons, List.append_assoc, List.cons_append, hgroup, hcolon]
      simp [Function.comp_def]

/-- The longest run of zeros stands where it is said to stand. -/
theorem exists_longestZeros (start : Nat) (gs : List UInt16) :
    ∃ front back, (longestZeros start gs).1 = start + front.length ∧
      gs = front ++ List.replicate (longestZeros start gs).2 0 ++ back := by
  induction gs generalizing start with
  | nil => exact ⟨[], [], rfl, rfl⟩
  | cons g gs ih =>
    rw [longestZeros]
    split
    · have hzeros : (g :: gs).takeWhile (· == 0) = List.replicate (leadingZeros (g :: gs)) 0 :=
        List.eq_replicate_iff.2 ⟨rfl, fun z hz => by simpa using List.mem_takeWhile_imp hz⟩
      refine ⟨[], (g :: gs).dropWhile (· == 0), rfl, ?_⟩
      rw [List.nil_append, ← hzeros, List.takeWhile_append_dropWhile]
    · obtain ⟨front, back, hplace, hgroups⟩ := ih (start + 1)
      refine ⟨g :: front, back, ?_, ?_⟩
      · rw [hplace, List.length_cons]
        omega
      · rw [List.cons_append, List.cons_append, ← hgroups]

/-! ## Whole addresses -/

/-- An address is read back from its written form. -/
theorem read?_write (ip : Ipv6) : read? ip.write = some ip := by
  obtain ⟨groups, size⟩ := ip
  obtain ⟨front, back, hplace, hgroups⟩ := exists_longestZeros 0 groups
  rw [Nat.zero_add] at hplace
  generalize hrun : longestZeros 0 groups = run at hplace hgroups
  obtain ⟨start, zeros⟩ := run
  simp only at hplace hgroups
  subst hplace
  rw [write]
  simp only [hrun]
  split
  · have hgap : cutGap (writeGroups groups) = none := by
      simpa [cutGap] using cutGap_writeGroups_append groups []
    simp [read?, hgap, side?_writeGroups, size]
  · next hzeros =>
    have htake : groups.take front.length = front := by
      rw [hgroups, List.append_assoc, List.take_left]
    have hdrop : groups.drop (front.length + zeros) = back := by
      rw [hgroups, List.drop_left' (by simp)]
    have hgap : cutGap (writeGroups front ++ ':' :: ':' :: writeGroups back) =
        some (writeGroups front, writeGroups back) := by
      simp [cutGap_writeGroups_append, cutGap]
    have hlength : front.length + zeros + back.length = 8 := by
      simpa [Nat.add_assoc] using (congrArg List.length hgroups).symm.trans size
    have hroom : front.length + back.length < 8 := by omega
    have hmissing : 8 - (front.length + back.length) = zeros := by omega
    rw [htake, hdrop, read?, hgap]
    simp [side?_writeGroups, ofSides?, hroom, hmissing, hgroups]

end ZonePool.Net.Ipv6
