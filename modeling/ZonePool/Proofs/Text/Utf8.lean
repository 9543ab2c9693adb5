-- SUMMARY: Texts that are written as UTF-8 read back as they were.
import ZonePool.Text.Utf8

/-!
# UTF-8

The octets of a character take the machine from between two characters to
between two characters, whatever octets follow. So the octets of a text hold no
fault, and both readings give the text back. Octets without a fault, in turn,
begin with those of a character, so the strict reading accepts nothing else.
-/

namespace ZonePool.Text

/-- The octets of a text in UTF-8. -/
def octets (s : String) : List UInt8 :=
  s.toUTF8.data.toList

theorem octets_eq (s : String) : octets s = s.toList.flatMap String.utf8EncodeChar := by
  have hbytes : s.toUTF8 = s.toList.utf8Encode := by
    rw [String.toUTF8_eq_toByteArray, ← String.toByteArray_ofList, String.ofList_toList]
  rw [octets, hbytes, List.utf8Encode, List.toList_data_toByteArray]

/-! ## One octet -/

section

variable {due low high bits b : Nat} {rest : List UInt8}

theorem utf8Units_ascii (h : b < 0x80) :
    utf8Units .start (UInt8.ofNat b :: rest) = some (Char.ofNat b) :: utf8Units .start rest := by
  have hb : (UInt8.ofNat b).toNat = b := UInt8.toNat_ofNat_of_lt' (Nat.lt_trans h (by decide))
  simp [utf8Units, Utf8State.first, hb, h]

theorem utf8Units_first {next : Utf8State} (h : b < 256)
    (hfirst : Utf8State.first b = some (.inr next)) :
    utf8Units .start (UInt8.ofNat b :: rest) = utf8Units next rest := by
  have hb : (UInt8.ofNat b).toNat = b := UInt8.toNat_ofNat_of_lt' h
  simp only [utf8Units, hb, hfirst]

/-- An octet inside a character that is not its last. -/
theorem utf8Units_inside (h : low ≤ b ∧ b ≤ high) (hhigh : high < 256) :
    utf8Units (.inside (due + 2) low high bits) (UInt8.ofNat b :: rest) =
      utf8Units (.inside (due + 1) 0x80 0xBF (bits * 64 + (b - 0x80))) rest := by
  have hb : (UInt8.ofNat b).toNat = b := UInt8.toNat_ofNat_of_lt' (Nat.lt_of_le_of_lt h.2 hhigh)
  simp only [utf8Units, hb, h, and_self, if_true]

theorem utf8Units_last (h : low ≤ b ∧ b ≤ high) (hhigh : high < 256) :
    utf8Units (.inside 1 low high bits) (UInt8.ofNat b :: rest) =
      some (Char.ofNat (bits * 64 + (b - 0x80))) :: utf8Units .start rest := by
  have hb : (UInt8.ofNat b).toNat = b := UInt8.toNat_ofNat_of_lt' (Nat.lt_of_le_of_lt h.2 hhigh)
  simp only [utf8Units, hb, h, and_self, if_true]

end

/-! ## One character -/

theorem first_of_ascii {b : Nat} (h : b < 0x80) :
    Utf8State.first b = some (.inl (Char.ofNat b)) := if_pos h

theorem first_of_fault {b : Nat} (h : 0x80 ≤ b ∧ b < 0xC2 ∨ 0xF5 ≤ b) :
    Utf8State.first b = none := by
  grind [Utf8State.first]

theorem first_of_two {b : Nat} (hlow : 0xC2 ≤ b) (hhigh : b < 0xE0) :
    Utf8State.first b = some (.inr (.inside 1 0x80 0xBF (b - 0xC0))) := by
  have h80 : ¬b < 0x80 := by omega
  have hC2 : ¬b < 0xC2 := by omega
  simp [Utf8State.first, h80, hC2, hhigh]

theorem first_of_three {b : Nat} (hlow : 0xE0 ≤ b) (hhigh : b < 0xF0) :
    Utf8State.first b = some (.inr (.inside 2 (if b = 0xE0 then 0xA0 else 0x80)
      (if b = 0xED then 0x9F else 0xBF) (b - 0xE0))) := by
  have h80 : ¬b < 0x80 := by omega
  have hC2 : ¬b < 0xC2 := by omega
  have hE0 : ¬b < 0xE0 := by omega
  simp [Utf8State.first, h80, hC2, hE0, hhigh]

theorem first_of_four {b : Nat} (hlow : 0xF0 ≤ b) (hhigh : b < 0xF5) :
    Utf8State.first b = some (.inr (.inside 3 (if b = 0xF0 then 0x90 else 0x80)
      (if b = 0xF4 then 0x8F else 0xBF) (b - 0xF0))) := by
  have h80 : ¬b < 0x80 := by omega
  have hC2 : ¬b < 0xC2 := by omega
  have hE0 : ¬b < 0xE0 := by omega
  have hF0 : ¬b < 0xF0 := by omega
  simp [Utf8State.first, h80, hC2, hE0, hF0, hhigh]

/-- The octets of a character are read as the character. -/
theorem utf8Units_utf8EncodeChar (c : Char) (rest : List UInt8) :
    utf8Units .start (String.utf8EncodeChar c ++ rest) = some c :: utf8Units .start rest := by
  have hvalid : c.toNat < 0xD800 ∨ 0xDFFF < c.toNat ∧ c.toNat < 0x110000 := c.valid
  have hchar : ∀ n, n = c.toNat → Char.ofNat n = c := fun n hn => hn ▸ Char.ofNat_toNat c
  rw [String.utf8EncodeChar]
  generalize hv : c.val.toNat = v
  replace hv : c.toNat = v := hv
  rw [hv] at hvalid hchar
  split
  · rw [List.singleton_append, utf8Units_ascii (by omega), hchar v rfl]
  split
  · rw [List.cons_append, utf8Units_first (by omega) (first_of_two (by omega) (by omega)),
      List.singleton_append, utf8Units_last (by omega) (by omega), hchar _ (by omega)]
  split
  · have hsecond : (if v / 4096 % 16 + 224 = 0xE0 then 0xA0 else 0x80) ≤ v / 64 % 64 + 128 ∧
        v / 64 % 64 + 128 ≤ if v / 4096 % 16 + 224 = 0xED then 0x9F else 0xBF := by
      split <;> split <;> omega
    rw [List.cons_append, utf8Units_first (by omega) (first_of_three (by omega) (by omega)),
      List.cons_append, utf8Units_inside hsecond (by split <;> omega),
      List.singleton_append, utf8Units_last (by omega) (by omega), hchar _ (by omega)]
  · have hsecond : (if v / 262144 % 8 + 240 = 0xF0 then 0x90 else 0x80) ≤ v / 4096 % 64 + 128 ∧
        v / 4096 % 64 + 128 ≤ if v / 262144 % 8 + 240 = 0xF4 then 0x8F else 0xBF := by
      split <;> split <;> omega
    rw [List.cons_append, utf8Units_first (by omega) (first_of_four (by omega) (by omega)),
      List.cons_append, utf8Units_inside hsecond (by split <;> omega),
      List.cons_append, utf8Units_inside (by omega) (by omega),
      List.singleton_append, utf8Units_last (by omega) (by omega), hchar _ (by omega)]

/-! ## Whole texts -/

theorem utf8Units_flatMap (cs : List Char) :
    utf8Units .start (cs.flatMap String.utf8EncodeChar) = cs.map some := by
  induction cs with
  | nil => rfl
  | cons c cs ih => rw [List.flatMap_cons, utf8Units_utf8EncodeChar, ih, List.map_cons]

theorem decodeUtf8?_flatMap (cs : List Char) :
    decodeUtf8? (cs.flatMap String.utf8EncodeChar) = some cs := by
  rw [decodeUtf8?, utf8Units_flatMap, List.mapM_map]
  exact (List.mapM_pure (f := id)).trans (congrArg some (List.map_id _))

theorem decodeUtf8?_octets (s : String) : decodeUtf8? (octets s) = some s.toList := by
  rw [octets_eq, decodeUtf8?_flatMap]

theorem decodeUtf8Lossy_octets (s : String) : decodeUtf8Lossy (octets s) = s.toList := by
  rw [decodeUtf8Lossy, octets_eq, utf8Units_flatMap, List.map_map]
  exact List.map_id s.toList

/-! ## What reads as a text -/

section

variable {low high bits : Nat} {bytes : List UInt8} {cs : List Char}

theorem exists_of_utf8Units_inside {due : Nat}
    (h : utf8Units (.inside (due + 2) low high bits) bytes = cs.map some) :
    ∃ b rest, bytes = b :: rest ∧ (low ≤ b.toNat ∧ b.toNat ≤ high) ∧
      utf8Units (.inside (due + 1) 0x80 0xBF (bits * 64 + (b.toNat - 0x80))) rest =
        cs.map some := by
  cases bytes with
  | nil => cases cs <;> simp [utf8Units] at h
  | cons b rest =>
    simp only [utf8Units] at h
    split at h
    · next hrange => exact ⟨b, rest, rfl, hrange, h⟩
    · cases cs <;> simp at h

theorem exists_of_utf8Units_last {c : Char}
    (h : utf8Units (.inside 1 low high bits) bytes = (c :: cs).map some) :
    ∃ b rest, bytes = b :: rest ∧ (low ≤ b.toNat ∧ b.toNat ≤ high) ∧
      c = Char.ofNat (bits * 64 + (b.toNat - 0x80)) ∧ utf8Units .start rest = cs.map some := by
  cases bytes with
  | nil => simp [utf8Units] at h
  | cons b rest =>
    simp only [utf8Units] at h
    split at h
    · next hrange =>
      rw [List.map_cons, List.cons.injEq, Option.some.injEq] at h
      exact ⟨b, rest, rfl, hrange, h.1.symm, h.2⟩
    · simp at h

end

/-- The octets of a code point. -/
theorem utf8EncodeChar_ofNat {n : Nat} (h : n.isValidChar) :
    String.utf8EncodeChar (Char.ofNat n) =
      if n ≤ 0x7F then [.ofNat n]
      else if n ≤ 0x7FF then [.ofNat (n / 64 % 32 + 0xC0), .ofNat (n % 64 + 0x80)]
      else if n ≤ 0xFFFF then
        [.ofNat (n / 4096 % 16 + 0xE0), .ofNat (n / 64 % 64 + 0x80), .ofNat (n % 64 + 0x80)]
      else [.ofNat (n / 262144 % 8 + 0xF0), .ofNat (n / 4096 % 64 + 0x80),
        .ofNat (n / 64 % 64 + 0x80), .ofNat (n % 64 + 0x80)] := by
  have hval : (Char.ofNat n).val.toNat = n := by
    rw [Char.ofNat, dif_pos h]
    rfl
  rw [String.utf8EncodeChar, hval]

/-- What is read without a fault begins with the octets of its first character. -/
theorem exists_of_utf8Units {bytes : List UInt8} {c : Char} {cs : List Char}
    (h : utf8Units .start bytes = (c :: cs).map some) :
    ∃ rest, bytes = String.utf8EncodeChar c ++ rest ∧ utf8Units .start rest = cs.map some := by
  have hoctet {n : Nat} {b : UInt8} (hn : n = b.toNat) : UInt8.ofNat n = b := by
    rw [hn, UInt8.ofNat_toNat]
  cases bytes with
  | nil => simp [utf8Units] at h
  | cons a bytes =>
    obtain hone | hfault | htwo | hthree | hfour :
        a.toNat < 0x80 ∨ (0x80 ≤ a.toNat ∧ a.toNat < 0xC2 ∨ 0xF5 ≤ a.toNat) ∨
        (0xC2 ≤ a.toNat ∧ a.toNat < 0xE0) ∨ (0xE0 ≤ a.toNat ∧ a.toNat < 0xF0) ∨
        (0xF0 ≤ a.toNat ∧ a.toNat < 0xF5) := by omega
    · simp only [utf8Units, first_of_ascii hone, List.map_cons, List.cons.injEq,
        Option.some.injEq] at h
      obtain ⟨rfl, hrest⟩ := h
      refine ⟨bytes, ?_, hrest⟩
      rw [utf8EncodeChar_ofNat (.inl (by omega)), if_pos (by omega), hoctet rfl]
      rfl
    · simp [utf8Units, first_of_fault hfault] at h
    · simp only [utf8Units, first_of_two htwo.1 htwo.2] at h
      obtain ⟨b, rest, rfl, hb, hc, hrest⟩ := exists_of_utf8Units_last h
      refine ⟨rest, ?_, hrest⟩
      generalize hn : (a.toNat - 0xC0) * 64 + (b.toNat - 0x80) = n at hc
      rw [hc, utf8EncodeChar_ofNat (.inl (by omega)), if_neg (by omega), if_pos (by omega),
        hoctet (b := a) (by omega), hoctet (b := b) (by omega)]
      rfl
    · simp only [utf8Units, first_of_three hthree.1 hthree.2] at h
      obtain ⟨b, rest, rfl, hb, h⟩ := exists_of_utf8Units_inside h
      obtain ⟨d, rest, rfl, hd, hc, hrest⟩ := exists_of_utf8Units_last h
      refine ⟨rest, ?_, hrest⟩
      generalize hn : ((a.toNat - 0xE0) * 64 + (b.toNat - 0x80)) * 64 + (d.toNat - 0x80) = n at hc
      -- The second octet is what keeps out the surrogates and a number that fits into fewer octets.
      have hbounds : 0x80 ≤ b.toNat ∧ b.toNat ≤ 0xBF ∧ (a.toNat = 0xE0 → 0xA0 ≤ b.toNat) ∧
          (a.toNat = 0xED → b.toNat ≤ 0x9F) := by
        split at hb <;> split at hb <;> omega
      have hvalid : n < 0xD800 ∨ 0xDFFF < n ∧ n < 0x110000 := by omega
      rw [hc, utf8EncodeChar_ofNat hvalid, if_neg (by omega), if_neg (by omega), if_pos (by omega),
        hoctet (b := a) (by omega), hoctet (b := b) (by omega), hoctet (b := d) (by omega)]
      rfl
    · simp only [utf8Units, first_of_four hfour.1 hfour.2] at h
      obtain ⟨b, rest, rfl, hb, h⟩ := exists_of_utf8Units_inside h
      obtain ⟨d, rest, rfl, hd, h⟩ := exists_of_utf8Units_inside h
      obtain ⟨e, rest, rfl, he, hc, hrest⟩ := exists_of_utf8Units_last h
      refine ⟨rest, ?_, hrest⟩
      generalize hn : (((a.toNat - 0xF0) * 64 + (b.toNat - 0x80)) * 64 + (d.toNat - 0x80)) * 64 +
        (e.toNat - 0x80) = n at hc
      have hbounds : 0x80 ≤ b.toNat ∧ b.toNat ≤ 0xBF ∧ (a.toNat = 0xF0 → 0x90 ≤ b.toNat) ∧
          (a.toNat = 0xF4 → b.toNat ≤ 0x8F) := by
        split at hb <;> split at hb <;> omega
      rw [hc, utf8EncodeChar_ofNat (.inr (by omega)), if_neg (by omega), if_neg (by omega),
        if_neg (by omega), hoctet (b := a) (by omega), hoctet (b := b) (by omega),
        hoctet (b := d) (by omega), hoctet (b := e) (by omega)]
      rfl

theorem utf8Units_inside_ne_nil (due low high bits : Nat) (bytes : List UInt8) :
    utf8Units (.inside due low high bits) bytes ≠ [] := by
  induction bytes generalizing due low high bits with
  | nil => simp [utf8Units]
  | cons b bytes ih =>
    simp only [utf8Units]
    split
    · split
      · simp
      · simp
      · exact ih _ _ _ _
    · simp

theorem utf8Units_cons_ne_nil (b : UInt8) (bytes : List UInt8) :
    utf8Units .start (b :: bytes) ≠ [] := by
  simp only [utf8Units]
  split
  · simp
  · next next hnext =>
    cases next with
    | start => grind [Utf8State.first]
    | inside => exact utf8Units_inside_ne_nil _ _ _ _ _
  · simp

theorem eq_flatMap_of_utf8Units {bytes : List UInt8} {cs : List Char}
    (h : utf8Units .start bytes = cs.map some) : bytes = cs.flatMap String.utf8EncodeChar := by
  induction cs generalizing bytes with
  | nil =>
    cases bytes with
    | nil => rfl
    | cons b bytes => exact absurd h (utf8Units_cons_ne_nil b bytes)
  | cons c cs ih =>
    obtain ⟨rest, rfl, hrest⟩ := exists_of_utf8Units h
    rw [List.flatMap_cons, ih hrest]

theorem eq_map_of_mapM_id {α : Type} {units : List (Option α)} {xs : List α}
    (h : units.mapM id = some xs) : units = xs.map some := by
  induction units generalizing xs with
  | nil => simp_all
  | cons u units ih =>
    simp only [List.mapM_cons, id, Option.bind_eq_bind, Option.bind_eq_some_iff, Option.pure_def,
      Option.some.injEq] at h
    obtain ⟨x, rfl, rest, hrest, rfl⟩ := h
    rw [ih hrest, List.map_cons]

/-- Nothing but the octets of a text reads as the text. -/
theorem decodeUtf8?_eq_some_iff {bytes : List UInt8} {cs : List Char} :
    decodeUtf8? bytes = some cs ↔ bytes = octets (String.ofList cs) := by
  rw [octets_eq, String.toList_ofList]
  refine ⟨fun h => eq_flatMap_of_utf8Units (eq_map_of_mapM_id h), ?_⟩
  rintro rfl
  exact decodeUtf8?_flatMap cs

end ZonePool.Text
