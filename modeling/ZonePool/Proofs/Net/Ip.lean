-- SUMMARY: The spellings that the readers of IP addresses accept.
import Mathlib.Data.List.Basic
import ZonePool.Net.Ip
import ZonePool.Proofs.Text.Decimal

/-!
# Spellings of IP addresses

What is read as an address of version 4 is four octets in decimal, without
leading zeros, between three dots. What is read as an address of version 6 is
made of hexadecimal digits, colons and dots.
-/

namespace ZonePool.Net

open Text (digit? readDigits?)

/-- The characters that an IP address is spelled with. -/
def isIpChar (c : Char) : Bool :=
  (digit? 16 c).isSome || c == ':' || c == '.'

theorem isIpChar_of_digit? {c : Char} (h : (digit? 16 c).isSome = true) : isIpChar c = true := by
  simp [isIpChar, h]

theorem isIpChar_of_isDigit {c : Char} (h : c.isDigit = true) : isIpChar c = true :=
  Text.of_isDigit (P := (isIpChar · = true)) (by decide) h

theorem visible_of_isIpChar {c : Char} (h : isIpChar c = true) : 0x20 < c.toNat := by
  by_contra hlow
  have hblank : ∀ n ≤ 0x20, isIpChar (Char.ofNat n) = false := by decide
  have hc := hblank c.toNat (Nat.not_lt.1 hlow)
  rw [Char.ofNat_toNat, h] at hc
  cases hc

theorem not_mem_of_isIpChar {d : Char} {cs : List Char} (h : ∀ c ∈ cs, isIpChar c = true)
    (hd : isIpChar d = false) : d ∉ cs := by
  intro hmem
  rw [h d hmem] at hd
  cases hd

theorem mem_of_mem_intercalate {c sep : Char} {parts : List (List Char)}
    (h : c ∈ [sep].intercalate parts) : c = sep ∨ ∃ part ∈ parts, c ∈ part := by
  induction parts with
  | nil => simp at h
  | cons part parts ih =>
    cases parts with
    | nil => exact .inr ⟨part, List.mem_cons_self, by simpa using h⟩
    | cons next parts =>
      rw [List.intercalate_cons_cons, List.append_assoc, List.mem_append] at h
      rcases h with hpart | h
      · exact .inr ⟨part, List.mem_cons_self, hpart⟩
      rcases List.mem_cons.1 h with hsep | hrest
      · exact .inl hsep
      · refine (ih hrest).imp_right ?_
        rintro ⟨later, hlater, hc⟩
        exact ⟨later, List.mem_cons_of_mem part hlater, hc⟩

theorem mem_splitOn (sep : Char) {c : Char} {cs : List Char} (h : c ∈ cs) :
    c = sep ∨ ∃ part ∈ cs.splitOn sep, c ∈ part :=
  mem_of_mem_intercalate (by rwa [List.intercalate_splitOn])

/-! ## Version 4 -/

namespace Ipv4

/-- The spelling of an octet. -/
structure IsOctet (cs : List Char) (n : UInt8) : Prop where
  reads : readDigits? 10 cs = some n.toNat
  leading : cs.head? = some '0' → cs = ['0']

theorem isOctet_of_octet? {cs : List Char} {n : UInt8} (h : octet? cs = some n) : IsOctet cs n := by
  unfold octet? at h
  split at h
  · cases h
  next hshape =>
  rw [not_or, not_and_not_right] at hshape
  split at h
  · next m hm =>
    split at h
    · next hlt =>
      cases h
      refine ⟨by rw [hm, UInt8.toNat_ofNat_of_lt' hlt], fun hhead => ?_⟩
      obtain ⟨c, rfl⟩ := List.length_eq_one_iff.1 (hshape.2 hhead)
      simpa using hhead
    · cases h
  · cases h

theorem splitOn_of_read? {cs : List Char} {ip : Ipv4} (h : read? cs = some ip) :
    ∃ a b c d, cs.splitOn '.' = [a, b, c, d] ∧
      IsOctet a ip.a ∧ IsOctet b ip.b ∧ IsOctet c ip.c ∧ IsOctet d ip.d := by
  unfold read? at h
  split at h
  · next a b c d hparts =>
    simp only [Option.bind_eq_bind, Option.bind_eq_some_iff, Option.pure_def, Option.some.injEq] at h
    obtain ⟨a', ha, b', hb, c', hc, d', hd, rfl⟩ := h
    exact ⟨a, b, c, d, hparts, isOctet_of_octet? ha, isOctet_of_octet? hb, isOctet_of_octet? hc,
      isOctet_of_octet? hd⟩
  · cases h

theorem isDigit_or_dot {cs : List Char} {ip : Ipv4} (h : read? cs = some ip) :
    ∀ c ∈ cs, c.isDigit = true ∨ c = '.' := by
  intro c hc
  obtain ⟨w, x, y, z, hparts, hw, hx, hy, hz⟩ := splitOn_of_read? h
  rcases mem_splitOn '.' hc with rfl | ⟨part, hpart, hc⟩
  · exact .inr rfl
  · have hdigits : ∀ {part : List Char} {n : UInt8}, IsOctet part n → c ∈ part → c.isDigit = true :=
      fun hoctet hc => (Text.isDigit_of_readDigits? hoctet.reads).2 c hc
    rw [hparts] at hpart
    simp only [List.mem_cons, List.not_mem_nil, or_false] at hpart
    rcases hpart with rfl | rfl | rfl | rfl
    · exact .inl (hdigits hw hc)
    · exact .inl (hdigits hx hc)
    · exact .inl (hdigits hy hc)
    · exact .inl (hdigits hz hc)

theorem ne_nil_of_read? {cs : List Char} {ip : Ipv4} (h : read? cs = some ip) : cs ≠ [] := by
  rintro rfl
  cases h

theorem isIpChar_of_read? {cs : List Char} {ip : Ipv4} (h : read? cs = some ip) :
    ∀ c ∈ cs, isIpChar c = true := by
  intro c hc
  rcases isDigit_or_dot h c hc with hdigit | rfl
  · exact isIpChar_of_isDigit hdigit
  · rfl

end Ipv4

/-! ## Version 6 -/

namespace Ipv6

theorem isIpChar_of_group? {cs : List Char} {g : UInt16} (h : group? cs = some g) :
    ∀ c ∈ cs, isIpChar c = true := by
  unfold group? at h
  split at h
  · cases h
  · obtain ⟨n, hn, -⟩ := Option.map_eq_some_iff.1 h
    exact fun c hc => isIpChar_of_digit? ((Text.digit?_of_readDigits? hn).2 c hc)

theorem isIpChar_of_groupList? {dotted : Bool} {parts : List (List Char)} {gs : List UInt16}
    (h : groupList? dotted parts = some gs) : ∀ part ∈ parts, ∀ c ∈ part, isIpChar c = true := by
  induction parts generalizing gs with
  | nil => nofun
  | cons part parts ih =>
    cases parts with
    | nil =>
      rw [List.forall_mem_singleton]
      rw [groupList?] at h
      split at h
      · next hgroup => exact isIpChar_of_group? hgroup
      · split at h
        · obtain ⟨ip, hip, -⟩ := Option.map_eq_some_iff.1 h
          exact Ipv4.isIpChar_of_read? hip
        · cases h
    | cons next parts =>
      simp only [groupList?, Option.bind_eq_bind, Option.bind_eq_some_iff] at h
      obtain ⟨g, hg, rest, hrest, -⟩ := h
      exact List.forall_mem_cons.2 ⟨isIpChar_of_group? hg, ih hrest⟩

theorem isIpChar_of_side? {dotted : Bool} {cs : List Char} {gs : List UInt16}
    (h : side? dotted cs = some gs) : ∀ c ∈ cs, isIpChar c = true := by
  intro c hc
  unfold side? at h
  split at h
  · simp_all
  · rcases mem_splitOn ':' hc with rfl | ⟨part, hpart, hc⟩
    · rfl
    · exact isIpChar_of_groupList? h part hpart c hc

theorem append_of_cutGap {cs front back : List Char} (h : cutGap cs = some (front, back)) :
    cs = front ++ ':' :: ':' :: back := by
  fun_induction cutGap cs generalizing front with
  | case1 rest => cases h; rfl
  | case2 c rest hgap ih =>
    obtain ⟨⟨f, b⟩, hrest, hpair⟩ := Option.map_eq_some_iff.1 h
    cases hpair
    rw [ih hrest, List.cons_append]
  | case3 => cases h

theorem isIpChar_of_read? {cs : List Char} {ip : Ipv6} (h : read? cs = some ip) :
    ∀ c ∈ cs, isIpChar c = true := by
  unfold read? at h
  split at h
  · next front back hgap =>
    simp only [Option.bind_eq_bind, Option.bind_eq_some_iff] at h
    obtain ⟨fs, hfront, bs, hback, -⟩ := h
    rw [append_of_cutGap hgap]
    simp only [List.forall_mem_append, List.forall_mem_cons]
    exact ⟨isIpChar_of_side? hfront, rfl, rfl, isIpChar_of_side? hback⟩
  · simp only [Option.bind_eq_bind, Option.bind_eq_some_iff] at h
    obtain ⟨gs, hgs, -⟩ := h
    exact isIpChar_of_side? hgs

end Ipv6

end ZonePool.Net
