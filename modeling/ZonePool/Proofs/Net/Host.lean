-- SUMMARY: The hosts that are addresses, and that web addresses and the resolver read alike.
import ZonePool.Net.Host
import ZonePool.Proofs.Net.Ip
import ZonePool.Proofs.Text.Utf8

/-!
# Hosts that are addresses

A version 4 address has many spellings as a host, since each of its numbers may
be in one of three bases and the last of them may stand for several octets. A
web address reads every one of them as the address it stands for, and reads
whatever the resolver reads as an address. So the two ways of a check agree about
a host that is no name.
-/

namespace ZonePool.Net

open Text (digit? readDigits?)

/-! ## Numbers -/

namespace Ipv4.IsOctet

variable {cs : List Char} {n : UInt8}

theorem ne_nil (h : IsOctet cs n) : cs ≠ [] :=
  (Text.isDigit_of_readDigits? h.reads).1

theorem isDigit (h : IsOctet cs n) : ∀ c ∈ cs, c.isDigit = true :=
  (Text.isDigit_of_readDigits? h.reads).2

/-- Without a leading zero, an octet is no number in another base. -/
theorem number? (h : IsOctet cs n) : WebHost.number? cs = some (some n.toNat) := by
  have hlt : n.toNat < UInt32.size := Nat.lt_trans n.toNat_lt (by decide)
  have hbounded : WebHost.number?.bounded 10 cs = some (some n.toNat) := by
    simp [WebHost.number?.bounded, h.ne_nil, h.reads, hlt]
  by_cases hzero : cs.head? = some '0'
  · have hn := h.reads
    rw [h.leading hzero] at hn ⊢
    exact congrArg some hn
  · unfold WebHost.number?
    split
    · exact absurd rfl h.ne_nil
    · exact absurd rfl hzero
    · exact absurd rfl hzero
    · exact absurd rfl hzero
    · exact absurd rfl hzero
    · exact hbounded

end Ipv4.IsOctet

namespace WebHost

theorem decode_of_ne_percent {cs : List Char} (h : ∀ c ∈ cs, c ≠ '%') :
    Percent.decode cs = cs.flatMap String.utf8EncodeChar := by
  induction cs with
  | nil => rfl
  | cons c cs ih =>
    rw [List.forall_mem_cons] at h
    have hc : ∀ high low rest, c = '%' → cs = high :: low :: rest → False :=
      fun _ _ _ hpercent _ => h.1 hpercent
    rw [Percent.decode.eq_3 c cs hc, ih h.2, List.flatMap_cons]

theorem mapM_plain?_of_ascii {cs : List Char} (h : ∀ c ∈ cs, c.toNat < 0x80) :
    cs.mapM Compatibility.plain? = some (cs.map ([·])) := by
  induction cs with
  | nil => rfl
  | cons c cs ih =>
    rw [List.forall_mem_cons] at h
    simp [Compatibility.plain?, h.1, ih h.2]

/-- The characters of the numbers in a version 4 address. -/
def isNumeric (c : Char) : Bool :=
  (digit? 16 c).isSome || c == 'x' || c == 'X'

theorem isNumeric_of_digit? {base : Nat} (hbase : base ≤ 16) {c : Char}
    (h : (digit? base c).isSome = true) : isNumeric c = true := by
  have hsixteen : (digit? 16 c).isSome = true := by
    simp only [digit?] at h ⊢
    grind
  simp [isNumeric, hsixteen]

theorem isNumeric_of_bounded {base : Nat} (hbase : base ≤ 16) {digits : List Char} {n : Option Nat}
    (h : number?.bounded base digits = some n) : ∀ c ∈ digits, isNumeric c = true := by
  unfold number?.bounded at h
  split at h
  · next hempty =>
    rw [List.isEmpty_iff.1 hempty]
    nofun
  · obtain ⟨m, hm, -⟩ := Option.map_eq_some_iff.1 h
    exact fun c hc => isNumeric_of_digit? hbase ((Text.digit?_of_readDigits? hm).2 c hc)

theorem isNumeric_of_number? {part : List Char} {n : Option Nat} (h : number? part = some n) :
    ∀ c ∈ part, isNumeric c = true := by
  unfold number? at h
  split at h
  · cases h
  · simpa [isNumeric, digit?] using isNumeric_of_bounded (Nat.le_refl 16) h
  · simpa [isNumeric, digit?] using isNumeric_of_bounded (Nat.le_refl 16) h
  · simp [isNumeric, digit?]
  · simpa [isNumeric, digit?] using isNumeric_of_bounded (by decide : 8 ≤ 16) h
  · exact isNumeric_of_bounded (by decide : 10 ≤ 16) h

theorem isPlain_of_isNumeric {c : Char} (h : isNumeric c = true) :
    c.toNat < 0x80 ∧ c ≠ '%' ∧ isForbidden c = false := by
  have hhigh : c.toNat ≤ 0x78 := by
    simp only [isNumeric, Bool.or_eq_true, beq_iff_eq] at h
    rcases h with (hdigit | rfl) | rfl
    · simp only [digit?] at hdigit
      grind
    · decide
    · decide
  have hall : ∀ n ≤ 0x78, isNumeric (Char.ofNat n) = true →
      (Char.ofNat n).toNat < 0x80 ∧ Char.ofNat n ≠ '%' ∧ isForbidden (Char.ofNat n) = false := by
    decide
  have hc := hall c.toNat hhigh
  rw [Char.ofNat_toNat] at hc
  exact hc h

/-- A host that is a number is the address it says. -/
theorem read?_of_number {cs : List Char}
    (h : ∀ c ∈ cs, c.toNat < 0x80 ∧ c ≠ '%' ∧ isForbidden c = false) (hne : cs ≠ [])
    (hnumber : endsInNumber cs = true) : read? cs = (v4? cs).map .v4 := by
  have hforbidden : cs.any isForbidden = false := by
    rw [List.any_eq_false]
    intro c hc
    simp [(h c hc).2.2]
  have hplain : (cs.map ([·])).flatten = cs := by rw [← List.flatMap_def, List.flatMap_singleton']
  unfold read?
  split
  · next rest => exact absurd (h '[' List.mem_cons_self).2.2 (by decide)
  · rw [decode_of_ne_percent fun c hc => (h c hc).2.1, Text.decodeUtf8?_flatMap]
    simp only [Option.bind_eq_bind, Option.bind_some]
    rw [mapM_plain?_of_ascii fun c hc => (h c hc).1]
    simp only [hplain, List.isEmpty_iff, hne, hforbidden, hnumber, if_true]
    rfl

/-- The 32-bit value of an address is the address again. -/
theorem ofNat_octets (ip : Ipv4) :
    Ipv4.ofNat (ip.a.toNat * 0x1000000 + (ip.b.toNat * 0x10000 +
      (ip.c.toNat * 0x100 + ip.d.toNat))) = ip := by
  have ha := ip.a.toNat_lt
  have hb := ip.b.toNat_lt
  have hc := ip.c.toNat_lt
  have hd := ip.d.toNat_lt
  have hoctet : ∀ (o : UInt8) (n : Nat), n % 256 = o.toNat → UInt8.ofNat n = o :=
    fun o n hn => UInt8.toNat_inj.1 (by simpa using hn)
  obtain ⟨a, b, c, d⟩ := ip
  simp only [Ipv4.ofNat, Ipv4.mk.injEq] at *
  exact ⟨hoctet a _ (by omega), hoctet b _ (by omega), hoctet c _ (by omega), hoctet d _ (by omega)⟩

theorem v4?_of_octets {cs a b c d : List Char} {ip : Ipv4} (hparts : parts cs = [a, b, c, d])
    (ha : number? a = some (some ip.a.toNat)) (hb : number? b = some (some ip.b.toNat))
    (hc : number? c = some (some ip.c.toNat)) (hd : number? d = some (some ip.d.toNat)) :
    v4? cs = some ip := by
  have hvalue : assemble? 3 [ip.a.toNat, ip.b.toNat, ip.c.toNat, ip.d.toNat] =
      some (ip.a.toNat * 0x1000000 + (ip.b.toNat * 0x10000 + (ip.c.toNat * 0x100 + ip.d.toNat))) := by
    simp [assemble?, ip.a.toNat_lt, ip.b.toNat_lt, ip.c.toNat_lt, ip.d.toNat_lt]
  simpa [v4?, hparts, ha, hb, hc, hd, hvalue] using ofNat_octets ip

theorem mem_parts {part cs : List Char} (h : part ∈ cs.splitOn '.') (hne : part ≠ []) :
    part ∈ parts cs := by
  dsimp only [parts]
  split
  · next hlast =>
    rw [← List.dropLast_append_getLast? [] hlast, List.mem_append, List.mem_singleton] at h
    exact h.resolve_right hne
  · exact h

theorem exists_of_mapM {α β : Type} {f : α → Option β} {xs : List α} {ys : List β}
    (h : xs.mapM f = some ys) : ∀ x ∈ xs, ∃ y, f x = some y := by
  induction xs generalizing ys with
  | nil => nofun
  | cons x xs ih =>
    rw [List.mapM_cons] at h
    simp only [Option.bind_eq_bind, Option.bind_eq_some_iff] at h
    obtain ⟨y, hy, later, hlater, -⟩ := h
    exact List.forall_mem_cons.2 ⟨⟨y, hy⟩, ih hlater⟩

/-- The parts of a version 4 address are numbers, and there is one at least. -/
theorem exists_of_v4? {cs : List Char} {ip : Ipv4} (h : v4? cs = some ip) :
    parts cs ≠ [] ∧ ∀ part ∈ parts cs, ∃ n, number? part = some n := by
  simp only [v4?, Option.bind_eq_bind, Option.bind_eq_some_iff] at h
  obtain ⟨numbers, hnumbers, hip⟩ := h
  constructor
  · intro hnil
    rw [hnil] at hnumbers
    obtain rfl := Option.some.inj hnumbers
    cases hip
  · intro part hpart
    obtain ⟨n, hn⟩ := exists_of_mapM hnumbers part hpart
    exact ⟨some n, Option.join_eq_some_iff.1 hn⟩

/-- A version 4 address is read in each of its spellings. -/
theorem read?_of_v4? {cs : List Char} {ip : Ipv4} (h : v4? cs = some ip) :
    read? cs = some (.v4 ip) := by
  obtain ⟨hparts, hnumbers⟩ := exists_of_v4? h
  have hends : endsInNumber cs = true := by
    obtain ⟨n, hn⟩ := hnumbers _ (List.getLast_mem hparts)
    rw [endsInNumber, List.getLast?_eq_some_getLast hparts]
    simp [hn]
  have hne : cs ≠ [] := by
    rintro rfl
    cases h
  have hnumeric : ∀ c ∈ cs, c = '.' ∨ isNumeric c = true := by
    intro c hc
    refine (mem_splitOn '.' hc).imp_right ?_
    rintro ⟨part, hpart, hmem⟩
    obtain ⟨n, hn⟩ := hnumbers part (mem_parts hpart (List.ne_nil_of_mem hmem))
    exact isNumeric_of_number? hn c hmem
  have hplain : ∀ c ∈ cs, c.toNat < 0x80 ∧ c ≠ '%' ∧ isForbidden c = false := by
    intro c hc
    rcases hnumeric c hc with rfl | hc
    · decide
    · exact isPlain_of_isNumeric hc
  rw [read?_of_number hplain hne hends, h]
  rfl

/-- A dotted address is read as it is in a socket address. -/
theorem read?_dotted {cs : List Char} {ip : Ipv4} (h : Ipv4.read? cs = some ip) :
    read? cs = some (.v4 ip) := by
  obtain ⟨a, b, c, d, hsplit, ha, hb, hc, hd⟩ := Ipv4.splitOn_of_read? h
  have hparts : parts cs = [a, b, c, d] := by simp [parts, hsplit, hd.ne_nil]
  exact read?_of_v4? (v4?_of_octets hparts ha.number? hb.number? hc.number? hd.number?)

theorem read?_bracketed (inner : List Char) :
    read? ('[' :: inner ++ [']']) = (Ipv6.read? inner).map .v6 := by
  simp [read?, Uri.bracketed?]

/-- What the resolver reads as an address, a web address reads as the same one. -/
theorem read?_of_hostAddress {cs : List Char} {a : HostAddress} (h : HostAddress.read? cs = some a) :
    match a with
    | .v4 ip => read? cs = some (.v4 ip)
    | .v6 ip scope => scope = 0 ∧ read? ('[' :: cs ++ [']']) = some (.v6 ip) := by
  unfold HostAddress.read? at h
  split at h
  · cases h
  · split at h
    · next ip hip =>
      obtain rfl := Option.some.inj h
      exact read?_of_v4? hip
    · obtain ⟨ip, hip, rfl⟩ := Option.map_eq_some_iff.1 h
      exact ⟨rfl, by rw [read?_bracketed, hip]; rfl⟩

end WebHost

end ZonePool.Net
