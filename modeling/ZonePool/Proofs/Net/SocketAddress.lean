-- SUMMARY: The spellings that are read as a socket address.
import ZonePool.Net.SocketAddress
import ZonePool.Proofs.Net.Ip

/-!
# Spellings of socket addresses

What is read as a socket address is a host and a port with a colon in between.
The host is an address of version 4, or one of version 6 between brackets that
a scope may follow.
-/

namespace ZonePool.Net.SocketAddress

open Text (readBelow?)

/-! ## Host and port -/

/-- A spelling of an address, cut into its host and the digits of its port. -/
inductive Spells : List Char → List Char → SocketAddress → Prop where
  | v4 {host digits : List Char} {ip : Ipv4} {port : UInt16} (hhost : Ipv4.read? host = some ip)
      (hport : readBelow? UInt16.size digits = some port.toNat) : Spells host digits (.v4 ip port)
  | v6 {inner digits : List Char} {ip : Ipv6} {port : UInt16} (hhost : Ipv6.read? inner = some ip)
      (hport : readBelow? UInt16.size digits = some port.toNat) :
      Spells ('[' :: inner ++ [']']) digits (.v6 ip 0 port)
  | zoned {inner zone digits : List Char} {ip : Ipv6} {scope : UInt32} {port : UInt16}
      (hhost : Ipv6.read? inner = some ip) (hscope : readBelow? UInt32.size zone = some scope.toNat)
      (hport : readBelow? UInt16.size digits = some port.toNat) :
      Spells ('[' :: (inner ++ '%' :: zone) ++ [']']) digits (.v6 ip scope port)

theorem eq_append_of_cut_ne {mark c : Char} {cs front back : List Char}
    (h : Text.cut (· != mark) cs = (front, c :: back)) : cs = front ++ mark :: back := by
  have hcs := Text.fst_append_snd_cut (· != mark) cs
  have hhead : (Text.cut (· != mark) cs).2.head? = some c := by rw [h]; rfl
  have hmark : c = mark := by simpa using Text.head?_snd_cut hhead
  rw [← hcs, h, hmark]

theorem readBelow?_of_port? {cs : List Char} {port : UInt16} (h : port? cs = some port) :
    readBelow? UInt16.size cs = some port.toNat := by
  obtain ⟨n, hn, rfl⟩ := Option.map_eq_some_iff.1 h
  rw [hn, UInt16.toNat_ofNat_of_lt' (Text.lt_of_readBelow? hn)]

theorem eq_of_scoped? {cs : List Char} {ip : Ipv6} {scope : UInt32}
    (h : scoped? cs = some (ip, scope)) :
    (Ipv6.read? cs = some ip ∧ scope = 0) ∨
      ∃ inner zone, cs = inner ++ '%' :: zone ∧ Ipv6.read? inner = some ip ∧
        readBelow? UInt32.size zone = some scope.toNat := by
  unfold scoped? at h
  split at h
  · next inner hcut =>
    have hinner : inner = cs := by simpa [hcut] using Text.fst_append_snd_cut (· != '%') cs
    obtain ⟨ip', hip, hpair⟩ := Option.map_eq_some_iff.1 h
    cases hpair
    exact .inl ⟨hinner ▸ hip, rfl⟩
  · next inner c zone hcut =>
    simp only [Option.bind_eq_bind, Option.bind_eq_some_iff, Option.pure_def, Option.some.injEq,
      Prod.mk.injEq] at h
    obtain ⟨ip', hip, n, hn, rfl, rfl⟩ := h
    refine .inr ⟨inner, zone, eq_append_of_cut_ne hcut, hip, ?_⟩
    rw [hn, UInt32.toNat_ofNat_of_lt' (Text.lt_of_readBelow? hn)]

/-- What is read as an address has one of the spellings. -/
theorem exists_spells_of_read? {cs : List Char} {a : SocketAddress} (h : read? cs = some a) :
    ∃ host digits, cs = host ++ ':' :: digits ∧ Spells host digits a := by
  unfold read? at h
  split at h
  · next rest =>
    split at h
    · next inner digits hcut =>
      simp only [Option.bind_eq_bind, Option.bind_eq_some_iff, Option.pure_def, Option.some.injEq] at h
      obtain ⟨⟨ip, scope⟩, hscoped, port, hport, rfl⟩ := h
      replace hport := readBelow?_of_port? hport
      refine ⟨'[' :: inner ++ [']'], digits, by simp [eq_append_of_cut_ne hcut], ?_⟩
      rcases eq_of_scoped? hscoped with ⟨hhost, rfl⟩ | ⟨inner, zone, rfl, hhost, hscope⟩
      · exact .v6 hhost hport
      · exact .zoned hhost hscope hport
    · cases h
  · split at h
    · next host c digits hcut =>
      simp only [Option.bind_eq_bind, Option.bind_eq_some_iff, Option.pure_def, Option.some.injEq] at h
      obtain ⟨ip, hhost, port, hport, rfl⟩ := h
      exact ⟨host, digits, eq_append_of_cut_ne hcut, .v4 hhost (readBelow?_of_port? hport)⟩
    · cases h

/-! ## Characters -/

/-- The characters that a socket address is spelled with. -/
def isSocketChar (c : Char) : Bool :=
  isIpChar c || c == '[' || c == ']' || c == '%'

theorem isSocketChar_of_isIpChar {c : Char} (h : isIpChar c = true) : isSocketChar c = true := by
  simp [isSocketChar, h]

theorem isIpChar_of_readBelow? {limit n : Nat} {cs : List Char} (h : readBelow? limit cs = some n) :
    ∀ c ∈ cs, isIpChar c = true := fun c hc =>
  isIpChar_of_isDigit ((Text.isDigit_of_readDigits? (Text.readDigits?_of_readBelow? h)).2 c hc)

namespace Spells

variable {host digits : List Char} {a : SocketAddress}

theorem readBelow?_port (h : Spells host digits a) :
    readBelow? UInt16.size digits = some a.port.toNat := by
  cases h <;> assumption

theorem isSocketChar_host (h : Spells host digits a) : ∀ c ∈ host, isSocketChar c = true := by
  cases h with
  | v4 hhost => exact fun c hc => isSocketChar_of_isIpChar (Ipv4.isIpChar_of_read? hhost c hc)
  | v6 hhost =>
    have hinner := Ipv6.isIpChar_of_read? hhost
    simp only [List.forall_mem_append, List.forall_mem_cons]
    exact ⟨⟨rfl, fun c hc => isSocketChar_of_isIpChar (hinner c hc)⟩, rfl, nofun⟩
  | zoned hhost hscope =>
    have hinner := Ipv6.isIpChar_of_read? hhost
    have hzone := isIpChar_of_readBelow? hscope
    simp only [List.forall_mem_append, List.forall_mem_cons]
    exact ⟨⟨rfl, fun c hc => isSocketChar_of_isIpChar (hinner c hc), rfl,
      fun c hc => isSocketChar_of_isIpChar (hzone c hc)⟩, rfl, nofun⟩

theorem isSocketChar (h : Spells host digits a) :
    ∀ c ∈ host ++ ':' :: digits, SocketAddress.isSocketChar c = true := by
  have hdigits := isIpChar_of_readBelow? h.readBelow?_port
  simp only [List.forall_mem_append, List.forall_mem_cons]
  exact ⟨h.isSocketChar_host, rfl, fun c hc => isSocketChar_of_isIpChar (hdigits c hc)⟩

/-- A percent sign belongs to the host, where it begins a scope. -/
theorem mem_percent_iff (h : Spells host digits a) : '%' ∈ host ++ ':' :: digits ↔ '%' ∈ host := by
  have hdigits : '%' ∉ digits := not_mem_of_isIpChar (isIpChar_of_readBelow? h.readBelow?_port) rfl
  simp [hdigits]

theorem ne_nil (h : Spells host digits a) : host ≠ [] := by
  cases h with
  | v4 hhost => exact Ipv4.ne_nil_of_read? hhost
  | v6 | zoned => exact List.cons_ne_nil _ _

end Spells

end ZonePool.Net.SocketAddress
