-- SUMMARY: A web address that is built from a socket address names that socket address.
import ZonePool.Net.WebUrl
import ZonePool.Proofs.Net.Host
import ZonePool.Proofs.Net.SocketAddress
import ZonePool.Proofs.Net.Uri

/-!
# Web addresses of socket addresses

A socket address and the authority of a web address are read by different
readers. They agree on every spelling of a socket address without a scope: the
web address names the same host and the same port. With a scope, the text is no
web address.
-/

namespace ZonePool.Net

/-- The host of a socket address in a web address. -/
def SocketAddress.host : SocketAddress → WebHost
  | .v4 ip _ => .v4 ip
  | .v6 ip _ _ => .v6 ip

/-! ## Authorities -/

namespace SocketAddress

theorem endsAuthority_of_isSocketChar {c : Char} (h : isSocketChar c = true) :
    Uri.endsAuthority true c = false := by
  have hne : ∀ d : Char, isSocketChar d = false → c ≠ d := by
    rintro d hd rfl
    rw [h] at hd
    cases hd
  simp [Uri.endsAuthority, hne '/' (by decide), hne '?' (by decide), hne '#' (by decide),
    hne '\\' (by decide)]

theorem visible_of_isSocketChar {c : Char} (h : isSocketChar c = true) : 0x20 < c.toNat := by
  by_contra hlow
  have hblank : ∀ n ≤ 0x20, isSocketChar (Char.ofNat n) = false := by decide
  have hc := hblank c.toNat (Nat.not_lt.1 hlow)
  rw [Char.ofNat_toNat, h] at hc
  cases hc

namespace Spells

variable {host digits rest : List Char} {a : SocketAddress}

theorem spanHost (h : Spells host digits a) :
    Uri.spanHost true false (host ++ ':' :: rest) = (host, ':' :: rest) := by
  have hends : ∀ c ∈ host, Uri.endsAuthority true c = false := fun c hc =>
    endsAuthority_of_isSocketChar (h.isSocketChar_host c hc)
  have hcolon : ∀ c ∈ (':' :: rest).head?, c = ':' ∨ Uri.endsAuthority true c = true := by simp
  cases h with
  | v4 hhost =>
    refine Uri.spanHost_append (fun c hc => ?_) hcolon
    rcases Ipv4.isDigit_or_dot hhost c hc with hdigit | rfl
    · refine ⟨hends c hc, ?_, ?_⟩ <;> · rintro rfl; cases hdigit
    · decide
  | @v6 inner _ _ _ hhost =>
    have hclose : ']' ∉ inner := not_mem_of_isIpChar (Ipv6.isIpChar_of_read? hhost) rfl
    have hinner : ∀ c ∈ inner, Uri.endsAuthority true c = false ∧ c ≠ ']' := fun c hc =>
      ⟨hends c (by simp [hc]), ne_of_mem_of_not_mem hc hclose⟩
    simpa using Uri.spanHost_bracketed hinner hcolon
  | @zoned inner zone _ _ _ _ hhost hscope =>
    have hclose : ']' ∉ inner ++ '%' :: zone := by
      have hinner : ']' ∉ inner := not_mem_of_isIpChar (Ipv6.isIpChar_of_read? hhost) rfl
      have hzone : ']' ∉ zone := not_mem_of_isIpChar (isIpChar_of_readBelow? hscope) rfl
      simp [hinner, hzone]
    have hbody : ∀ c ∈ inner ++ '%' :: zone, Uri.endsAuthority true c = false ∧ c ≠ ']' := fun c hc =>
      ⟨hends c (List.mem_append_left _ (List.mem_cons_of_mem _ hc)), ne_of_mem_of_not_mem hc hclose⟩
    simpa using Uri.spanHost_bracketed hbody hcolon

/-- With a scope, the host of an address is no host of a web address. -/
theorem webHost (h : Spells host digits a) :
    WebHost.read? host = if '%' ∈ host then none else some a.host := by
  cases h with
  | v4 hhost =>
    have hpercent : '%' ∉ host := not_mem_of_isIpChar (Ipv4.isIpChar_of_read? hhost) rfl
    rw [if_neg hpercent, WebHost.read?_dotted hhost, SocketAddress.host]
  | @v6 inner _ _ _ hhost =>
    have hpercent : '%' ∉ inner := not_mem_of_isIpChar (Ipv6.isIpChar_of_read? hhost) rfl
    rw [if_neg (by simp [hpercent]), WebHost.read?_bracketed, hhost, SocketAddress.host]
    rfl
  | @zoned inner zone _ _ _ _ hhost hscope =>
    have hnone : Ipv6.read? (inner ++ '%' :: zone) = none := by
      rw [Option.eq_none_iff_forall_ne_some]
      intro ip hip
      exact absurd (Ipv6.isIpChar_of_read? hip '%' (by simp)) (by decide)
    rw [if_pos (by simp), WebHost.read?_bracketed, hnone]
    rfl

end Spells

end SocketAddress

/-! ## Whole addresses -/

namespace WebUrl

variable {host digits rest : List Char} {a : SocketAddress}

theorem ofAuthority?_spells (h : SocketAddress.Spells host digits a)
    (hrest : rest.head?.all (Uri.endsAuthority true)) (encrypted : Bool) :
    ∃ path query, ofAuthority? encrypted (host ++ ':' :: digits ++ rest) =
      if '%' ∈ host then none else some ⟨encrypted, a.host, some a.port.toNat, path, query⟩ := by
  have hcredentials : Uri.skipCredentials true (host ++ ':' :: digits ++ rest) =
      host ++ ':' :: digits ++ rest := by
    refine Uri.skipCredentials_append (fun c hc => ?_) hrest
    have hchar := h.isSocketChar c hc
    refine ⟨SocketAddress.endsAuthority_of_isSocketChar hchar, ?_⟩
    rintro rfl
    cases hchar
  have hspan : Uri.spanHost true false (host ++ ':' :: digits ++ rest) = (host, ':' :: (digits ++ rest)) := by
    rw [List.append_assoc, List.cons_append, h.spanHost]
  have hport := Uri.port?_append h.readBelow?_port hrest
  rw [ofAuthority?, hcredentials, hspan]
  simp only [List.isEmpty_iff, h.ne_nil, if_false, h.webHost]
  split
  · exact ⟨[], none, rfl⟩
  · simp only [Option.bind_eq_bind, Option.bind_some, hport]
    exact ⟨_, _, rfl⟩

theorem eq_of_webScheme? {scheme : List Char} {encrypted : Bool} (h : webScheme? scheme = some encrypted) :
    scheme = "http".toList ∨ scheme = "https".toList := by
  unfold webScheme? at h
  grind

theorem scheme?_of_webScheme? {scheme rest : List Char} {encrypted : Bool}
    (h : webScheme? scheme = some encrypted) : Uri.scheme? (scheme ++ ':' :: rest) = some (scheme, rest) := by
  rcases eq_of_webScheme? h with rfl | rfl <;>
    exact Uri.scheme?_append rfl (List.all_eq_true.1 (by decide))

theorem visible_of_webScheme? {scheme : List Char} {encrypted : Bool}
    (h : webScheme? scheme = some encrypted) : ∀ c ∈ scheme, 0x20 < c.toNat := by
  rcases eq_of_webScheme? h with rfl | rfl <;> simp

theorem dropWhile_slashes (h : SocketAddress.Spells host digits a) :
    ('/' :: '/' :: (host ++ ':' :: digits ++ rest)).dropWhile (fun c => c == '/' || c == '\\') =
      host ++ ':' :: digits ++ rest := by
  cases host with
  | nil => exact absurd rfl h.ne_nil
  | cons c host =>
    have hc := SocketAddress.endsAuthority_of_isSocketChar (h.isSocketChar_host c List.mem_cons_self)
    simp only [Uri.endsAuthority, Bool.or_eq_false_iff, Bool.true_and] at hc
    simp [hc.1.1.1, hc.2]

/-- No lookup is needed to get from the web address to the socket address. -/
theorem locate_of_spells (h : SocketAddress.Spells host digits a) (hscope : '%' ∉ host)
    {url : WebUrl} (hhost : url.host = a.host) (hport : url.dialPort = a.port.toNat)
    (resolver : Resolver) : url.locate resolver = .found a := by
  rw [locate, hhost, hport]
  cases h with
  | v4 | v6 => simp [SocketAddress.host, SocketAddress.port]
  | zoned => simp at hscope

/-- A socket address with a scheme of the web before it, and nothing or a path behind it, is a web
address with the same host and port; with a scope it is none. -/
theorem read?_ofText? {protocol endpoint path : String} {encrypted : Bool}
    (hscheme : webScheme? protocol.toList = some encrypted)
    (h : SocketAddress.ofText? endpoint = some a) (hpath : ∀ c ∈ path.toList.head?, c = '/') :
    ∃ segments query, read? none (protocol ++ "://" ++ endpoint ++ path) =
      if '%' ∈ endpoint.toList then none
      else some (.web ⟨encrypted, a.host, some a.port.toNat, segments, query⟩) := by
  obtain ⟨host, digits, hendpoint, hspells⟩ := SocketAddress.exists_spells_of_read? h
  have htext : (protocol ++ "://" ++ endpoint ++ path).toList =
      (protocol.toList ++ ':' :: '/' :: '/' :: (host ++ ':' :: digits)) ++ path.toList := by
    simp [hendpoint]
  have hvisible : ∀ c ∈ protocol.toList ++ ':' :: '/' :: '/' :: (host ++ ':' :: digits),
      0x20 < c.toNat := by
    have hspelled : ∀ c ∈ host ++ ':' :: digits, 0x20 < c.toNat := fun c hc =>
      SocketAddress.visible_of_isSocketChar (hspells.isSocketChar c hc)
    rw [List.forall_mem_append, List.forall_mem_cons, List.forall_mem_cons, List.forall_mem_cons]
    exact ⟨visible_of_webScheme? hscheme, by decide, by decide, by decide, hspelled⟩
  obtain ⟨rest, hclean, hrest⟩ := Uri.clean_append_path hvisible hpath
  have hend : rest.head?.all (Uri.endsAuthority true) := by
    cases rest with
    | nil => rfl
    | cons c rest =>
      obtain rfl : c = '/' := hrest c rfl
      rfl
  obtain ⟨segments, query, hauthority⟩ := ofAuthority?_spells hspells hend encrypted
  refine ⟨segments, query, ?_⟩
  rw [read?, htext, hclean, List.append_assoc, List.cons_append, List.cons_append, List.cons_append,
    scheme?_of_webScheme? hscheme]
  simp only [hscheme, dropWhile_slashes hspells, hauthority, hendpoint, hspells.mem_percent_iff]
  split <;> rfl

/-- Without a scope, the web address leads to the socket address. -/
theorem exists_read?_of_unscoped {protocol endpoint path : String} {encrypted : Bool}
    (hscheme : webScheme? protocol.toList = some encrypted)
    (h : SocketAddress.ofText? endpoint = some a) (hpath : ∀ c ∈ path.toList.head?, c = '/')
    (hscope : '%' ∉ endpoint.toList) :
    ∃ url : WebUrl, read? none (protocol ++ "://" ++ endpoint ++ path) = some (.web url) ∧
      url.host = a.host ∧ url.dialPort = a.port.toNat ∧
      ∀ resolver, url.locate resolver = .found a := by
  obtain ⟨segments, query, hread⟩ := read?_ofText? hscheme h hpath
  obtain ⟨host, digits, hendpoint, hspells⟩ := SocketAddress.exists_spells_of_read? h
  rw [if_neg hscope] at hread
  rw [hendpoint, hspells.mem_percent_iff] at hscope
  exact ⟨_, hread, rfl, rfl, locate_of_spells hspells hscope rfl rfl⟩

/-- With a scope, the text is no web address. -/
theorem read?_of_scoped {protocol endpoint path : String} {encrypted : Bool}
    (hscheme : webScheme? protocol.toList = some encrypted)
    (h : SocketAddress.ofText? endpoint = some a) (hpath : ∀ c ∈ path.toList.head?, c = '/')
    (hscope : '%' ∈ endpoint.toList) : read? none (protocol ++ "://" ++ endpoint ++ path) = none := by
  obtain ⟨segments, query, hread⟩ := read?_ofText? hscheme h hpath
  rw [hread, if_pos hscope]

end WebUrl

end ZonePool.Net
