-- SUMMARY: The service endpoint that a URI names, and the spellings that reading it leaves as they are.
import ZonePool.Net.RestUri
import ZonePool.Proofs.Net.Ipv6
import ZonePool.Proofs.Net.Uri

/-!
# Endpoints that URIs name

A URI names a service endpoint when it can be taken apart into the scheme, an
authority with a host and perhaps a port, and whatever follows. Reading a URI
spells host and port in its own way, and once only: the URI of an endpoint that
was read names this endpoint as it is spelled. A host of plain characters, as
names and dotted addresses have, and a port without leading zeros stay as they
are in the first place.
-/

namespace ZonePool.Net.RestUri

/-! ## What a URI names -/

/-- How a host is spelled, and how it is written from then on. -/
inductive SpellsHost : List Char → List Char → Prop where
  | name {cs : List Char} (hne : cs ≠ []) (h : ∀ c ∈ cs, isForbidden c = false) :
    SpellsHost cs (Percent.encode Percent.isControl cs)
  | bracketed {cs : List Char} {ip : Ipv6} (h : Ipv6.read? cs = some ip) :
    SpellsHost ('[' :: cs ++ [']']) (Uri.writeBracketed ip)

/-- How host and port are spelled. A port, and be it only its colon, may end at a backslash, which
does not end the authority itself. -/
inductive SpellsAuthority : List Char → List Char → Option Nat → Prop where
  | plain {host host' digits : List Char} {port : Option Nat} (hhost : SpellsHost host host')
    (hport : Uri.SpellsPort digits port) : SpellsAuthority (host ++ digits) host' port
  | backslash {host host' digits more : List Char} {port : Option Nat}
    (hhost : SpellsHost host host') (hport : Uri.SpellsPort digits port) (hne : digits ≠ []) :
    SpellsAuthority (host ++ digits ++ '\\' :: more) host' port

/-- A URI that has the scheme of the service, in any case of its letters, and a host. -/
inductive Names : String → List Char → Option Nat → Prop where
  | intro {uri : String} {spelling credentials authority rest host : List Char} {port : Option Nat}
    (huri : Uri.clean uri.toList =
      spelling ++ ':' :: '/' :: '/' :: (credentials ++ (authority ++ rest)))
    (hscheme : spelling.map Char.toLower = scheme)
    (hcredentials : Uri.IsCredentials false credentials)
    (hkept : ∀ c ∈ authority, Uri.endsAuthority false c = false ∧ c ≠ '@')
    (hrest : rest.head?.all (Uri.endsAuthority false))
    (hauthority : SpellsAuthority authority host port) : Names uri host port

/-! ## Plain characters -/

/-- The characters that may stand in a host and are not encoded there. -/
def isPlain (c : Char) : Bool :=
  0x20 < c.toNat && c.toNat < 0x7F && !isForbidden c

theorem isPlain_iff {c : Char} :
    isPlain c = true ↔ 0x20 < c.toNat ∧ c.toNat < 0x7F ∧ isForbidden c = false := by
  simp [isPlain, and_assoc]

theorem encode_of_isPlain {cs : List Char} (h : ∀ c ∈ cs, isPlain c = true) :
    Percent.encode Percent.isControl cs = cs := by
  have hchar : ∀ c ∈ cs, Percent.encodeChar Percent.isControl c = [c] := by
    intro c hc
    obtain ⟨hlow, hhigh, -⟩ := isPlain_iff.1 (h c hc)
    have hcontrol : Percent.isControl c = false := by
      simp only [Percent.isControl, Bool.or_eq_false_iff, decide_eq_false_iff_not, beq_eq_false_iff_ne]
      omega
    have hascii : c.toNat < 0x80 := by omega
    simp [Percent.encodeChar, hcontrol, hascii]
  rw [Percent.encode, List.flatMap_congr hchar]
  exact List.flatMap_singleton' cs

theorem isPlain_of_mem_octet {b : UInt8} {c : Char} (h : c ∈ Percent.octet b) : isPlain c = true := by
  have hdigit : ∀ n < 16, isPlain (Percent.hexDigit n) = true := by decide
  have hb := b.toNat_lt
  simp only [Percent.octet, List.mem_cons, List.not_mem_nil, or_false] at h
  rcases h with rfl | rfl | rfl
  · decide
  · exact hdigit _ (by omega)
  · exact hdigit _ (by omega)

/-- What is left as it is in a host, or stands for what is not, is plain. -/
theorem isPlain_of_mem_encode {cs : List Char} (h : ∀ c ∈ cs, isForbidden c = false) :
    ∀ c ∈ Percent.encode Percent.isControl cs, isPlain c = true := by
  intro c hc
  obtain ⟨d, hd, hc⟩ := List.mem_flatMap.1 hc
  rw [Percent.encodeChar] at hc
  split at hc
  · next hkept =>
    obtain rfl := List.mem_singleton.1 hc
    have hspace : c.toNat ≠ 0x20 := by
      intro heq
      rw [← Char.ofNat_toNat c, heq] at hd
      exact absurd (h _ hd) (by decide)
    simp only [Percent.isControl, Bool.or_eq_false_iff, decide_eq_false_iff_not,
      beq_eq_false_iff_ne] at hkept
    exact isPlain_iff.2 ⟨by omega, by omega, h c hd⟩
  · obtain ⟨b, -, hc⟩ := List.mem_flatMap.1 hc
    exact isPlain_of_mem_octet hc

/-! ## Hosts -/

theorem ne_of_isForbidden {c d : Char} (h : isForbidden c = false) (hd : isForbidden d = true) :
    c ≠ d := by
  rintro rfl
  rw [h] at hd
  cases hd

theorem endsAuthority_of_isForbidden {c : Char} (h : isForbidden c = false) :
    Uri.endsAuthority false c = false := by
  have hne : ∀ d : Char, isForbidden d = true → c ≠ d := fun d => ne_of_isForbidden h
  simp [Uri.endsAuthority, hne '/' (by decide), hne '?' (by decide), hne '#' (by decide)]

theorem endsAuthority_of_isIpChar {c : Char} (h : isIpChar c = true) :
    Uri.endsAuthority false c = false := by
  have hne : ∀ d : Char, isIpChar d = false → c ≠ d := by
    rintro d hd rfl
    rw [h] at hd
    cases hd
  simp [Uri.endsAuthority, hne '/' (by decide), hne '?' (by decide), hne '#' (by decide)]

theorem encode_ne_nil {cs : List Char} (h : cs ≠ []) (set : Char → Bool) :
    Percent.encode set cs ≠ [] := by
  obtain ⟨c, cs, rfl⟩ := List.exists_cons_of_ne_nil h
  have hchar : Percent.encodeChar set c ≠ [] := by
    rw [Percent.encodeChar]
    split
    · exact List.cons_ne_nil _ _
    · obtain ⟨b, bs, hoctets⟩ := List.exists_cons_of_ne_nil (String.utf8EncodeChar_ne_nil (c := c))
      rw [hoctets]
      exact List.cons_ne_nil _ _
  simp [Percent.encode, hchar]

/-- What is read as a host, unless it is empty, has one of the spellings. -/
theorem spellsHost_of_host? {cs host : List Char} (h : host? cs = some host) (hne : host ≠ []) :
    SpellsHost cs host := by
  unfold host? at h
  split at h
  · next inner =>
    obtain ⟨ip, hip, rfl⟩ := Option.map_eq_some_iff.1 h
    rw [Uri.bracketed?] at hip
    split at hip
    · next hlast =>
      obtain ⟨front, rfl⟩ := List.getLast?_eq_some_iff.1 hlast
      rw [List.dropLast_concat] at hip
      exact .bracketed hip
    · cases hip
  · split at h
    · cases h
    · next hforbidden =>
      cases h
      rw [Bool.not_eq_true, List.any_eq_false] at hforbidden
      refine .name ?_ fun c hc => Bool.eq_false_iff.2 (hforbidden c hc)
      rintro rfl
      exact hne rfl

namespace SpellsHost

variable {host host' rest : List Char}

theorem host?_eq (h : SpellsHost host host') : host? host = some host' := by
  cases h with
  | name hne h =>
    have hany : host.any isForbidden = false := by
      rw [List.any_eq_false]
      intro c hc
      simp [h c hc]
    unfold host?
    split
    · exact absurd (h '[' List.mem_cons_self) (by decide)
    · rw [hany]
      rfl
  | bracketed h => simp [host?, Uri.bracketed?, h]

theorem ne_nil (h : SpellsHost host host') : host' ≠ [] := by
  cases h with
  | name hne => exact encode_ne_nil hne _
  | bracketed => exact List.cons_ne_nil _ _

theorem not_endsAuthority (h : SpellsHost host host') :
    ∀ c ∈ host, Uri.endsAuthority false c = false ∧ c ≠ '@' := by
  cases h with
  | name hne h =>
    exact fun c hc => ⟨endsAuthority_of_isForbidden (h c hc), ne_of_isForbidden (h c hc) (by decide)⟩
  | @bracketed cs ip h =>
    have hinner := Ipv6.isIpChar_of_read? h
    simp only [List.forall_mem_append, List.forall_mem_cons]
    refine ⟨⟨by decide, fun c hc => ⟨endsAuthority_of_isIpChar (hinner c hc), ?_⟩⟩, by decide, nofun⟩
    exact ne_of_mem_of_not_mem hc (not_mem_of_isIpChar hinner rfl)

theorem spanHost (h : SpellsHost host host')
    (hrest : ∀ c ∈ rest.head?, c = ':' ∨ Uri.endsAuthority false c = true) :
    Uri.spanHost false false (host ++ rest) = (host, rest) := by
  have hends := h.not_endsAuthority
  cases h with
  | name hne h =>
    refine Uri.spanHost_append (fun c hc => ⟨(hends c hc).1, ?_⟩) hrest
    exact ⟨ne_of_isForbidden (h c hc) (by decide), ne_of_isForbidden (h c hc) (by decide)⟩
  | @bracketed cs ip h =>
    have hclose : ']' ∉ cs := not_mem_of_isIpChar (Ipv6.isIpChar_of_read? h) rfl
    have hinner : ∀ c ∈ cs, Uri.endsAuthority false c = false ∧ c ≠ ']' := fun c hc =>
      ⟨(hends c (by simp [hc])).1, ne_of_mem_of_not_mem hc hclose⟩
    simpa using Uri.spanHost_bracketed hinner hrest

/-- What a host is written as is a spelling of itself, in visible characters. -/
theorem written (h : SpellsHost host host') :
    SpellsHost host' host' ∧ ∀ c ∈ host', 0x20 < c.toNat := by
  cases h with
  | name hne h =>
    have hplain := isPlain_of_mem_encode h
    have hspells : SpellsHost (Percent.encode Percent.isControl host)
        (Percent.encode Percent.isControl (Percent.encode Percent.isControl host)) :=
      .name (encode_ne_nil hne _) fun c hc => (isPlain_iff.1 (hplain c hc)).2.2
    rw [encode_of_isPlain hplain] at hspells
    exact ⟨hspells, fun c hc => (isPlain_iff.1 (hplain c hc)).1⟩
  | @bracketed cs ip h =>
    have hread := Ipv6.read?_write ip
    have hinner := Ipv6.isIpChar_of_read? hread
    refine ⟨.bracketed hread, ?_⟩
    simp only [Uri.writeBracketed, List.forall_mem_append, List.forall_mem_cons]
    exact ⟨⟨by decide, fun c hc => visible_of_isIpChar (hinner c hc)⟩, by decide, nofun⟩

end SpellsHost

theorem spellsHost_of_isPlain {host : List Char} (hne : host ≠ [])
    (h : ∀ c ∈ host, isPlain c = true) : SpellsHost host host := by
  have hspells : SpellsHost host (Percent.encode Percent.isControl host) :=
    .name hne fun c hc => (isPlain_iff.1 (h c hc)).2.2
  rwa [encode_of_isPlain h] at hspells

/-! ## Authorities -/

section

variable {cs host digits rest credentials authority : List Char} {port : Option Nat}

theorem authority?_of_skip {spelling : List Char}
    (hskip : Uri.skipCredentials false cs = spelling ++ (digits ++ rest))
    (hhost : SpellsHost spelling host) (hport : Uri.SpellsPort digits port)
    (hrest : rest.head?.all (Uri.endsAuthority true))
    (hend : digits = [] → rest.head?.all (Uri.endsAuthority false)) :
    authority? cs = some (writeEndpoint host port) := by
  rw [authority?, hskip, hhost.spanHost (hport.head?_append hend)]
  simp [hhost.host?_eq, hport.port?_append hrest, hhost.ne_nil]

/-- Whatever ends an authority elsewhere ends one of the web. -/
theorem head?_all_of_head?_all (h : rest.head?.all (Uri.endsAuthority false)) :
    rest.head?.all (Uri.endsAuthority true) := by
  rw [Option.all_eq_true] at h ⊢
  intro c hc
  rw [Uri.endsAuthority_true, h c hc, Bool.true_or]

theorem authority?_of_spells (hcredentials : Uri.IsCredentials false credentials)
    (hkept : ∀ c ∈ authority, Uri.endsAuthority false c = false ∧ c ≠ '@')
    (hrest : rest.head?.all (Uri.endsAuthority false))
    (hauthority : SpellsAuthority authority host port) :
    authority? (credentials ++ (authority ++ rest)) = some (writeEndpoint host port) := by
  have hskip := Uri.skipCredentials_credentials hcredentials hkept hrest
  cases hauthority with
  | plain hhost hport =>
    rw [List.append_assoc] at hskip ⊢
    exact authority?_of_skip hskip hhost hport (head?_all_of_head?_all hrest) fun _ => hrest
  | @backslash spelling _ digits more _ hhost hport hne =>
    rw [List.append_assoc, List.append_assoc, List.cons_append] at hskip ⊢
    exact authority?_of_skip hskip hhost hport rfl fun hempty => absurd hempty hne

/-- What is read as host and port is spelled in an authority that stands there. -/
theorem exists_spellsAuthority {endpoint : List Char} (h : authority? cs = some endpoint) :
    ∃ credentials authority rest host port, cs = credentials ++ (authority ++ rest) ∧
      Uri.IsCredentials false credentials ∧
      (∀ c ∈ authority, Uri.endsAuthority false c = false ∧ c ≠ '@') ∧
      rest.head?.all (Uri.endsAuthority false) ∧ SpellsAuthority authority host port ∧
      endpoint = writeEndpoint host port := by
  obtain ⟨credentials, authority, rest, hcs, hskip, hcredentials, hkept, hrest⟩ :=
    Uri.exists_skipCredentials false cs
  have hspan := Uri.append_of_spanHost false false (authority ++ rest)
  have hbehind := Uri.head?_spanHost false false (authority ++ rest)
  rw [authority?, hskip] at h
  generalize Uri.spanHost false false (authority ++ rest) = parts at h hspan hbehind
  obtain ⟨spelling, behind⟩ := parts
  simp only [Option.bind_eq_bind, Option.bind_eq_some_iff] at h hspan hbehind
  obtain ⟨host, hhost, ⟨port, left⟩, hport, h⟩ := h
  split at h
  · cases h
  next hne =>
  cases h
  replace hhost := spellsHost_of_host? hhost (by simpa using hne)
  obtain ⟨digits, rfl, hdigits, hends, habsent⟩ := Uri.exists_spellsPort hport
  refine ⟨credentials, authority, rest, host, port, hcs, hcredentials, hkept, hrest, ?_, rfl⟩
  -- What is left behind the port begins within the authority or right behind it.
  have hfront : ∀ c ∈ spelling ++ digits, (!Uri.endsAuthority false c) = true := by
    simp only [List.forall_mem_append]
    exact ⟨fun c hc => by simp [hhost.not_endsAuthority c hc],
      fun c hc => by simp [hdigits.not_endsAuthority false c hc]⟩
  have hcut : Text.cut (!Uri.endsAuthority false ·) (spelling ++ digits ++ left) = (authority, rest) := by
    rw [List.append_assoc, hspan]
    exact Uri.cut_authority (fun c hc => (hkept c hc).1) hrest
  have hleft := Text.fst_append_snd_cut (!Uri.endsAuthority false ·) left
  rw [Text.cut_append hfront] at hcut
  generalize Text.cut (!Uri.endsAuthority false ·) left = pieces at hcut hleft
  obtain ⟨junk, tail⟩ := pieces
  cases hcut
  cases junk with
  | nil => simpa using SpellsAuthority.plain hhost hdigits
  | cons c more =>
    have hhead : left.head? = some c := by rw [← hleft]; rfl
    have hc : Uri.endsAuthority false c = false := (hkept c (by simp)).1
    have hne : digits ≠ [] := by
      intro hempty
      rw [hempty, List.nil_append] at hbehind
      rcases hbehind c hhead with hcolon | hend
      · exact habsent hempty c hhead hcolon
      · rw [hc] at hend
        cases hend
    have hbackslash : c = '\\' := by
      have hend := (Option.all_eq_true _ _).1 (hends hne) c hhead
      simpa [Uri.endsAuthority_true, hc] using hend
    subst hbackslash
    exact .backslash hhost hdigits hne

end

/-! ## Whole URIs -/

theorem scheme?_of_map_toLower {spelling rest : List Char} (h : spelling.map Char.toLower = scheme) :
    Uri.scheme? (spelling ++ ':' :: rest) = some (scheme, rest) := by
  have halpha : ∀ c ∈ spelling, c.isAlpha = true := by
    intro c hc
    have hletters : ∀ d ∈ scheme, d.isAlpha = true := List.all_eq_true.1 rfl
    exact Uri.isAlpha_of_isAlpha_toLower (hletters _ (h ▸ List.mem_map_of_mem hc))
  have hfirst : (spelling.head?.map Char.isAlpha).getD false := by
    cases spelling with
    | nil => cases h
    | cons c spelling => exact halpha c List.mem_cons_self
  have hscheme : ∀ c ∈ spelling, Uri.isSchemeChar c = true := by
    intro c hc
    simp [Uri.isSchemeChar, Char.isAlphanum, halpha c hc]
  rw [Uri.scheme?_append hfirst hscheme, h]

theorem endpoint?_of_names {uri : String} {host : List Char} {port : Option Nat}
    (h : Names uri host port) : endpoint? uri = some (String.ofList (writeEndpoint host port)) := by
  obtain ⟨huri, hscheme, hcredentials, hkept, hrest, hauthority⟩ := h
  rw [endpoint?, huri, scheme?_of_map_toLower hscheme]
  simp [authority?_of_spells hcredentials hkept hrest hauthority]

theorem exists_names_of_endpoint? {uri endpoint : String} (h : endpoint? uri = some endpoint) :
    ∃ host port, Names uri host port ∧ endpoint = String.ofList (writeEndpoint host port) := by
  unfold endpoint? at h
  split at h
  · next s rest hscheme =>
    split at h
    · next hs =>
      obtain ⟨text, hauthority, rfl⟩ := Option.map_eq_some_iff.1 h
      obtain ⟨spelling, huri, hspelling⟩ := Uri.eq_append_of_scheme? hscheme
      obtain ⟨credentials, authority, rest, host, port, rfl, hcredentials, hkept, hrest, hspells,
        rfl⟩ := exists_spellsAuthority hauthority
      exact ⟨host, port, .intro huri (hspelling.trans hs) hcredentials hkept hrest hspells, rfl⟩
    · cases h
  · cases h

/-- A URI is read as an endpoint exactly if it names it. -/
theorem endpoint?_eq_some_iff {uri endpoint : String} :
    endpoint? uri = some endpoint ↔
      ∃ host port, Names uri host port ∧ endpoint = String.ofList (writeEndpoint host port) := by
  refine ⟨exists_names_of_endpoint?, ?_⟩
  rintro ⟨host, port, hnames, rfl⟩
  exact endpoint?_of_names hnames

theorem endpoint?_eq_none_iff {uri : String} :
    endpoint? uri = none ↔ ∀ host port, ¬Names uri host port := by
  rw [Option.eq_none_iff_forall_ne_some]
  constructor
  · intro h host port hnames
    exact h _ (endpoint?_of_names hnames)
  · intro h endpoint hsome
    obtain ⟨host, port, hnames, -⟩ := exists_names_of_endpoint? hsome
    exact h host port hnames

/-! ## Endpoints that stay as they are -/

/-- What is written behind a host spells the port, in visible characters. -/
theorem exists_spellsPort_writeEndpoint (host : List Char) {port : Option Nat}
    (h : ∀ n ∈ port, n < UInt16.size) :
    ∃ digits, writeEndpoint host port = host ++ digits ∧ Uri.SpellsPort digits port ∧
      ∀ c ∈ digits, 0x20 < c.toNat := by
  cases port with
  | none => exact ⟨[], by simp [writeEndpoint], .absent, nofun⟩
  | some n =>
    refine ⟨':' :: Text.decimal n, rfl, .number (Text.readBelow?_decimal (h n rfl)), ?_⟩
    refine List.forall_mem_cons.2 ⟨by decide, fun c hc => ?_⟩
    have hdigit := Text.isDigit_iff.1 (Text.isDigit_of_mem_decimal hc)
    omega

/-- The URI of an endpoint names it as it is written. -/
theorem names_writeEndpoint {host : List Char} {port : Option Nat} (h : SpellsHost host host)
    (hvisible : ∀ c ∈ host, 0x20 < c.toNat) (hport : ∀ n ∈ port, n < UInt16.size) :
    Names ("rest://" ++ String.ofList (writeEndpoint host port)) host port := by
  obtain ⟨digits, hwrite, hdigits, hdigitsVisible⟩ := exists_spellsPort_writeEndpoint host hport
  have htext : ("rest://" ++ String.ofList (writeEndpoint host port)).toList =
      scheme ++ [':', '/', '/'] ++ (host ++ digits) := by
    simp [scheme, hwrite]
  have hall : ∀ c ∈ scheme ++ [':', '/', '/'] ++ (host ++ digits), 0x20 < c.toNat := by
    have hscheme : ∀ c ∈ scheme ++ [':', '/', '/'], 0x20 < c.toNat := by simp [scheme]
    exact List.forall_mem_append.2 ⟨hscheme, List.forall_mem_append.2 ⟨hvisible, hdigitsVisible⟩⟩
  have huri : Uri.clean ("rest://" ++ String.ofList (writeEndpoint host port)).toList =
      scheme ++ ':' :: '/' :: '/' :: ([] ++ (host ++ digits ++ [])) := by
    rw [htext, Uri.clean_of_forall hall]
    simp
  exact .intro huri (by decide) (.inl rfl)
    (List.forall_mem_append.2 ⟨h.not_endsAuthority, hdigits.not_endsAuthority false⟩) rfl
    (.plain h hdigits)

/-- A URI with a plain host, and a port without leading zeros if any, names them as they are
spelled. -/
theorem endpoint?_writeEndpoint {host : List Char} {port : Option Nat} (hne : host ≠ [])
    (hplain : ∀ c ∈ host, isPlain c = true) (hport : ∀ n ∈ port, n < UInt16.size) :
    endpoint? ("rest://" ++ String.ofList (writeEndpoint host port)) =
      some (String.ofList (writeEndpoint host port)) :=
  endpoint?_of_names (names_writeEndpoint (spellsHost_of_isPlain hne hplain)
    (fun c hc => (isPlain_iff.1 (hplain c hc)).1) hport)

theorem SpellsAuthority.exists_spells {authority host : List Char} {port : Option Nat}
    (h : SpellsAuthority authority host port) :
    ∃ spelling digits, SpellsHost spelling host ∧ Uri.SpellsPort digits port := by
  cases h with
  | plain hhost hport | backslash hhost hport => exact ⟨_, _, hhost, hport⟩

/-- Reading the URI of an endpoint that was read gives the endpoint again. -/
theorem endpoint?_endpoint {uri endpoint : String} (h : endpoint? uri = some endpoint) :
    endpoint? ("rest://" ++ endpoint) = some endpoint := by
  obtain ⟨host, port, hnames, rfl⟩ := exists_names_of_endpoint? h
  obtain ⟨-, -, -, -, -, hauthority⟩ := hnames
  obtain ⟨spelling, digits, hhost, hdigits⟩ := hauthority.exists_spells
  obtain ⟨hwritten, hvisible⟩ := hhost.written
  exact endpoint?_of_names (names_writeEndpoint hwritten hvisible hdigits.lt)

end ZonePool.Net.RestUri
