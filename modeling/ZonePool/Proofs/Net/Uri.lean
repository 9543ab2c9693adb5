-- SUMMARY: The readers of a URI's parts give back the parts that a text was put together from.
import Mathlib.Data.List.Basic
import Mathlib.Data.List.TakeWhile
import ZonePool.Net.Uri
import ZonePool.Proofs.Text.Decimal

/-!
# Parts of a URI

Each part is read up to where the next one begins. So the readers give back the
host, the port and the rest of a text that was put together from them, whatever
the rest is, as long as it is empty or begins with a character that ends an
authority. What they read, in turn, was put together so.
-/

namespace ZonePool.Net.Uri

/-! ## Cleaning -/

/-- What cleaning leaves of a text that visible characters stand before. -/
def cleanBack (cs : List Char) : List Char :=
  (cs.reverse.dropWhile (·.toNat ≤ 0x20)).reverse.filter fun c => c != '\t' && c != '\n' && c != '\r'

theorem dropWhile_of_forall {cs : List Char} (h : ∀ c ∈ cs, 0x20 < c.toNat) :
    cs.dropWhile (·.toNat ≤ 0x20) = cs := by
  rw [List.dropWhile_eq_self_iff]
  intro hpos
  simpa using h _ (List.getElem_mem hpos)

theorem clean_append {front : List Char} (h : ∀ c ∈ front, 0x20 < c.toNat) (hne : front ≠ [])
    (rest : List Char) : clean (front ++ rest) = front ++ cleanBack rest := by
  have hstart : (front ++ rest).dropWhile (·.toNat ≤ 0x20) = front ++ rest := by
    rw [List.dropWhile_append, dropWhile_of_forall h]
    simp [hne]
  have hend : (front ++ rest).reverse.dropWhile (·.toNat ≤ 0x20) =
      rest.reverse.dropWhile (·.toNat ≤ 0x20) ++ front.reverse := by
    have hreverse : ∀ c ∈ front.reverse, 0x20 < c.toNat := fun c hc => h c (List.mem_reverse.1 hc)
    rw [List.reverse_append, List.dropWhile_append, dropWhile_of_forall hreverse]
    split <;> simp_all
  have hkept : ∀ c ∈ front, (c != '\t' && c != '\n' && c != '\r') = true := by
    intro c hc
    have hvisible : ∀ d : Char, d.toNat ≤ 0x20 → c ≠ d := by
      rintro d hd rfl
      exact absurd (h c hc) (Nat.not_lt.2 hd)
    simp [hvisible '\t' (by decide), hvisible '\n' (by decide), hvisible '\r' (by decide)]
  rw [clean, Text.strip, hstart, hend, List.reverse_append, List.reverse_reverse,
    List.filter_append, List.filter_eq_self.2 hkept, cleanBack]

theorem clean_of_forall {cs : List Char} (h : ∀ c ∈ cs, 0x20 < c.toNat) : clean cs = cs := by
  cases cs with
  | nil => rfl
  | cons c cs => simpa [cleanBack] using clean_append h (List.cons_ne_nil c cs) []

/-- A path keeps its slash, or stays empty. -/
theorem clean_append_path {front path : List Char} (h : ∀ c ∈ front, 0x20 < c.toNat)
    (hpath : ∀ c ∈ path.head?, c = '/') :
    ∃ rest, clean (front ++ path) = front ++ rest ∧ ∀ c ∈ rest.head?, c = '/' := by
  cases path with
  | nil => exact ⟨[], by rw [List.append_nil, clean_of_forall h], nofun⟩
  | cons c path =>
    obtain rfl : c = '/' := hpath c rfl
    have hslash : ∀ c ∈ front ++ ['/'], 0x20 < c.toNat := by
      simp only [List.forall_mem_append, List.forall_mem_singleton]
      exact ⟨h, by decide⟩
    refine ⟨'/' :: cleanBack path, ?_, by simp⟩
    rw [List.append_cons, clean_append hslash (by simp), List.append_assoc, List.singleton_append]

/-! ## Scheme -/

theorem isAlpha_of_isAlpha_toLower {c : Char} (h : c.toLower.isAlpha = true) : c.isAlpha = true := by
  by_cases hupper : c.isUpper = true
  · exact Bool.or_eq_true_iff.2 (.inl hupper)
  · have hsame : c.toLower = c := dif_neg fun hrange => hupper (decide_eq_true hrange)
    rwa [hsame] at h

theorem scheme?_append {scheme rest : List Char} (hfirst : (scheme.head?.map Char.isAlpha).getD false)
    (h : ∀ c ∈ scheme, isSchemeChar c = true) :
    scheme? (scheme ++ ':' :: rest) = some (scheme.map Char.toLower, rest) := by
  have hcut : Text.cut isSchemeChar (scheme ++ ':' :: rest) = (scheme, ':' :: rest) :=
    Text.cut_append_cons h (by decide)
  have halpha : ((scheme ++ ':' :: rest).head?.map Char.isAlpha).getD false = true := by
    cases scheme with
    | nil => cases hfirst
    | cons c scheme => exact hfirst
  rw [scheme?, if_pos halpha, hcut]
  rfl

theorem eq_append_of_scheme? {cs scheme rest : List Char} (h : scheme? cs = some (scheme, rest)) :
    ∃ spelling, cs = spelling ++ ':' :: rest ∧ spelling.map Char.toLower = scheme := by
  unfold scheme? at h
  split at h
  · split at h
    · next spelling rest' hcut =>
      cases h
      have happend := Text.fst_append_snd_cut isSchemeChar cs
      rw [hcut] at happend
      exact ⟨spelling, happend.symm, rfl⟩
    · cases h
  · cases h

/-! ## Authority -/

section

variable {web : Bool} {host rest : List Char}

theorem cut_authority {authority : List Char} (h : ∀ c ∈ authority, endsAuthority web c = false)
    (hrest : rest.head?.all (endsAuthority web)) :
    Text.cut (!endsAuthority web ·) (authority ++ rest) = (authority, rest) := by
  have hkept : ∀ c ∈ authority, (!endsAuthority web c) = true := fun c hc => by rw [h c hc]; rfl
  cases rest with
  | nil => rw [List.append_nil, Text.cut_of_forall hkept]
  | cons c rest =>
    have hc : (!endsAuthority web c) = false := by rw [show endsAuthority web c = true from hrest]; rfl
    exact Text.cut_append_cons hkept hc

/-- In web addresses, a backslash ends an authority as well. -/
theorem endsAuthority_true (c : Char) : endsAuthority true c = (endsAuthority false c || c == '\\') := by
  simp [endsAuthority]

/-- Credentials are nothing, or a text of the authority that an at sign closes. -/
def IsCredentials (web : Bool) (credentials : List Char) : Prop :=
  credentials = [] ∨
    ∃ user, credentials = user ++ ['@'] ∧ ∀ c ∈ user, endsAuthority web c = false

theorem IsCredentials.not_endsAuthority {credentials : List Char} (h : IsCredentials web credentials) :
    ∀ c ∈ credentials, endsAuthority web c = false := by
  rcases h with rfl | ⟨user, rfl, huser⟩
  · nofun
  · simp only [List.forall_mem_append, List.forall_mem_singleton]
    exact ⟨huser, by cases web <;> rfl⟩

/-- What the last at sign of an authority stands behind is skipped. -/
theorem skipCredentials_credentials {credentials authority : List Char}
    (hcredentials : IsCredentials web credentials)
    (h : ∀ c ∈ authority, endsAuthority web c = false ∧ c ≠ '@')
    (hrest : rest.head?.all (endsAuthority web)) :
    skipCredentials web (credentials ++ (authority ++ rest)) = authority ++ rest := by
  have hends : ∀ c ∈ credentials ++ authority, endsAuthority web c = false :=
    List.forall_mem_append.2 ⟨hcredentials.not_endsAuthority, fun c hc => (h c hc).1⟩
  have hauthority : ∀ c ∈ authority.reverse, (c != '@') = true := by
    intro c hc
    simpa using (h c (List.mem_reverse.1 hc)).2
  have hkept : (credentials ++ authority).reverse.takeWhile (· != '@') = authority.reverse := by
    rw [List.reverse_append, List.takeWhile_append_of_pos hauthority]
    rcases hcredentials with rfl | ⟨user, rfl, -⟩ <;> simp
  rw [skipCredentials, ← List.append_assoc, cut_authority hends hrest]
  simp only [hkept, List.reverse_reverse]

/-- An authority without an at sign has no credentials. -/
theorem skipCredentials_append {authority : List Char}
    (h : ∀ c ∈ authority, endsAuthority web c = false ∧ c ≠ '@')
    (hrest : rest.head?.all (endsAuthority web)) :
    skipCredentials web (authority ++ rest) = authority ++ rest :=
  skipCredentials_credentials (.inl rfl) h hrest

/-- What stands before the last at sign, and behind it. -/
theorem exists_append_lastAt (cs : List Char) :
    ∃ front, cs = front ++ (cs.reverse.takeWhile (· != '@')).reverse ∧
      (front = [] ∨ ∃ user, front = user ++ ['@']) := by
  refine ⟨(cs.reverse.dropWhile (· != '@')).reverse, ?_, ?_⟩
  · rw [← List.reverse_append, List.takeWhile_append_dropWhile, List.reverse_reverse]
  · cases hdrop : cs.reverse.dropWhile (· != '@') with
    | nil => exact .inl rfl
    | cons c user =>
      have hhead := List.head?_dropWhile_not (· != '@') cs.reverse
      rw [hdrop] at hhead
      have hc : c = '@' := by simpa using hhead
      exact .inr ⟨user.reverse, by rw [hc, List.reverse_cons]⟩

/-- Every text is some credentials, the rest of an authority, and what ends it. -/
theorem exists_skipCredentials (web : Bool) (cs : List Char) :
    ∃ credentials authority rest, cs = credentials ++ (authority ++ rest) ∧
      skipCredentials web cs = authority ++ rest ∧ IsCredentials web credentials ∧
      (∀ c ∈ authority, endsAuthority web c = false ∧ c ≠ '@') ∧
      rest.head?.all (endsAuthority web) := by
  let parts := Text.cut (!endsAuthority web ·) cs
  have hcs : parts.1 ++ parts.2 = cs := Text.fst_append_snd_cut _ cs
  have hends : ∀ c ∈ parts.1, endsAuthority web c = false :=
    fun c hc => by simpa using Text.of_mem_fst_cut hc
  have hrest : parts.2.head?.all (endsAuthority web) := by
    rw [Option.all_eq_true]
    intro c hc
    simpa using Text.head?_snd_cut hc
  obtain ⟨credentials, happend, hcredentials⟩ := exists_append_lastAt parts.1
  rw [happend, List.forall_mem_append] at hends
  refine ⟨credentials, (parts.1.reverse.takeWhile (· != '@')).reverse, parts.2, ?_, rfl, ?_, ?_,
    hrest⟩
  · rw [← List.append_assoc, ← happend, hcs]
  · refine hcredentials.imp_right ?_
    rintro ⟨user, rfl⟩
    exact ⟨user, rfl, fun c hc => hends.1 c (List.mem_append_left _ hc)⟩
  · intro c hc
    refine ⟨hends.2 c hc, ?_⟩
    simpa using List.mem_takeWhile_imp (List.mem_reverse.1 hc)

theorem spanHost_of_head? (h : ∀ c ∈ rest.head?, c = ':' ∨ endsAuthority web c = true) :
    spanHost web false rest = ([], rest) := by
  cases rest with
  | nil => rfl
  | cons c rest =>
    have hc : c = ':' ∨ endsAuthority web c = true := h c rfl
    simp [spanHost, hc]

/-- A host ends where a colon, the authority or the text does. -/
theorem spanHost_append (hhost : ∀ c ∈ host, endsAuthority web c = false ∧ c ≠ ':' ∧ c ≠ '[')
    (hrest : ∀ c ∈ rest.head?, c = ':' ∨ endsAuthority web c = true) :
    spanHost web false (host ++ rest) = (host, rest) := by
  induction host with
  | nil => exact spanHost_of_head? hrest
  | cons c host ih =>
    rw [List.forall_mem_cons] at hhost
    obtain ⟨⟨hends, hcolon, hbracket⟩, hhost⟩ := hhost
    simp [spanHost, hends, hcolon, hbracket, ih hhost]

/-- Between brackets, a colon does not end the host. -/
theorem spanHost_inside (hhost : ∀ c ∈ host, endsAuthority web c = false ∧ c ≠ ']')
    (hrest : ∀ c ∈ rest.head?, c = ':' ∨ endsAuthority web c = true) :
    spanHost web true (host ++ ']' :: rest) = (host ++ [']'], rest) := by
  induction host with
  | nil =>
    have hends : endsAuthority web ']' = false := by cases web <;> rfl
    simp [spanHost, hends, spanHost_of_head? hrest]
  | cons c host ih =>
    rw [List.forall_mem_cons] at hhost
    obtain ⟨⟨hends, hbracket⟩, hhost⟩ := hhost
    simp [spanHost, hends, hbracket, ih hhost]

theorem spanHost_bracketed (hhost : ∀ c ∈ host, endsAuthority web c = false ∧ c ≠ ']')
    (hrest : ∀ c ∈ rest.head?, c = ':' ∨ endsAuthority web c = true) :
    spanHost web false ('[' :: host ++ ']' :: rest) = ('[' :: host ++ [']'], rest) := by
  have hends : endsAuthority web '[' = false := by cases web <;> rfl
  simp [spanHost, hends, spanHost_inside hhost hrest]

theorem append_of_spanHost (web bracketed : Bool) (cs : List Char) :
    (spanHost web bracketed cs).1 ++ (spanHost web bracketed cs).2 = cs := by
  induction cs generalizing bracketed with
  | nil => rfl
  | cons c cs ih =>
    rw [spanHost]
    split
    · rfl
    · simp [ih]

theorem head?_spanHost (web bracketed : Bool) (cs : List Char) :
    ∀ c ∈ (spanHost web bracketed cs).2.head?, c = ':' ∨ endsAuthority web c = true := by
  induction cs generalizing bracketed with
  | nil => nofun
  | cons c cs ih =>
    rw [spanHost]
    split
    · next hends =>
      rintro d ⟨⟩
      exact hends.imp_left And.left
    · exact ih _

end

/-! ## Port -/

theorem isDigit_of_endsAuthority {c : Char} (h : endsAuthority true c = true) : c.isDigit = false := by
  simp only [endsAuthority, Bool.or_eq_true, beq_iff_eq, Bool.true_and] at h
  rcases h with ((rfl | rfl) | rfl) | rfl <;> rfl

/-- A port is read with any leading zeros, up to where the authority ends. -/
theorem port?_append {digits rest : List Char} {n : Nat}
    (h : Text.readBelow? UInt16.size digits = some n) (hrest : rest.head?.all (endsAuthority true)) :
    port? (':' :: (digits ++ rest)) = some (some n, rest) := by
  obtain ⟨hne, hdigits⟩ := Text.isDigit_of_readDigits? (Text.readDigits?_of_readBelow? h)
  have hcut : Text.cut Char.isDigit (digits ++ rest) = (digits, rest) := by
    cases rest with
    | nil => rw [List.append_nil, Text.cut_of_forall hdigits]
    | cons c rest => exact Text.cut_append_cons hdigits (isDigit_of_endsAuthority hrest)
  simp [port?, hcut, hrest, hne, h]

/-- How a port is spelled, with its colon; a colon alone says none. -/
inductive SpellsPort : List Char → Option Nat → Prop where
  | absent : SpellsPort [] none
  | colon : SpellsPort [':'] none
  | number {digits : List Char} {n : Nat} (h : Text.readBelow? UInt16.size digits = some n) :
    SpellsPort (':' :: digits) (some n)

namespace SpellsPort

variable {web : Bool} {spelling rest : List Char} {port : Option Nat}

theorem lt (h : SpellsPort spelling port) : ∀ n ∈ port, n < UInt16.size := by
  cases h with
  | absent | colon => nofun
  | number h =>
    rintro n ⟨⟩
    exact Text.lt_of_readBelow? h

theorem not_endsAuthority (h : SpellsPort spelling port) (web : Bool) :
    ∀ c ∈ spelling, endsAuthority web c = false ∧ c ≠ '@' := by
  have hcolon : Uri.endsAuthority web ':' = false := by cases web <;> rfl
  cases h with
  | absent => nofun
  | colon => exact List.forall_mem_singleton.2 ⟨hcolon, by decide⟩
  | @number digits n h =>
    have hdigits := (Text.isDigit_of_readDigits? (Text.readDigits?_of_readBelow? h)).2
    refine List.forall_mem_cons.2 ⟨⟨hcolon, by decide⟩, fun c hc => ?_⟩
    exact Text.of_isDigit (P := fun c => Uri.endsAuthority web c = false ∧ c ≠ '@')
      (by cases web <;> decide) (hdigits c hc)

theorem head?_append (h : SpellsPort spelling port)
    (hrest : spelling = [] → rest.head?.all (Uri.endsAuthority web)) :
    ∀ c ∈ (spelling ++ rest).head?, c = ':' ∨ Uri.endsAuthority web c = true := by
  cases h with
  | absent =>
    intro c hc
    exact .inr ((Option.all_eq_true _ _).1 (hrest rfl) c hc)
  | colon | number =>
    rintro c ⟨⟩
    exact .inl rfl

theorem port?_append (h : SpellsPort spelling port) (hrest : rest.head?.all (endsAuthority true)) :
    port? (spelling ++ rest) = some (port, rest) := by
  cases h with
  | absent =>
    cases rest with
    | nil => rfl
    | cons c rest =>
      have hcolon : c ≠ ':' := by
        rintro rfl
        cases hrest
      simp [port?, hcolon]
  | colon =>
    have hcut : Text.cut Char.isDigit rest = ([], rest) := by
      cases rest with
      | nil => rfl
      | cons c rest =>
        have hc : c.isDigit = false := isDigit_of_endsAuthority hrest
        simp [Text.cut, hc]
    simp [port?, hcut, hrest]
  | number h => exact Uri.port?_append h hrest

end SpellsPort

/-- What is read as a port has one of the spellings, which is left out only where no colon begins
it. -/
theorem exists_spellsPort {cs rest : List Char} {port : Option Nat}
    (h : port? cs = some (port, rest)) :
    ∃ spelling, cs = spelling ++ rest ∧ SpellsPort spelling port ∧
      (spelling ≠ [] → rest.head?.all (endsAuthority true)) ∧
      (spelling = [] → ∀ c ∈ rest.head?, c ≠ ':') := by
  unfold port? at h
  split at h
  · next cs =>
    have happend := Text.fst_append_snd_cut Char.isDigit cs
    generalize Text.cut Char.isDigit cs = parts at h happend
    obtain ⟨digits, rest'⟩ := parts
    simp only at h happend
    subst happend
    split at h
    · next hends =>
      split at h
      · next hempty =>
        cases h
        rw [List.isEmpty_iff.1 hempty]
        exact ⟨[':'], rfl, .colon, fun _ => hends, nofun⟩
      · obtain ⟨n, hn, hpair⟩ := Option.map_eq_some_iff.1 h
        cases hpair
        exact ⟨':' :: digits, rfl, .number hn, fun _ => hends, nofun⟩
    · cases h
  · next hcolon =>
    cases h
    refine ⟨[], rfl, .absent, fun hne => absurd rfl hne, fun _ c hc => ?_⟩
    rintro rfl
    obtain ⟨digits, hcs⟩ := List.head?_eq_some_iff.1 hc
    exact hcolon digits hcs

end ZonePool.Net.Uri
