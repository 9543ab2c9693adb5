-- SUMMARY: The files and environments that settings load from, and the settings that they give.
import Mathlib.Data.List.Forall2
import ZonePool.Proofs.Pool.Interval
import ZonePool.Proofs.Text.Blank
import ZonePool.Proofs.Text.Decimal

/-!
# Loading settings

What a file says, what the environment makes of it and which settings are valid
are three relations, none of which runs the loader. Settings load exactly when
they come out of the three in this order. Since nothing looks at what is
overridden, it may be as invalid as it likes; and since the environment only
ever gives addresses that say something, it is never to blame for an empty one.
-/

namespace ZonePool

open Text (isBlank Trims trims_iff)

/-! ## The interval in the environment -/

/-- The variable is set to a number of 64 bits, maybe with blanks around it. -/
def CheckInterval.Sets (env : Environment) (n : Nat) : Prop :=
  ∃ value text, env.get? variableName = some value ∧ Trims value.toList text ∧
    Text.SpellsWord text n

theorem CheckInterval.ofEnvironment?_eq_some_iff {env : Environment} {n : Nat} :
    ofEnvironment? env = some n ↔ Sets env n := by
  simp only [ofEnvironment?, Sets, Option.bind_eq_some_iff, trims_iff, String.ofList_toList]
  constructor
  · rintro ⟨value, hset, hword⟩
    exact ⟨value, _, hset, rfl, Text.readWord?_eq_some_iff.1 hword⟩
  · rintro ⟨value, _, hset, rfl, hword⟩
    exact ⟨value, hset, Text.readWord?_eq_some_iff.2 hword⟩

/-! ## Files -/

namespace ConfigFile

/-- The name of a file ends in a dot and the extension, and has more before them. -/
def EndsIn (path extension : String) : Prop :=
  ∃ folder stem, path.toList = folder ++ stem ++ '.' :: extension.toList ∧ stem ≠ [] ∧
    '/' ∉ stem ∧ ∀ c ∈ folder.getLast?, c = '/'

theorem exists_fileName (path : List Char) :
    ∃ folder, path = folder ++ fileName path ∧ '/' ∉ fileName path ∧
      ∀ c ∈ folder.getLast?, c = '/' := by
  have hcut := Text.fst_append_snd_cut (· != '/') path.reverse
  refine ⟨(Text.cut (· != '/') path.reverse).2.reverse, ?path, ?name, ?folder⟩
  case path =>
    have hreverse := congrArg List.reverse hcut
    rw [List.reverse_append, List.reverse_reverse] at hreverse
    exact hreverse.symm
  case name =>
    intro hmem
    have hclass := Text.of_mem_fst_cut (p := (· != '/')) (List.mem_reverse.1 hmem)
    simp at hclass
  case folder =>
    intro c hc
    rw [List.getLast?_reverse] at hc
    simpa using Text.head?_snd_cut hc

theorem fileName_append {folder name : List Char} (hname : '/' ∉ name)
    (hfolder : ∀ c ∈ folder.getLast?, c = '/') : fileName (folder ++ name) = name := by
  have hclass : ∀ c ∈ name.reverse, (c != '/') = true := by
    intro c hc
    rw [bne_iff_ne]
    rintro rfl
    exact hname (List.mem_reverse.1 hc)
  have hstop : folder.reverse.takeWhile (· != '/') = [] := by
    rw [← List.head?_reverse] at hfolder
    cases hrev : folder.reverse with
    | nil => rfl
    | cons c cs =>
      obtain rfl : c = '/' := hfolder c (by rw [hrev]; rfl)
      rfl
  rw [fileName, List.reverse_append, List.takeWhile_append_of_pos hclass, hstop, List.append_nil,
    List.reverse_reverse]

theorem extension?_eq_some_iff {path extension : String} (hne : extension ≠ "")
    (hdot : '.' ∉ extension.toList) (hslash : '/' ∉ extension.toList) :
    extension? path = some extension ↔ EndsIn path extension := by
  constructor
  · intro h
    obtain ⟨folder, hpath, hname, hfolder⟩ := exists_fileName path.toList
    have hcut := Text.fst_append_snd_cut (· != '.') (fileName path.toList).reverse
    simp only [extension?] at h
    split at h
    · cases h
    next ending dot stem hsplit =>
    rw [hsplit] at hcut
    split at h
    · cases h
    next hproper =>
    obtain rfl : dot = '.' := by
      simpa using Text.head?_snd_cut (p := (· != '.')) (by rw [hsplit]; rfl)
    obtain rfl := Option.some.inj h
    have hfile : fileName path.toList = stem.reverse ++ '.' :: ending.reverse := by
      simpa using (congrArg List.reverse hcut).symm
    rw [hfile] at hpath hname
    refine ⟨folder, stem.reverse, ?_, ?_, ?_, hfolder⟩
    · rw [hpath, String.toList_ofList, List.append_assoc]
    · rintro hempty
      exact hproper (.inl (by simpa using hempty))
    · exact fun hmem => hname (List.mem_append_left _ hmem)
  · rintro ⟨folder, stem, hpath, hstem, hstemslash, hfolder⟩
    have hname : fileName path.toList = stem ++ '.' :: extension.toList := by
      rw [hpath, List.append_assoc]
      exact fileName_append (by simp [hstemslash, hslash]) hfolder
    have hclass : ∀ c ∈ extension.toList.reverse, (c != '.') = true := by
      intro c hc
      rw [bne_iff_ne]
      rintro rfl
      exact hdot (List.mem_reverse.1 hc)
    have hcut : Text.cut (· != '.') (stem ++ '.' :: extension.toList).reverse =
        (extension.toList.reverse, '.' :: stem.reverse) := by
      rw [List.reverse_append, List.reverse_cons, List.append_assoc]
      exact Text.cut_append_cons hclass rfl
    have hproper :
        ¬(stem.reverse.isEmpty = true ∨ stem ++ '.' :: extension.toList = ['.', '.']) := by
      rintro (hempty | hdots)
      · exact hstem (by simpa using hempty)
      · have hlength := congrArg List.length hdots
        have hstemlength := List.length_pos_iff.2 hstem
        have hextension : 0 < extension.toList.length :=
          List.length_pos_iff.2 (mt String.toList_eq_nil_iff.1 hne)
        simp only [List.length_append, List.length_cons, List.length_nil] at hlength
        omega
    simp only [extension?, hname, hcut]
    rw [if_neg hproper, List.reverse_reverse, String.ofList_toList]

end ConfigFile

namespace Config

/-- The file says these settings: there is none and they are the defaults, or it is a text in one of
the two formats and decodes to them. -/
inductive Holds : ConfigFile → Config → Prop
  | absent (path : String) : Holds ⟨path, .absent⟩ {}
  | toml {path text : String} {d : Document} {c : Config} (hpath : ConfigFile.EndsIn path "toml")
      (hread : Toml.read? text.toList = some d) (hdecode : ofDocument? .ignored d = some c) :
      Holds ⟨path, .bytes (Text.octets text)⟩ c
  | json {path text : String} {d : Document} {c : Config} (hpath : ConfigFile.EndsIn path "json")
      (hread : Json.read? text.toList = some d) (hdecode : ofDocument? .refused d = some c) :
      Holds ⟨path, .bytes (Text.octets text)⟩ c

theorem parse_eq_ok_iff {path : String} {text : List Char} {c : Config} :
    parse (ConfigFile.extension? path) text = .ok c ↔
      (ConfigFile.EndsIn path "toml" ∧ (Toml.read? text).bind (ofDocument? .ignored) = some c) ∨
      ConfigFile.EndsIn path "json" ∧ (Json.read? text).bind (ofDocument? .refused) = some c := by
  rw [← ConfigFile.extension?_eq_some_iff (by decide) (by decide) (by decide),
    ← ConfigFile.extension?_eq_some_iff (by decide) (by decide) (by decide)]
  unfold parse
  grind

theorem ofFile_eq_ok_iff {file : ConfigFile} {c : Config} : ofFile file = .ok c ↔ Holds file c := by
  constructor
  · intro h
    obtain ⟨path, content⟩ := file
    unfold ofFile at h
    split at h
    · next habsent =>
      obtain rfl := Except.ok.inj h
      obtain rfl : content = .absent := habsent
      exact .absent path
    · cases h
    · next bytes hbytes =>
      obtain rfl : content = .bytes bytes := hbytes
      split at h
      · cases h
      · next text htext =>
        rw [Text.decodeUtf8?_eq_some_iff] at htext
        simp only [parse_eq_ok_iff, Option.bind_eq_some_iff] at h
        rw [← String.toList_ofList (l := text)] at h
        rw [htext]
        rcases h with ⟨hpath, d, hread, hdecode⟩ | ⟨hpath, d, hread, hdecode⟩
        · exact .toml hpath hread hdecode
        · exact .json hpath hread hdecode
  · rintro (path | ⟨hpath, hread, hdecode⟩ | ⟨hpath, hread, hdecode⟩)
    · rfl
    · simp only [ofFile, Text.decodeUtf8?_octets, parse_eq_ok_iff, hread, Option.bind_some]
      exact .inl ⟨hpath, hdecode⟩
    · simp only [ofFile, Text.decodeUtf8?_octets, parse_eq_ok_iff, hread, Option.bind_some]
      exact .inr ⟨hpath, hdecode⟩

/-! ## Overrides -/

/-- The addresses are the items between the commas of a value, without those that are blank, and
trimmed. -/
def Itemizes (value : String) (addresses : List String) : Prop :=
  ∃ items, items ≠ [] ∧ (∀ item ∈ items, ',' ∉ item) ∧ value.toList = [','].intercalate items ∧
    List.Forall₂ Trims (items.filter fun item => item.any fun c => !isBlank c) addresses

theorem not_mem_of_mem_splitOn {sep : Char} {cs item : List Char} (h : item ∈ cs.splitOn sep) :
    sep ∉ item := by
  induction cs generalizing item with
  | nil => simp_all
  | cons c cs ih =>
    obtain ⟨first, items, hitems⟩ := List.exists_cons_of_ne_nil (List.splitOn_ne_nil sep cs)
    rw [hitems, List.forall_mem_cons] at ih
    rw [List.splitOn_cons_eq_if_modifyHead, hitems] at h
    split at h
    · rcases List.mem_cons.1 h with rfl | h
      · exact List.not_mem_nil
      · exact (List.mem_cons.1 h).elim (fun h => h ▸ ih.1) (ih.2 item)
    · next hc =>
      rcases List.mem_cons.1 h with rfl | h
      · rw [List.mem_cons, not_or]
        exact ⟨fun hsep => hc (by simp [hsep]), ih.1⟩
      · exact ih.2 item h

theorem forall₂_trims_iff {items : List (List Char)} {texts : List String} :
    List.Forall₂ Trims items texts ↔
      texts = items.map fun item => Text.trim (String.ofList item) := by
  induction items generalizing texts with
  | nil => simp
  | cons item items ih => cases texts <;> simp [ih, trims_iff]

theorem itemizes_iff {value : String} {addresses : List String} :
    Itemizes value addresses ↔ addresses = splitAddresses value := by
  have hfilter (items : List (List Char)) :
      List.Forall₂ Trims (items.filter fun item => item.any fun c => !isBlank c) addresses ↔
        addresses = (items.map fun item => Text.trim (String.ofList item)).filter
          fun item => !item.isEmpty := by
    have hblank (item : List Char) :
        (!(Text.trim (String.ofList item)).isEmpty) = item.any fun c => !isBlank c := by
      rw [Text.isEmpty_trim, Text.isBlankText, String.toList_ofList, List.not_all_eq_any_not]
    rw [forall₂_trims_iff, List.filter_map]
    simp only [Function.comp_def, hblank]
  constructor
  · rintro ⟨items, hne, hcomma, hvalue, htrims⟩
    rw [splitAddresses, hvalue, List.splitOn_intercalate ',' hcomma hne]
    exact (hfilter items).1 htrims
  · rintro rfl
    exact ⟨value.toList.splitOn ',', List.splitOn_ne_nil _ _, fun item => not_mem_of_mem_splitOn,
      (List.intercalate_splitOn ',').symm, (hfilter _).2 rfl⟩

/-- No address that the environment gives is blank. -/
theorem Itemizes.exists_nonblank {value : String} {addresses : List String}
    (h : Itemizes value addresses) :
    ∀ address ∈ addresses, ∃ ch ∈ address.toList, isBlank ch = false := by
  obtain ⟨items, -, -, -, htrims⟩ := h
  obtain rfl := forall₂_trims_iff.1 htrims
  intro address haddress
  obtain ⟨item, hitem, rfl⟩ := List.mem_map.1 haddress
  obtain ⟨ch, hch, hnonblank⟩ := List.any_eq_true.1 (List.mem_filter.1 hitem).2
  exact (trims_iff.2 rfl).exists_nonblank ⟨ch, hch, by simpa using hnonblank⟩

/-- The settings are those of a base where the environment says nothing of them, and what it says
elsewhere. -/
structure Overrides (env : Environment) (base c : Config) : Prop where
  addresses : ∀ value, env.get? "ADDRPOOL_ADDRESSES" = some value → Itemizes value c.addresses
  addresses_kept : env.get? "ADDRPOOL_ADDRESSES" = none → c.addresses = base.addresses
  diffAz : c.diffAz = base.diffAz
  healthCheckSecs : ∀ n, CheckInterval.Sets env n → c.healthCheckSecs = n
  healthCheckSecs_kept : (∀ n, ¬CheckInterval.Sets env n) → c.healthCheckSecs = base.healthCheckSecs
  probeConcurrency : c.probeConcurrency = base.probeConcurrency
  httpProbe : c.httpProbe = base.httpProbe
  directory : ∀ url, env.get? "ADDRPOOL_DIRECTORY_URL" = some url →
    (∀ d ∈ base.directory, c.directory = some ⟨url, d.pollSecs, d.timeoutSecs⟩) ∧
    (base.directory = none → c.directory = some ⟨url, 30, 10⟩)
  directory_kept : env.get? "ADDRPOOL_DIRECTORY_URL" = none → c.directory = base.directory
  adminListen : ∀ address, env.get? "ADDRPOOL_ADMIN_LISTEN" = some address → c.adminListen = address
  adminListen_kept : env.get? "ADDRPOOL_ADMIN_LISTEN" = none → c.adminListen = base.adminListen

section

variable (env : Environment) (c : Config)

theorem overrideAddresses_eq : overrideAddresses env c =
    { c with
      addresses := ((env.get? "ADDRPOOL_ADDRESSES").map splitAddresses).getD c.addresses } := by
  rw [overrideAddresses]
  cases env.get? "ADDRPOOL_ADDRESSES" <;> rfl

theorem overrideInterval_eq : overrideInterval env c =
    { c with
      healthCheckSecs := (CheckInterval.ofEnvironment? env).getD c.healthCheckSecs } := by
  rw [overrideInterval, ← CheckInterval.ofEnvironment?]
  cases CheckInterval.ofEnvironment? env <;> rfl

theorem overrideDirectory_eq : overrideDirectory env c =
    { c with
      directory :=
        ((env.get? "ADDRPOOL_DIRECTORY_URL").map fun url =>
          { c.directory.getD { url } with url }).or c.directory } := by
  rw [overrideDirectory]
  cases env.get? "ADDRPOOL_DIRECTORY_URL" with
  | none => rfl
  | some url => cases hdirectory : c.directory <;> rfl

theorem overrideAdmin_eq : overrideAdmin env c =
    { c with adminListen := (env.get? "ADDRPOOL_ADMIN_LISTEN").getD c.adminListen } := by
  rw [overrideAdmin]
  cases env.get? "ADDRPOOL_ADMIN_LISTEN" <;> rfl

theorem override_eq : c.override env = {
    addresses := ((env.get? "ADDRPOOL_ADDRESSES").map splitAddresses).getD c.addresses
    diffAz := c.diffAz
    healthCheckSecs := (CheckInterval.ofEnvironment? env).getD c.healthCheckSecs
    probeConcurrency := c.probeConcurrency
    httpProbe := c.httpProbe
    directory :=
      ((env.get? "ADDRPOOL_DIRECTORY_URL").map fun url =>
        { c.directory.getD { url } with url }).or c.directory
    adminListen := (env.get? "ADDRPOOL_ADMIN_LISTEN").getD c.adminListen } := by
  rw [override, overrideAdmin_eq, overrideDirectory_eq, overrideInterval_eq, overrideAddresses_eq]

end

theorem overrides_override (env : Environment) (base : Config) :
    Overrides env base (base.override env) := by
  rw [override_eq]
  refine {
    addresses := fun value hset => ?addresses
    addresses_kept := fun hunset => ?addressesKept
    diffAz := rfl
    healthCheckSecs := fun n hsets => ?interval
    healthCheckSecs_kept := fun hnone => ?intervalKept
    probeConcurrency := rfl
    httpProbe := rfl
    directory := fun url hset => ⟨fun d hd => ?url, fun hnone => ?created⟩
    directory_kept := fun hunset => ?directoryKept
    adminListen := fun address hset => ?admin
    adminListen_kept := fun hunset => ?adminKept }
  case addresses => simp [hset, itemizes_iff]
  case addressesKept => simp [hunset]
  case interval => simp [CheckInterval.ofEnvironment?_eq_some_iff.2 hsets]
  case intervalKept =>
    have hunset : CheckInterval.ofEnvironment? env = none := by
      rw [Option.eq_none_iff_forall_ne_some]
      exact fun n hn => hnone n (CheckInterval.ofEnvironment?_eq_some_iff.1 hn)
    simp [hunset]
  case url => simp [hset, Option.mem_def.1 hd]
  case created => simp [hset, hnone]
  case directoryKept => simp [hunset]
  case admin => simp [hset]
  case adminKept => simp [hunset]

theorem Overrides.unique {env : Environment} {base c c' : Config} (h : Overrides env base c)
    (h' : Overrides env base c') : c = c' := by
  refine Config.ext ?addresses ?diffAz ?secs ?concurrency ?probe ?directory ?admin
  case addresses =>
    cases hset : env.get? "ADDRPOOL_ADDRESSES" with
    | none => exact (h.addresses_kept hset).trans (h'.addresses_kept hset).symm
    | some value =>
      exact (itemizes_iff.1 (h.addresses value hset)).trans
        (itemizes_iff.1 (h'.addresses value hset)).symm
  case diffAz => exact h.diffAz.trans h'.diffAz.symm
  case secs =>
    by_cases hset : ∃ n, CheckInterval.Sets env n
    · obtain ⟨n, hn⟩ := hset
      exact (h.healthCheckSecs n hn).trans (h'.healthCheckSecs n hn).symm
    · rw [not_exists] at hset
      exact (h.healthCheckSecs_kept hset).trans (h'.healthCheckSecs_kept hset).symm
  case concurrency => exact h.probeConcurrency.trans h'.probeConcurrency.symm
  case probe => exact h.httpProbe.trans h'.httpProbe.symm
  case directory =>
    cases hset : env.get? "ADDRPOOL_DIRECTORY_URL" with
    | none => exact (h.directory_kept hset).trans (h'.directory_kept hset).symm
    | some url =>
      cases hbase : base.directory with
      | none => exact ((h.directory url hset).2 hbase).trans ((h'.directory url hset).2 hbase).symm
      | some d =>
        exact ((h.directory url hset).1 d hbase).trans ((h'.directory url hset).1 d hbase).symm
  case admin =>
    cases hset : env.get? "ADDRPOOL_ADMIN_LISTEN" with
    | none => exact (h.adminListen_kept hset).trans (h'.adminListen_kept hset).symm
    | some address => exact (h.adminListen _ hset).trans (h'.adminListen _ hset).symm

theorem overrides_iff {env : Environment} {base c : Config} :
    Overrides env base c ↔ c = base.override env := by
  refine ⟨fun h => h.unique (overrides_override env base), ?_⟩
  rintro rfl
  exact overrides_override env base

/-! ## Validity -/

/-- Settings that may be used. -/
structure Valid (c : Config) : Prop where
  addresses : ∀ address ∈ c.addresses ++ c.diffAz, ∃ ch ∈ address.toList, isBlank ch = false
  probeConcurrency : 1 ≤ c.probeConcurrency
  directory : ∀ d ∈ c.directory, (∃ ch ∈ d.url.toList, isBlank ch = false) ∧ 1 ≤ d.pollSecs

theorem isBlankText_eq_false_iff {s : String} :
    Text.isBlankText s = false ↔ ∃ ch ∈ s.toList, isBlank ch = false := by
  simp [Text.isBlankText]

theorem fault?_eq_none_iff {c : Config} : c.fault? = none ↔ c.Valid := by
  have haddresses : ¬(c.addresses ++ c.diffAz).any Text.isBlankText = true ↔
      ∀ address ∈ c.addresses ++ c.diffAz, ∃ ch ∈ address.toList, isBlank ch = false := by
    simp only [Bool.not_eq_true, List.any_eq_false, isBlankText_eq_false_iff]
  constructor
  · intro h
    unfold fault? at h
    split at h
    · cases h
    next hnonblank =>
    split at h
    · cases h
    next hconcurrency =>
    refine ⟨haddresses.1 hnonblank, Nat.pos_of_ne_zero hconcurrency, fun d hd => ?_⟩
    rw [Option.mem_def.1 hd] at h
    dsimp only at h
    split at h
    · cases h
    next hurl =>
    split at h
    · cases h
    next hpoll =>
    exact ⟨isBlankText_eq_false_iff.1 (Bool.eq_false_iff.2 hurl), Nat.pos_of_ne_zero hpoll⟩
  · intro h
    rw [fault?, if_neg (haddresses.2 h.addresses), if_neg (Nat.ne_of_gt h.probeConcurrency)]
    cases hd : c.directory with
    | none => rfl
    | some d =>
      obtain ⟨hurl, hpoll⟩ := h.directory d hd
      dsimp only
      rw [if_neg (Bool.eq_false_iff.1 (isBlankText_eq_false_iff.2 hurl)),
        if_neg (Nat.ne_of_gt hpoll)]

/-! ## Loaded settings -/

/-- Two settings differ at most where the environment says something of both. -/
structure AgreeUnder (env : Environment) (base base' : Config) : Prop where
  addresses : env.get? "ADDRPOOL_ADDRESSES" = none → base.addresses = base'.addresses
  diffAz : base.diffAz = base'.diffAz
  healthCheckSecs : (∀ n, ¬CheckInterval.Sets env n) → base.healthCheckSecs = base'.healthCheckSecs
  probeConcurrency : base.probeConcurrency = base'.probeConcurrency
  httpProbe : base.httpProbe = base'.httpProbe
  directory : env.get? "ADDRPOOL_DIRECTORY_URL" = none → base.directory = base'.directory
  pollSecs : (base.directory.map (·.pollSecs)).getD 30 = (base'.directory.map (·.pollSecs)).getD 30
  timeoutSecs :
    (base.directory.map (·.timeoutSecs)).getD 10 = (base'.directory.map (·.timeoutSecs)).getD 10
  adminListen : env.get? "ADDRPOOL_ADMIN_LISTEN" = none → base.adminListen = base'.adminListen

theorem Overrides.of_agreeUnder {env : Environment} {base base' c : Config}
    (h : AgreeUnder env base base') (hc : Overrides env base c) : Overrides env base' c where
  addresses := hc.addresses
  addresses_kept := fun hunset => (hc.addresses_kept hunset).trans (h.addresses hunset)
  diffAz := hc.diffAz.trans h.diffAz
  healthCheckSecs := hc.healthCheckSecs
  healthCheckSecs_kept := fun hnone =>
    (hc.healthCheckSecs_kept hnone).trans (h.healthCheckSecs hnone)
  probeConcurrency := hc.probeConcurrency.trans h.probeConcurrency
  httpProbe := hc.httpProbe.trans h.httpProbe
  directory := fun url hset => by
    obtain ⟨hsome, hnone⟩ := hc.directory url hset
    have hpoll := h.pollSecs
    have htimeout := h.timeoutSecs
    cases hbase : base.directory <;> cases hbase' : base'.directory <;> simp_all
  directory_kept := fun hunset => (hc.directory_kept hunset).trans (h.directory hunset)
  adminListen := hc.adminListen
  adminListen_kept := fun hunset => (hc.adminListen_kept hunset).trans (h.adminListen hunset)

theorem load_eq_ok_iff {file : ConfigFile} {env : Environment} {c : Config} :
    load file env = .ok c ↔ ∃ base, Holds file base ∧ Overrides env base c ∧ c.Valid := by
  constructor
  · intro h
    obtain ⟨base, hbase, hc, hfault⟩ := of_load h
    exact ⟨base, ofFile_eq_ok_iff.1 hbase, overrides_iff.2 hc, fault?_eq_none_iff.1 hfault⟩
  · rintro ⟨base, hholds, hoverrides, hvalid⟩
    obtain rfl := overrides_iff.1 hoverrides
    simp only [load, ofFile_eq_ok_iff.2 hholds, fault?_eq_none_iff.2 hvalid]

theorem load_of_holds {file : ConfigFile} {base : Config} (h : Holds file base)
    (env : Environment) : load file env = match (base.override env).fault? with
      | some fault => .error (.invalid fault)
      | none => .ok (base.override env) := by
  cases hfault : (base.override env).fault? <;> simp only [load, ofFile_eq_ok_iff.2 h, hfault]

theorem fault?_eq_emptyAddress_iff {c : Config} :
    c.fault? = some .emptyAddress ↔
      ∃ address ∈ c.addresses ++ c.diffAz, Text.isBlankText address := by
  rw [← List.any_eq_true, fault?]
  grind

theorem ofFile_ne_invalid (file : ConfigFile) (fault : Fault) :
    ofFile file ≠ .error (.invalid fault) := by
  have hparse (extension : Option String) (text : List Char) :
      parse extension text ≠ .error (.invalid fault) := by
    unfold parse
    grind
  unfold ofFile
  grind

theorem load_eq_invalid_iff {file : ConfigFile} {env : Environment} {fault : Fault} :
    load file env = .error (.invalid fault) ↔
      ∃ base, Holds file base ∧ (base.override env).fault? = some fault := by
  constructor
  · intro h
    cases hfile : ofFile file with
    | error fault' =>
      rw [load, hfile] at h
      obtain rfl := Except.error.inj h
      exact absurd hfile (ofFile_ne_invalid file fault)
    | ok base =>
      have hholds := ofFile_eq_ok_iff.1 hfile
      rw [load_of_holds hholds] at h
      refine ⟨base, hholds, ?_⟩
      split at h
      · next hfault => rwa [← LoadFault.invalid.inj (Except.error.inj h)]
      · cases h
  · rintro ⟨base, hholds, hfault⟩
    rw [load_of_holds hholds, hfault]

/-- An empty address comes from the file, and from its addresses only where they are left alone. -/
theorem load_eq_emptyAddress_iff {file : ConfigFile} {env : Environment} :
    load file env = .error (.invalid .emptyAddress) ↔ ∃ base, Holds file base ∧
      ((∃ address ∈ base.diffAz, Text.isBlankText address) ∨
        env.get? "ADDRPOOL_ADDRESSES" = none ∧
        ∃ address ∈ base.addresses, Text.isBlankText address) := by
  have hblank (base : Config) : (base.override env).fault? = some .emptyAddress ↔
      (∃ address ∈ base.diffAz, Text.isBlankText address) ∨
        env.get? "ADDRPOOL_ADDRESSES" = none ∧
        ∃ address ∈ base.addresses, Text.isBlankText address := by
    have hover := overrides_override env base
    simp only [fault?_eq_emptyAddress_iff, hover.diffAz, List.mem_append, or_and_right, exists_or]
    cases hset : env.get? "ADDRPOOL_ADDRESSES" with
    | none =>
      rw [hover.addresses_kept hset]
      grind
    | some value =>
      have hnonblank : ¬∃ address ∈ (base.override env).addresses, Text.isBlankText address := by
        rintro ⟨address, haddress, hblank⟩
        have hch := Itemizes.exists_nonblank (hover.addresses value hset) address haddress
        simp [isBlankText_eq_false_iff.2 hch] at hblank
      simp only [hnonblank, false_or, reduceCtorEq, false_and, or_false]
  simp only [load_eq_invalid_iff, hblank]

/-- Settings load exactly when a file says them, the environment overrides them and they are valid
then. One file says one thing at most, the environment always makes one thing of it, and what it
overrides makes no difference; it does not make an address empty. -/
theorem load_of_relations :
    (∀ file env c, load file env = .ok c ↔
      ∃ base, Holds file base ∧ Overrides env base c ∧ c.Valid) ∧
    (∀ file base base', Holds file base → Holds file base' → base = base') ∧
    (∀ env base, ∃! c, Overrides env base c) ∧
    (∀ file file' env base base', Holds file base → Holds file' base' → AgreeUnder env base base' →
      load file env = load file' env) ∧
    (∀ file env, load file env = .error (.invalid .emptyAddress) ↔ ∃ base, Holds file base ∧
      ((∃ address ∈ base.diffAz, Text.isBlankText address) ∨
        env.get? "ADDRPOOL_ADDRESSES" = none ∧
        ∃ address ∈ base.addresses, Text.isBlankText address)) := by
  refine ⟨fun _ _ _ => load_eq_ok_iff, ?file, ?overrides, ?agree, fun _ _ =>
    load_eq_emptyAddress_iff⟩
  case file =>
    intro file base base' h h'
    exact Except.ok.inj ((ofFile_eq_ok_iff.2 h).symm.trans (ofFile_eq_ok_iff.2 h'))
  case overrides =>
    intro env base
    exact ⟨base.override env, overrides_override env base, fun _ => overrides_iff.1⟩
  case agree =>
    intro file file' env base base' h h' hagree
    have hoverride : base.override env = base'.override env :=
      overrides_iff.1 (.of_agreeUnder hagree (overrides_override env base))
    rw [load_of_holds h, load_of_holds h', hoverride]

/-- A blank address and a blank URL in a file, both overridden, and what another file would say in
their place; without overrides the first of them is a fault. -/
theorem load_of_relations_of_blanks :
    let text := "addresses = [\" \"]\n[directory]\nurl = \"\"\npoll_interval_secs = 5"
    let text' := "[directory]\nurl = \"http://old\"\npoll_interval_secs = 5"
    let file : ConfigFile := ⟨"conf.d/pool.toml", .bytes (Text.octets text)⟩
    let file' : ConfigFile := ⟨".pool.toml", .bytes (Text.octets text')⟩
    let env : Environment := .ofList [
      ("ADDRPOOL_ADDRESSES", " a:1 ,, \u2003,b:2"),
      (CheckInterval.variableName, "soon"),
      ("ADDRPOOL_DIRECTORY_URL", "http://d")]
    load file env =
      .ok { addresses := ["a:1", "b:2"], directory := some { url := "http://d", pollSecs := 5 } } ∧
    load file env = load file' env ∧
    load file .empty = .error (.invalid .emptyAddress) := by
  intro text text' file file' env
  obtain ⟨hload, -, -, hagree, hempty⟩ := load_of_relations
  let base : Config := { addresses := [" "], directory := some { url := "", pollSecs := 5 } }
  let base' : Config := { directory := some { url := "http://old", pollSecs := 5 } }
  have hholds : Holds file base := by
    have hread : (Toml.read? text.toList).bind (ofDocument? .ignored) = some base := by
      decide +kernel
    obtain ⟨d, hd, hdecode⟩ := Option.bind_eq_some_iff.1 hread
    have hpath : ConfigFile.EndsIn "conf.d/pool.toml" "toml" :=
      ⟨"conf.d/".toList, "pool".toList, by decide, by decide, by decide, by rintro _ ⟨⟩; rfl⟩
    exact .toml hpath hd hdecode
  have hholds' : Holds file' base' := by
    have hread : (Toml.read? text'.toList).bind (ofDocument? .ignored) = some base' := by
      decide +kernel
    obtain ⟨d, hd, hdecode⟩ := Option.bind_eq_some_iff.1 hread
    have hpath : ConfigFile.EndsIn ".pool.toml" "toml" :=
      ⟨[], ".pool".toList, by decide, by decide, by decide, nofun⟩
    exact .toml hpath hd hdecode
  refine ⟨?load, ?agree, ?empty⟩
  case load =>
    refine (hload file env _).2 ⟨base, hholds, overrides_iff.2 (by decide +kernel), ?_⟩
    exact fault?_eq_none_iff.1 (by decide +kernel)
  case agree =>
    refine hagree file file' env base base' hholds hholds' ?_
    exact {
      addresses := fun hunset => absurd hunset (by decide +kernel)
      diffAz := rfl
      healthCheckSecs := fun _ => rfl
      probeConcurrency := rfl
      httpProbe := rfl
      directory := fun hunset => absurd hunset (by decide +kernel)
      pollSecs := rfl
      timeoutSecs := rfl
      adminListen := fun _ => rfl }
  case empty =>
    exact (hempty file .empty).2 ⟨base, hholds, .inr ⟨rfl, " ", by decide, by decide⟩⟩

end Config

end ZonePool
