-- SUMMARY: Settings read back from the JSON text that writes them.
import ZonePool.Config.Load
import ZonePool.Proofs.Instance
import ZonePool.Proofs.Json.Number
import ZonePool.Proofs.Text.Utf8

/-!
# Settings read back

Settings with numbers of 64 bits are read back from the text that writes them,
a section that is absent being written as null. Without overrides a file with
that text loads as the settings in it, unless these are not valid.
-/

namespace ZonePool

open Document (listOrNull?_map nullable?_ofNullable)

/-! ## Records -/

theorem HttpProbe.ofDocument?_toDocument (surplus : Document.Surplus) (p : HttpProbe) :
    ofDocument? surplus p.toDocument = some p := by
  simp [ofDocument?, toDocument, fields, Document.ofMembers, Document.slots?, Document.slot?,
    Document.orElse?, Document.text?]

theorem Document.word?_whole {n : Nat} (h : n < Text.wordLimit) : word? (.whole n) = some n :=
  if_pos h

namespace DirectorySettings

/-- The numbers are words of 64 bits. -/
structure Fits (d : DirectorySettings) : Prop where
  pollSecs : d.pollSecs < Text.wordLimit
  timeoutSecs : d.timeoutSecs < Text.wordLimit

theorem Fits.ofDocument?_toDocument {d : DirectorySettings} (h : d.Fits)
    (surplus : Document.Surplus) : ofDocument? surplus d.toDocument = some d := by
  simp [ofDocument?, toDocument, fields, Document.ofMembers, Document.slots?, Document.slot?,
    Document.orElse?, Document.required?, Document.text?, Document.word?_whole h.pollSecs,
    Document.word?_whole h.timeoutSecs]

end DirectorySettings

namespace Config

/-- The numbers are words of 64 bits. -/
structure Fits (c : Config) : Prop where
  healthCheckSecs : c.healthCheckSecs < Text.wordLimit
  probeConcurrency : c.probeConcurrency < Text.wordLimit
  directory : ∀ d ∈ c.directory, d.Fits

theorem ofDocument?_toDocument {c : Config} (h : c.Fits) (surplus : Document.Surplus) :
    ofDocument? surplus c.toDocument = some c := by
  have htext (s : String) : Document.text? (.text s) = some s := rfl
  have htexts (texts : List String) :
      Document.listOrNull? Document.text? (.ofTexts texts) = some texts :=
    listOrNull?_map htext texts
  have hhttpProbe : Document.nullable? (HttpProbe.ofDocument? surplus)
      (.ofNullable HttpProbe.toDocument c.httpProbe) = some c.httpProbe :=
    nullable?_ofNullable (fun p _ => HttpProbe.ofDocument?_toDocument surplus p) nofun
  have hdirectory : Document.nullable? (DirectorySettings.ofDocument? surplus)
      (.ofNullable DirectorySettings.toDocument c.directory) = some c.directory :=
    nullable?_ofNullable (fun d hd => (h.directory d hd).ofDocument?_toDocument surplus) nofun
  simp [ofDocument?, toDocument, fields, Document.ofMembers, Document.slots?, Document.slot?,
    Document.orElse?, htexts, htext, hhttpProbe, hdirectory, Document.word?_whole h.healthCheckSecs,
    Document.word?_whole h.probeConcurrency]

/-! ## Texts -/

open Json (Integral)

theorem integral_ofMembers {members : List (String × Document)}
    (h : ∀ m ∈ members, Integral m.2) : Integral (.ofMembers members) := by
  refine .record fun m hm => ?_
  obtain ⟨n, hn, rfl⟩ := List.mem_map.1 hm
  exact h n hn

theorem integral_ofTexts (texts : List String) : Integral (.ofTexts texts) := by
  refine .list fun d hd => ?_
  obtain ⟨s, -, rfl⟩ := List.mem_map.1 hd
  exact .text s

theorem integral_ofNullable {α : Type} {build : α → Document} (h : ∀ a, Integral (build a))
    (o : Option α) : Integral (.ofNullable build o) := by
  cases o with
  | none => exact .null
  | some a => exact h a

theorem integral_toDocument (c : Config) : Integral c.toDocument := by
  have hhttpProbe (p : HttpProbe) : Integral p.toDocument :=
    integral_ofMembers (by simp [Integral.text])
  have hdirectory (d : DirectorySettings) : Integral d.toDocument :=
    integral_ofMembers (by simp [Integral.text, Integral.whole])
  exact integral_ofMembers (by
    simp [integral_ofTexts, integral_ofNullable hhttpProbe, integral_ofNullable hdirectory,
      Integral.text, Integral.whole])

/-- The text is one of those that a JSON writer makes of settings, on one line or indented. -/
def Written (c : Config) (text : String) : Prop :=
  text = Json.render c.toDocument ∨ text = Json.pretty c.toDocument

theorem parse_written {c : Config} (h : c.Fits) {text : String} (htext : c.Written text) :
    parse (some "json") text.toList = .ok c := by
  have hread : Json.read? text.toList = some c.toDocument := by
    rcases htext with rfl | rfl
    · exact Json.read?_render c.integral_toDocument
    · exact Json.read?_pretty c.integral_toDocument
  simp [parse, hread, ofDocument?_toDocument h]

/-! ## Files -/

/-- The environment variables that override settings. -/
def variableNames : List String :=
  ["ADDRPOOL_ADDRESSES", CheckInterval.variableName, "ADDRPOOL_DIRECTORY_URL",
    "ADDRPOOL_ADMIN_LISTEN"]

theorem override_of_unset {env : Environment} (h : ∀ name ∈ variableNames, env.get? name = none)
    (c : Config) : c.override env = c := by
  simp only [variableNames, List.forall_mem_cons] at h
  obtain ⟨haddresses, hinterval, hdirectory, hadmin, -⟩ := h
  simp [override, overrideAddresses, overrideInterval, overrideDirectory, overrideAdmin, haddresses,
    hinterval, hdirectory, hadmin]

/-- Settings survive being written and read: decoding gives the same settings, and loading gives
these, or the first thing that is wrong with them. -/
theorem load_written {c : Config} (hfits : c.Fits) {text : String} (htext : c.Written text) :
    parse (some "json") text.toList = .ok c ∧
    ∀ path env, ConfigFile.extension? path = some "json" →
      (∀ name ∈ variableNames, env.get? name = none) →
      load ⟨path, .bytes (Text.octets text)⟩ env =
        match c.fault? with
        | none => .ok c
        | some fault => .error (.invalid fault) := by
  have hparse := parse_written hfits htext
  refine ⟨hparse, fun path env hpath hunset => ?_⟩
  have hfile : ofFile ⟨path, .bytes (Text.octets text)⟩ = .ok c := by
    simp only [ofFile, Text.decodeUtf8?_octets, hpath, hparse]
  simp only [load, hfile, override_of_unset hunset]
  cases c.fault? <;> rfl

/-- The greatest numbers, and strings that need escapes, with both sections; and settings that are
not valid. -/
theorem load_written_of_extremes :
    let c : Config := {
      addresses := ["10.0.0.1:80", "\"\\\n\x00😀"]
      diffAz := ["null"]
      healthCheckSecs := 18446744073709551615
      probeConcurrency := 18446744073709551615
      httpProbe := some { protocol := "https", path := "/healthz\t" }
      directory := some { url := "é", pollSecs := 18446744073709551615, timeoutSecs := 0 }
      adminListen := "" }
    let d : Config := { probeConcurrency := 0 }
    parse (some "json") (Json.pretty c.toDocument).toList = .ok c ∧
    load ⟨"conf.d/pool.json", .bytes (Text.octets (Json.render c.toDocument))⟩ .empty = .ok c ∧
    load ⟨"conf.d/pool.json", .bytes (Text.octets (Json.pretty d.toDocument))⟩ .empty =
      .error (.invalid .noConcurrency) := by
  intro c d
  have hc : c.Fits := by
    refine ⟨by decide, by decide, ?_⟩
    rintro _ ⟨⟩
    exact ⟨by decide, by decide⟩
  have hd : d.Fits := ⟨by decide, by decide, nofun⟩
  have hpath : ConfigFile.extension? "conf.d/pool.json" = some "json" := by decide
  have hunset : ∀ name ∈ variableNames, (KeyMap.empty : Environment).get? name = none :=
    fun _ _ => rfl
  have hcvalid : c.fault? = none := by decide
  have hdfault : d.fault? = some .noConcurrency := by decide
  refine ⟨(load_written hc (.inr rfl)).1, ?_, ?_⟩
  · rw [(load_written hc (.inl rfl)).2 _ _ hpath hunset, hcvalid]
  · rw [(load_written hd (.inr rfl)).2 _ _ hpath hunset, hdfault]

end Config

end ZonePool
