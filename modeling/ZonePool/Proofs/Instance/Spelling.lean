-- SUMMARY: Spellings of a directory's answer that list the same instances, and faults in it.
import Mathlib.Logic.Relation
import ZonePool.Proofs.Directory
import ZonePool.Proofs.Document
import ZonePool.Proofs.Json.Reading

/-!
# Spellings of an answer

The answer of a directory is a record, which holds a list of records, which hold
records again. Each of the three kinds says what may be written for a missing
field and which values a field refuses, and passes on what the records inside it
say. So a change to any of them, however deep, leaves the instances alone, and a
fault in any of them is one of the whole answer.
-/

namespace ZonePool

open Document (Field Respells Faulty SameSlots RefusedSlot Separate)

/-! ## The three records -/

/-- A field for a text: it is empty when it is missing, and nothing but a text will do. -/
def Document.Field.ofText (names : List String) : Field where
  names := names
  blank := .text ""
  respells _ _ := False
  refuses d := ∀ s, d ≠ .text s

namespace DataCenter

/-- The name, the region and the zone are texts, and the zone goes by two names. -/
def spellings : List Field :=
  [.ofText ["name"], .ofText ["region"], .ofText ["availableZone", "availabilityZone"]]

theorem separate_spellings : Separate spellings := by
  unfold Separate
  decide

theorem text_of_same {names : List String} {slot slot' : Option Document}
    (h : (Field.ofText names).Same slot slot') :
    Document.orElse? Document.text? "" slot = Document.orElse? Document.text? "" slot' :=
  h.read_eq rfl fun _ _ h => h.elim

theorem ofDocument?_of_respells {d d' : Document} (h : Respells spellings d d') :
    ofDocument? d = ofDocument? d' := by
  refine h.bind_eq separate_spellings fun slots slots' hslots => ?_
  obtain _ | ⟨hname, hslots⟩ := hslots
  obtain _ | ⟨hregion, hslots⟩ := hslots
  obtain _ | ⟨hzone, hslots⟩ := hslots
  cases hslots
  simp only [text_of_same hname, text_of_same hregion, text_of_same hzone]

theorem ofDocument?_of_faulty {d : Document} (h : Faulty spellings d) : ofDocument? d = none := by
  refine h.bind_eq_none fun slots hrefused => ?_
  split
  · obtain h | hrefused := hrefused
    · simp [Document.orElse?, Document.text?_eq_none h]
    obtain h | hrefused := hrefused
    · simp [Document.orElse?, Document.text?_eq_none h]
    obtain h | hrefused := hrefused
    · simp [Document.orElse?, Document.text?_eq_none h]
    · cases hrefused
  · rfl

end DataCenter

namespace Instance

/-- The endpoints are a list of texts, and the data center is a record; both may be null. -/
def spellings : List Field := [
  { names := ["endpoints"]
    blank := .null
    respells := fun _ _ => False
    refuses := fun d => ∃ items, d = .list items ∧ ∃ item ∈ items, ∀ s, item ≠ .text s },
  { names := ["dataCenterInfo"]
    blank := .null
    respells := Respells DataCenter.spellings
    refuses := Faulty DataCenter.spellings }]

theorem separate_spellings : Separate spellings := by
  unfold Separate
  decide

theorem ofDocument?_of_respells {d d' : Document} (h : Respells spellings d d') :
    ofDocument? d = ofDocument? d' := by
  refine h.bind_eq separate_spellings fun slots slots' hslots => ?_
  obtain _ | ⟨hendpoints, hslots⟩ := hslots
  obtain _ | ⟨hdataCenter, hslots⟩ := hslots
  cases hslots
  have hendpoints := hendpoints.read_eq
    (r := Document.orElse? (Document.listOrNull? Document.text?) []) rfl fun _ _ h => h.elim
  have hdataCenter := hdataCenter.read_eq
    (r := Document.orElse? (Document.nullable? DataCenter.ofDocument?) none) rfl
    fun _ _ h => h.nullable?_eq (DataCenter.ofDocument?_of_respells h)
  simp only [hendpoints, hdataCenter]

theorem ofDocument?_of_faulty {d : Document} (h : Faulty spellings d) : ofDocument? d = none := by
  refine h.bind_eq_none fun slots hrefused => ?_
  split
  · obtain h | hrefused := hrefused
    · obtain ⟨items, rfl, item, hitem, htext⟩ := h
      have hvalue := Document.listOrNull?_eq_none hitem (Document.text?_eq_none htext)
      simp [Document.orElse?, hvalue]
    obtain h | hrefused := hrefused
    · have hvalue := h.nullable?_eq_none (DataCenter.ofDocument?_of_faulty h)
      simp [Document.orElse?, hvalue]
    · cases hrefused
  · rfl

/-- The answer holds a list of instances, which may be null. -/
def answerSpellings : List Field := [
  { names := ["instances"]
    blank := .null
    respells := fun d d' => ∃ before after i i', d = .list (before ++ i :: after) ∧
      d' = .list (before ++ i' :: after) ∧ Respells spellings i i'
    refuses := fun d => ∃ items, d = .list items ∧
      ∃ item ∈ items, item = .null ∨ Faulty spellings item }]

theorem listOfDocument?_of_respells {d d' : Document} (h : Respells answerSpellings d d') :
    listOfDocument? d = listOfDocument? d' := by
  refine h.bind_eq (List.pairwise_singleton _ _) fun slots slots' hslots => ?_
  obtain _ | ⟨hinstances, hslots⟩ := hslots
  cases hslots
  refine hinstances.read_eq (r := Document.orElse? (Document.listOrNull? ofDocument?) []) rfl ?_
  rintro _ _ ⟨before, after, i, i', rfl, rfl, h⟩
  exact Document.listOrNull?_middle before (ofDocument?_of_respells h) after

theorem listOfDocument?_of_faulty {d : Document} (h : Faulty answerSpellings d) :
    listOfDocument? d = none := by
  refine h.bind_eq_none fun slots hrefused => ?_
  split
  · obtain h | hrefused := hrefused
    · obtain ⟨items, rfl, item, hitem, hfault⟩ := h
      have hnone : ofDocument? item = none := by
        rcases hfault with rfl | hfault
        · rfl
        · exact ofDocument?_of_faulty hfault
      exact Document.listOrNull?_eq_none hitem hnone
    · cases hrefused
  · rfl

end Instance

/-! ## Answers -/

namespace Directory

open Json (TextOf)

theorem parse?_of_textOf {d : Document} {body : String} (h : TextOf d body.toList) :
    Instance.parse? body = Instance.listOfDocument? d := by
  rw [Instance.parse?, Json.read?_eq_some_iff.2 h]
  rfl

theorem listOfDocument?_of_eqvGen {d d' : Document}
    (h : Relation.EqvGen (Respells Instance.answerSpellings) d d') :
    Instance.listOfDocument? d = Instance.listOfDocument? d' := by
  induction h with
  | rel _ _ h => exact Instance.listOfDocument?_of_respells h
  | refl => rfl
  | symm _ _ _ ih => exact ih.symm
  | trans _ _ _ _ _ ih ih' => exact ih.trans ih'

/-- However the answer of a directory spells its records, it lists the same instances, and a fault
in any of them is one of the whole answer. An answer that lists instances is the text of a document,
so this leaves none out. -/
theorem instances?_of_spellings :
    (∀ body body' d d', TextOf d body.toList → TextOf d' body'.toList →
      Relation.EqvGen (Respells Instance.answerSpellings) d d' →
      instances? body = instances? body') ∧
    (∀ body d, TextOf d body.toList → Faulty Instance.answerSpellings d →
      instances? body = .error (.directory decodeDetail)) ∧
    (∀ body instances, instances? body = .ok instances → ∃ d, TextOf d body.toList) := by
  refine ⟨?spellings, ?faults, ?texts⟩
  case spellings =>
    intro body body' d d' hbody hbody' h
    rw [instances?, instances?, parse?_of_textOf hbody, parse?_of_textOf hbody',
      listOfDocument?_of_eqvGen h]
  case faults =>
    intro body d hbody h
    rw [instances?, parse?_of_textOf hbody, Instance.listOfDocument?_of_faulty h]
  case texts =>
    intro body instances h
    rw [instances?_eq_ok_iff, Instance.parse?] at h
    obtain ⟨d, hd, -⟩ := Option.bind_eq_some_iff.1 h
    exact ⟨d, Json.read?_eq_some_iff.1 hd⟩

/-- The zone under its other name with an unknown field behind it, and the zone under both names. -/
theorem instances?_of_spellings_of_zone :
    let plain :=
      "\x7b\"instances\":[\x7b\"dataCenterInfo\":\x7b\"availableZone\":\"az1\"\x7d\x7d]\x7d"
    let other := "\x7b\"instances\":[\x7b\"dataCenterInfo\":\x7b\"availabilityZone\":\"az1\"," ++
      "\"rack\":[null,\x7b\x7d]\x7d\x7d]\x7d"
    let both := "\x7b\"instances\":[\x7b\"dataCenterInfo\":\x7b\"availableZone\":\"az1\"," ++
      "\"availabilityZone\":\"az1\"\x7d\x7d]\x7d"
    instances? plain = .ok [{ dataCenter := some { zone := "az1" } }] ∧
    instances? other = instances? plain ∧
    instances? both = .error (.directory decodeDetail) := by
  intro plain other both
  obtain ⟨hspellings, hfaults, -⟩ := instances?_of_spellings
  let answer (members : List (Option String × Document)) : Document :=
    .record [(some "instances", .list [.record [(some "dataCenterInfo", .record members)]])]
  have htext {members : List (Option String × Document)} {body : String}
      (h : ∀ m ∈ members, Json.Numberless m.2) (hbody : body = Json.render (answer members)) :
      TextOf (answer members) body.toList := by
    have hnumberless : Json.Numberless (answer members) :=
      .record (by simpa using .list (by simpa using .record (by simpa using .record h)))
    rw [hbody, Json.render, String.toList_ofList]
    exact (Json.writes_compact hnumberless).tokens?_eq_some
  have hanswer {members members' : List (Option String × Document)}
      (h : Respells DataCenter.spellings (.record members) (.record members')) :
      Respells Instance.answerSpellings (answer members) (answer members') := by
    have hinstance : Respells Instance.spellings
        (.record [(some "dataCenterInfo", .record members)])
        (.record [(some "dataCenterInfo", .record members')]) :=
      @Respells.member _ [] [] _ "dataCenterInfo" _ _ (List.mem_cons_of_mem _ List.mem_cons_self)
        List.mem_cons_self h
    exact @Respells.member _ [] [] _ "instances" _ _ List.mem_cons_self List.mem_cons_self
      ⟨[], [], _, _, rfl, rfl, hinstance⟩
  have hzone : Json.Numberless (.text "az1") := .text "az1"
  have hplain : TextOf (answer [(some "availableZone", .text "az1")]) plain.toList :=
    htext (by simp [hzone]) (by decide +kernel)
  have hrack : Json.Numberless (.list [.null, .record []]) :=
    .list (by simp [Json.Numberless.null, Json.Numberless.record])
  have hother : TextOf (answer [(some "availabilityZone", .text "az1"),
      (some "rack", .list [.null, .record []])]) other.toList :=
    htext (by simp [hzone, hrack]) (by decide +kernel)
  have hboth : TextOf (answer [(some "availableZone", .text "az1"),
      (some "availabilityZone", .text "az1")]) both.toList :=
    htext (by simp [hzone]) (by decide +kernel)
  have hfield : Field.ofText ["availableZone", "availabilityZone"] ∈ DataCenter.spellings :=
    List.mem_cons_of_mem _ (List.mem_cons_of_mem _ List.mem_cons_self)
  refine ⟨?plain, ?other, ?both⟩
  case plain =>
    rw [instances?, parse?_of_textOf hplain]
    rfl
  case other =>
    have hrename := hanswer (@Respells.rename DataCenter.spellings [] [] _ _ _ (.text "az1") hfield
      List.mem_cons_self (List.mem_cons_of_mem _ List.mem_cons_self))
    have hunknown := hanswer (@Respells.unknown DataCenter.spellings
      [(some "availabilityZone", .text "az1")] [] "rack" (.list [.null, .record []]) (by decide))
    exact hspellings _ _ _ _ hother hplain
      (.symm _ _ (.trans _ _ _ (.rel _ _ hrename) (.rel _ _ hunknown)))
  case both =>
    have htwice : Faulty DataCenter.spellings (.record [(some "availableZone", .text "az1"),
        (some "availabilityZone", .text "az1")]) :=
      .twice hfield List.mem_cons_self (List.mem_cons_of_mem _ List.mem_cons_self) (.refl _)
    have hinstance : Faulty Instance.spellings (.record [(some "dataCenterInfo", .record [
        (some "availableZone", .text "az1"), (some "availabilityZone", .text "az1")])]) :=
      .member (List.mem_cons_of_mem _ List.mem_cons_self) List.mem_cons_self List.mem_cons_self
        htwice
    exact hfaults both _ hboth (.member List.mem_cons_self List.mem_cons_self List.mem_cons_self
      ⟨_, rfl, _, List.mem_cons_self, .inr hinstance⟩)

end Directory

end ZonePool
