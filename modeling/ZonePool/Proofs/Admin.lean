-- SUMMARY: What the pages for the tiers and for an address say, read back from their texts.
import ZonePool.Admin
import ZonePool.Proofs.Instance
import ZonePool.Proofs.KeyMap
import ZonePool.Proofs.Pool.Requests

/-!
# Pages read back

The page of the tiers is a text that whoever asked for it can read: a reader
that knows the names of its members finds every tier in its order, the verdict
on each endpoint, and the lifecycle. So nothing of these is lost on the way,
whatever characters the endpoints are made of, and no two pools that differ in
them show the same page.
-/

namespace ZonePool

/-! ## Names -/

namespace Verdict

/-- The verdict with a name. -/
def ofName? (s : String) : Option Verdict :=
  if s = "available" then some .available
  else if s = "unavailable" then some .unavailable
  else none

theorem ofName?_name (v : Verdict) : ofName? v.name = some v := by
  cases v <;> rfl

end Verdict

namespace Lifecycle

/-- The lifecycle with a name. -/
def ofName? (s : String) : Option Lifecycle :=
  if s = "idle" then some .idle
  else if s = "running" then some .running
  else if s = "stopped" then some .stopped
  else none

theorem ofName?_name (l : Lifecycle) : ofName? l.name = some l := by
  cases l <;> rfl

end Lifecycle

/-! ## The page of the tiers -/

namespace StatusMap

/-- The verdict that a member gives on the endpoint that is its key. -/
def entryOf? (m : Option String × Document) : Option (String × Verdict) := do
  let endpoint ← m.1
  let verdict ← m.2.text?.bind Verdict.ofName?
  return (endpoint, verdict)

/-- The verdicts in a record; an endpoint that has two of them is an error. -/
def ofDocument? : Document → Option StatusMap
  | .record members => do
    let entries ← members.mapM entryOf?
    if (entries.map (·.1)).Nodup then some (.ofList entries) else none
  | _ => none

theorem ofDocument?_statusBody (status : StatusMap) :
    ofDocument? (Admin.statusBody status) = some status := by
  have hentries : ∀ entries : List (String × Verdict),
      (entries.map fun e => (some e.1, Document.text e.2.name)).mapM entryOf? = some entries := by
    intro entries
    rw [List.mapM_map]
    induction entries with
    | nil => rfl
    | cons e entries ih => simp [entryOf?, Document.text?, Verdict.ofName?_name, ih]
  have hmembers : Admin.statusBody status =
      .record (status.entries.map fun e => (some e.1, .text e.2.name)) := by
    simp [Admin.statusBody, Document.ofMembers]
  have hnodup : (status.entries.map (·.1)).Nodup := status.nodup_keys
  simp [hmembers, ofDocument?, hentries, hnodup, KeyMap.ofList_entries]

end StatusMap

/-- What the page of the tiers shows of a pool. -/
structure Overview where
  tiers : Tiers
  status : StatusMap
  lifecycle : Lifecycle

namespace Overview

/-- The members of the page, in any order. -/
def fields : List (List String) :=
  [["default"], ["same_az"], ["diff_az"], ["status"], ["lifecycle"]]

/-- Read a page; none of its members may be missing or come twice. -/
def ofDocument? (d : Document) : Option Overview := do
  match ← d.slots? .refused fields with
  | [default, sameAz, diffAz, status, lifecycle] =>
    return {
      tiers := {
        default := ← Document.required? (Document.listOf? Document.text?) default
        sameAz := ← Document.required? (Document.listOf? Document.text?) sameAz
        diffAz := ← Document.required? (Document.listOf? Document.text?) diffAz }
      status := ← Document.required? StatusMap.ofDocument? status
      lifecycle :=
        ← Document.required? (fun d => d.text?.bind Lifecycle.ofName?) lifecycle }
  | _ => none

/-- Read a page out of its text. -/
def parse? (body : String) : Option Overview :=
  (Json.read? body.toList).bind ofDocument?

/-- The overview of what a store holds. -/
def ofStore (s : Store) : Overview :=
  ⟨s.tiers, s.status, s.lifecycle⟩

theorem ofDocument?_tiersBody (s : Store) :
    ofDocument? (Admin.tiersBody s) = some (ofStore s) := by
  have htext (s : String) : Document.text? (.text s) = some s := rfl
  have htexts (texts : List String) :
      Document.listOf? Document.text? (.ofTexts texts) = some texts :=
    Document.listOf?_map htext texts
  simp [ofDocument?, Admin.tiersBody, Tier.name, fields, Document.ofMembers, Document.slots?,
    Document.slot?, Document.required?, htexts, StatusMap.ofDocument?_statusBody, Document.text?,
    Lifecycle.ofName?_name, ofStore]

end Overview

/-! ## Texts -/

namespace Admin

open Json (Numberless Writes)

theorem numberless_tiersBody (s : Store) : Numberless (tiersBody s) := by
  have hstatus : Numberless (statusBody s.status) := by
    refine Instance.numberless_ofMembers fun m hm => ?_
    obtain ⟨e, -, rfl⟩ := List.mem_map.1 hm
    exact .text e.2.name
  exact Instance.numberless_ofMembers
    (by simp [Instance.numberless_ofTexts, hstatus, Numberless.text])

theorem writes_tiersBody (s : Store) : Writes (tiersBody s) (Json.pretty (tiersBody s)).toList := by
  rw [Json.pretty, String.toList_ofList]
  exact Json.writes_indented (numberless_tiersBody s) 0

theorem parse?_tiersBody (s : Store) :
    Overview.parse? (Json.pretty (tiersBody s)) = some (Overview.ofStore s) := by
  rw [Overview.parse?, (writes_tiersBody s).read?_eq_some]
  exact Overview.ofDocument?_tiersBody s

/-- Two stores have one page exactly if they have one overview. -/
theorem pretty_tiersBody_inj {s t : Store} :
    Json.pretty (tiersBody s) = Json.pretty (tiersBody t) ↔
      s.tiers = t.tiers ∧ s.status = t.status ∧ s.lifecycle = t.lifecycle := by
  constructor
  · intro h
    have hoverview := parse?_tiersBody s
    rw [h, parse?_tiersBody] at hoverview
    simp_all [Overview.ofStore]
  · rintro ⟨htiers, hstatus, hlifecycle⟩
    simp only [tiersBody, htiers, hstatus, hlifecycle]

/-- Read the address out of the text of its page. -/
def parseAddress? (body : String) : Option String := do
  match ← (← Json.read? body.toList).slots? .refused [["address"]] with
  | [address] => Document.required? Document.text? address
  | _ => none

theorem writes_addressBody (address : String) :
    Writes (addressBody address) (Json.render (addressBody address)).toList := by
  rw [Json.render, String.toList_ofList]
  exact Json.writes_compact (Instance.numberless_ofMembers (by simp [Numberless.text]))

theorem parseAddress?_addressBody (address : String) :
    parseAddress? (Json.render (addressBody address)) = some address := by
  rw [parseAddress?, (writes_addressBody address).read?_eq_some]
  simp [addressBody, Document.ofMembers, Document.slots?, Document.slot?, Document.required?,
    Document.text?]

/-! ## Requests -/

theorem respond_tiers {target : String} (h : pathOf target = "/tiers") (recording : Bool)
    (p : Pool) :
    respond "GET" target recording p =
      (⟨200, jsonType, Json.pretty (tiersBody p.store)⟩, p) := by
  simp [respond, serve, route, h, Page.sentFor]

/-- What is asked for is what is read: the page of the tiers is a JSON text from which the tiers, the
verdict on every endpoint and the lifecycle come back as they are, so it tells any two pools apart
that differ in one of these; and the page for an address gives the address that is picked. -/
theorem pages_read_back (recording : Bool) (p : Pool) :
    (∀ target, pathOf target = "/tiers" →
      let body := (respond "GET" target recording p).1.body
      Writes (tiersBody p.store) body.toList ∧
      Overview.parse? body = some ⟨p.store.tiers, p.store.status, p.store.lifecycle⟩ ∧
      ∀ target' (q : Pool), pathOf target' = "/tiers" →
        ((respond "GET" target' recording q).1.body = body ↔
          q.store.tiers = p.store.tiers ∧ q.store.status = p.store.status ∧
            q.store.lifecycle = p.store.lifecycle)) ∧
    ∀ target, pathOf target = "/address" →
      let body := (respond "GET" target recording p).1.body
      Writes (addressBody p.pick.1) body.toList ∧ parseAddress? body = some p.pick.1 := by
  refine ⟨fun target htarget => ?tiers, fun target htarget => ?address⟩
  case tiers =>
    rw [respond_tiers htarget]
    refine ⟨writes_tiersBody p.store, parse?_tiersBody p.store, fun target' q htarget' => ?_⟩
    rw [respond_tiers htarget']
    exact pretty_tiersBody_inj
  case address =>
    rw [respond_address htarget]
    exact ⟨writes_addressBody p.pick.1, parseAddress?_addressBody p.pick.1⟩

/-- A quote, a backslash, control characters and characters outside ASCII, with one verdict of each
kind. -/
theorem pages_read_back_of_escapes :
    let a := "\"\\\x00\n"
    let b := "é😀"
    let p := (Pool.create [a, b] {} .empty).run
      [.start, .commit ⟨[], [(b, .available), (a, .unavailable)]⟩]
    let body := (respond "GET" "/tiers?all" false p).1.body
    Overview.parse? body =
        some ⟨⟨[a, b], [], []⟩, .ofList [(a, .unavailable), (b, .available)], .running⟩ ∧
      (respond "GET" "http://localhost:9091/tiers" false p.close).1.body ≠ body ∧
      parseAddress? (respond "GET" "/address" false p).1.body = some b := by
  intro a b p body
  have hholds : p.store.tiers = ⟨[a, b], [], []⟩ := by decide
  have hstatus : p.store.status = .ofList [(a, .unavailable), (b, .available)] :=
    KeyMap.ext (by decide)
  have hlifecycle : p.store.lifecycle = .running := by decide
  have hpick : p.pick.1 = b := by decide
  obtain ⟨htiers, haddress⟩ := pages_read_back false p
  obtain ⟨-, hparse, hinj⟩ := htiers "/tiers?all" (by decide)
  rw [hholds, hstatus, hlifecycle] at hparse
  refine ⟨hparse, ?_, hpick ▸ (haddress "/address" (by decide)).2⟩
  rw [ne_eq, hinj "http://localhost:9091/tiers" p.close (by decide)]
  exact fun hsame => absurd hsame.2.2 (by decide)

end Admin

end ZonePool
