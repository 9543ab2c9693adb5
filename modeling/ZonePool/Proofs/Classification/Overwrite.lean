-- SUMMARY: Which zones give way in the buckets of a classification, and to which ones.
import Mathlib.Data.List.Basic
import ZonePool.Proofs.Classification

/-!
# Zones that give way

The zones of one bucket come into it in the order of their names, and each of
them gives way to the next one. The other bucket fills up in between without a
trace in this one, so the invariant of the pass over the zones speaks of one
bucket: its warnings hand it from each zone so far to the next, and the last of
these zones is the one in it.
-/

namespace ZonePool

/-! ## Warnings -/

/-- The text that one zone of a bucket gave way to another. -/
def Bucket.warning (before after : String) : Bucket → String
  | .sameAz =>
    "pool: resync: multiple zones classified as same az, overwritten=" ++ before ++ ", kept=" ++ after
  | .diffAz =>
    "pool: resync: multiple zones classified as diff az, overwritten=" ++ before ++ ", kept=" ++ after

theorem Overwrite.message_eq (w : Overwrite) : w.message = w.bucket.warning w.overwritten w.kept := by
  obtain ⟨bucket, overwritten, kept⟩ := w
  cases bucket <;> rfl

/-- Each zone gives way to the next one. -/
def Bucket.handovers (b : Bucket) (names : List String) : List Overwrite :=
  List.zipWith (Overwrite.mk b) names names.tail

namespace Bucket

theorem handovers_concat (b : Bucket) (names : List String) (zone : String) :
    b.handovers (names ++ [zone]) =
      b.handovers names ++ names.getLast?.toList.map (Overwrite.mk b · zone) := by
  induction names with
  | nil => rfl
  | cons first names ih =>
    cases names with
    | nil => rfl
    | cons second names =>
      simp only [handovers, List.cons_append, List.tail_cons, List.zipWith_cons_cons] at ih ⊢
      rw [ih, List.getLast?_cons_cons]

theorem length_handovers (b : Bucket) (names : List String) :
    (b.handovers names).length = names.length - 1 := by
  rw [handovers, List.length_zipWith, List.length_tail]
  omega

theorem getElem?_handovers {b : Bucket} {names : List String} {i : Nat} {before after : String}
    (hbefore : names[i]? = some before) (hafter : names[i + 1]? = some after) :
    (b.handovers names)[i]? = some ⟨b, before, after⟩ := by
  rw [handovers, List.getElem?_zipWith, List.getElem?_tail, hbefore, hafter]

theorem ofAddresses_eq_iff {home addresses : List String} {b : Bucket} :
    ofAddresses home addresses = b ↔ (b = .sameAz ↔ ∃ a ∈ addresses, a ∈ home) := by
  cases b with
  | sameAz => simp [ofAddresses_eq_sameAz]
  | diffAz => simp [ofAddresses_eq_diffAz]

/-- Whatever has a bucket has the one or the other. -/
theorem filter_append_filter_perm {α : Type} (f : α → Bucket) (l : List α) :
    (l.filter (f · = .sameAz) ++ l.filter (f · = .diffAz)).Perm l := by
  have hother : ∀ x, decide (f x = .diffAz) = !decide (f x = .sameAz) := by
    intro x
    cases f x <;> rfl
  simp only [hother]
  exact List.filter_append_perm _ l

end Bucket

namespace Classification

/-! ## One bucket -/

/-- The zones of these names came into a bucket one after another: each gave way to the next one, and
the last one is still there. -/
structure Passed (c : Classification) (b : Bucket) (names : List String) : Prop where
  overwrites : c.overwrites.filter (·.bucket = b) = b.handovers names
  last : (c.get b).map (·.zone) = names.getLast?

theorem passed_empty (b : Bucket) : Passed {} b [] where
  overwrites := rfl
  last := by cases b <;> rfl

/-- One more zone takes over its bucket, and the other bucket stays as it was. -/
theorem Passed.add {c : Classification} {b : Bucket} {names : List String} (h : c.Passed b names)
    (home : List String) (zone : String) (addresses : List String) :
    (c.add home zone addresses).Passed b
      (names ++ if Bucket.ofAddresses home addresses = b then [zone] else []) := by
  by_cases hb : Bucket.ofAddresses home addresses = b
  · subst hb
    rw [if_pos rfl]
    refine ⟨?overwrites, ?last⟩
    case overwrites =>
      rw [overwrites_add, List.filter_append, h.overwrites, Bucket.handovers_concat, ← h.last]
      cases c.get (.ofAddresses home addresses) <;> simp [displaced]
    case last => simp [get_add]
  · rw [if_neg hb, List.append_nil]
    refine ⟨?overwrites, ?last⟩
    case overwrites =>
      rw [overwrites_add, List.filter_append, h.overwrites]
      cases c.get (.ofAddresses home addresses) <;> simp [displaced, hb]
    case last => rw [get_add, if_neg hb, h.last]

theorem passed_ofZones (zones : Zones) (home : List String) (b : Bucket) :
    (ofZones zones home).Passed b ((fallingInto home b zones).map (·.1)) := by
  refine ofZones_induction
    (P := fun entries c => c.Passed b
      ((entries.filter fun z => Bucket.ofAddresses home z.2 = b).map (·.1)))
    (passed_empty b) ?_ zones
  intro entries c z h
  have hstep := h.add home z.1 z.2
  rw [List.filter_append, List.map_append]
  by_cases hb : Bucket.ofAddresses home z.2 = b <;> simpa [hb] using hstep

/-! ## Both buckets -/

/-- The new members of a tier, if a zone is in its bucket. -/
def membersOf (c : Classification) : Bucket → Option (List String)
  | .sameAz => c.sameAzMembers
  | .diffAz => c.diffAzMembers

theorem membersOf_eq (c : Classification) (b : Bucket) :
    c.membersOf b = (c.get b).map (·.members) := by
  cases b <;> rfl

/-- The zones that are in a bucket. -/
def inBuckets (c : Classification) : List String :=
  ((c.get .sameAz).toList ++ (c.get .diffAz).toList).map (·.zone)

theorem length_inBuckets (c : Classification) :
    c.inBuckets.length = [c.sameAzMembers, c.diffAzMembers].countP (·.isSome) := by
  obtain ⟨sameAz, diffAz, overwrites⟩ := c
  cases sameAz <;> cases diffAz <;> rfl

/-- Each zone either gave way once or is in a bucket. -/
theorem perm_keys (zones : Zones) (home : List String) :
    ((ofZones zones home).overwrites.map (·.overwritten) ++ (ofZones zones home).inBuckets).Perm
      zones.keys := by
  generalize hc : ofZones zones home = c
  have hsorted : ∀ b, c.sorted b = (fallingInto home b zones).map (·.1) := by
    subst hc
    exact sorted_ofZones zones home
  have hnamed : (c.overwrites.map (·.overwritten) ++ c.inBuckets).Perm
      (c.sorted .sameAz ++ c.sorted .diffAz) := by
    have hparts := (Bucket.filter_append_filter_perm (·.bucket) c.overwrites).map (·.overwritten)
    rw [List.map_append] at hparts
    refine (hparts.symm.append_right _).trans ?_
    simp only [inBuckets, sorted, List.map_append, List.append_assoc]
    exact (List.perm_append_comm_assoc _ _ _).append_left _
  refine hnamed.trans ?_
  rw [hsorted, hsorted, ← List.map_append]
  exact (Bucket.filter_append_filter_perm (fun z => Bucket.ofAddresses home z.2) zones.entries).map _

/-! ## The law -/

/-- Of the zones that fall into a bucket, in the order of their names, each is named as overwritten by
the next one, and the members of the last one are what is left. So each zone that is in no bucket at
the end is named once, and warnings and filled buckets are as many as zones. -/
theorem overwrites_ofZones (zones : Zones) (home : List String) :
    let c := ofZones zones home
    (∀ b,
      let falling := fallingInto home b zones
      let warnings := c.overwrites.filter (·.bucket = b)
      falling.Pairwise (fun z z' => z.1 < z'.1) ∧
      (∀ zone group, (zone, group) ∈ falling ↔
        zones.get? zone = some group ∧ (b = .sameAz ↔ ∃ a ∈ group, a ∈ home)) ∧
      warnings.length = falling.length - 1 ∧
      (∀ i z z', falling[i]? = some z → falling[i + 1]? = some z' →
        warnings[i]? = some ⟨b, z.1, z'.1⟩ ∧
        (warnings.map (·.message))[i]? = some (b.warning z.1 z'.1)) ∧
      (c.get b).map (·.zone) = falling.getLast?.map (·.1) ∧
      c.membersOf b = falling.getLast?.map fun z => distinct z.2) ∧
    (∀ zone ∈ zones.keys, zone ∉ c.inBuckets →
      (c.overwrites.map (·.overwritten)).count zone = 1) ∧
    c.overwrites.length + [c.sameAzMembers, c.diffAzMembers].countP (·.isSome) =
      zones.keys.length := by
  intro c
  refine ⟨fun b => ⟨?increasing, fun zone group => ?falling, ?length, fun i z z' hz hz' => ?chain,
    ?zone, ?members⟩, fun zone hzone hout => ?once, ?total⟩
  case increasing => exact zones.increasing.filter _
  case falling =>
    rw [fallingInto, List.mem_filter, ← KeyMap.get?_eq_some_iff, decide_eq_true_eq,
      Bucket.ofAddresses_eq_iff]
  case length =>
    rw [(passed_ofZones zones home b).overwrites, Bucket.length_handovers, List.length_map]
  case chain =>
    have hbefore : ((fallingInto home b zones).map (·.1))[i]? = some z.1 := by simp [hz]
    have hafter : ((fallingInto home b zones).map (·.1))[i + 1]? = some z'.1 := by simp [hz']
    rw [List.getElem?_map, (passed_ofZones zones home b).overwrites,
      Bucket.getElem?_handovers hbefore hafter]
    exact ⟨rfl, congrArg some (Overwrite.message_eq _)⟩
  case zone => rw [(passed_ofZones zones home b).last, List.getLast?_map]
  case members =>
    rw [membersOf_eq, get_ofZones, Option.map_map]
    rfl
  case once =>
    have hcount := (perm_keys zones home).count_eq zone
    rwa [List.count_append, List.count_eq_zero.2 hout,
      List.count_eq_one_of_mem zones.nodup_keys hzone] at hcount
  case total =>
    have hlength := (perm_keys zones home).length_eq
    rwa [List.length_append, List.length_map, length_inBuckets] at hlength

/-- Four zones, two of them on either side; each side's first one in the order of the names gives way. -/
theorem overwrites_ofZones_of_four :
    let zones : Zones := .ofList
      [("d", ["10.0.0.1:80"]), ("a", ["10.0.0.9:80", "10.0.0.1:80", "10.0.0.9:80"]),
        ("c", ["10.0.0.3:80"]), ("b", ["10.0.0.2:80"])]
    let c := ofZones zones ["10.0.0.1:80"]
    (c.overwrites.filter (·.bucket = .sameAz))[0]? = some ⟨.sameAz, "a", "d"⟩ ∧
      (c.overwrites.filter (·.bucket = .diffAz)).length = 1 ∧
      (c.overwrites.map (·.overwritten)).count "b" = 1 ∧
      c.overwrites.length + [c.sameAzMembers, c.diffAzMembers].countP (·.isSome) = 4 := by
  intro zones c
  obtain ⟨hbuckets, honce, htotal⟩ := overwrites_ofZones zones ["10.0.0.1:80"]
  obtain ⟨-, -, -, hchain, -⟩ := hbuckets .sameAz
  obtain ⟨-, -, hlength, -⟩ := hbuckets .diffAz
  have hfirst := hchain 0 ("a", ["10.0.0.9:80", "10.0.0.1:80", "10.0.0.9:80"]) ("d", ["10.0.0.1:80"])
    (by decide) (by decide)
  have hkeys : zones.keys.length = 4 := by decide
  refine ⟨hfirst.1, ?_, honce "b" (by decide) (by decide), htotal.trans hkeys⟩
  rw [hlength]
  decide

end Classification

end ZonePool
