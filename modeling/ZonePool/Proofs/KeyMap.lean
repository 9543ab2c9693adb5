-- SUMMARY: Looking up keys in maps after each operation on them.
import Mathlib.Data.List.Forall2
import Mathlib.Data.List.Induction
import Mathlib.Data.List.Nodup
import ZonePool.KeyMap

/-!
# Lookup in maps

What each operation on a `KeyMap` does to `get?`. A key has at most one entry,
so a lookup finds a value exactly when the pair is among the entries; after
that no proof looks at the order of the entries any more.
-/

namespace ZonePool.KeyMap

variable {α : Type}

/-! ## Entries and keys -/

private theorem find?_eq_some_iff_mem {es : List (String × α)}
    (hinc : es.Pairwise (fun a b => a.1 < b.1)) {k : String} {v : α} :
    (es.find? (·.1 == k)).map (·.2) = some v ↔ (k, v) ∈ es := by
  induction es with
  | nil => simp
  | cons e es ih =>
    rw [List.pairwise_cons] at hinc
    rw [List.find?_cons, List.mem_cons]
    by_cases hk : e.1 = k
    · have hother : (k, v) ∉ es := fun hmem => by
        have hlt : e.1 < k := hinc.1 (k, v) hmem
        exact String.lt_irrefl k (hk ▸ hlt)
      simp [hk, hother, Prod.ext_iff, eq_comm]
    · have hhead : (k, v) ≠ e := fun heq => hk (heq ▸ rfl)
      have hskip : (e.1 == k) = false := by simpa using hk
      simp only [hskip, hhead, false_or]
      exact ih hinc.2

theorem get?_eq_some_iff {m : KeyMap α} {k : String} {v : α} :
    m.get? k = some v ↔ (k, v) ∈ m.entries :=
  find?_eq_some_iff_mem m.increasing

theorem mem_keys_iff {m : KeyMap α} {k : String} : k ∈ m.keys ↔ ∃ v, m.get? k = some v := by
  simp [keys, get?_eq_some_iff]

theorem nodup_keys (m : KeyMap α) : m.keys.Nodup := by
  rw [keys, List.Nodup, List.pairwise_map]
  exact m.increasing.imp fun {a b} (hlt : a.1 < b.1) (heq : a.1 = b.1) =>
    String.lt_irrefl b.1 (heq ▸ hlt)

theorem mem_values_iff {m : KeyMap α} {v : α} : v ∈ m.values ↔ ∃ k, m.get? k = some v := by
  simp [values, get?_eq_some_iff]

@[simp] theorem get?_empty {k : String} : (empty : KeyMap α).get? k = none := rfl

theorem isEmpty_iff {m : KeyMap α} : m.isEmpty = true ↔ ∀ k, m.get? k = none := by
  simp only [isEmpty, List.isEmpty_iff, List.eq_nil_iff_forall_not_mem,
    Option.eq_none_iff_forall_ne_some, ne_eq, get?_eq_some_iff]
  exact ⟨fun h k v => h (k, v), fun h e => h e.1 e.2⟩

/-- Of the entries that pass a test the last one has the greatest key. -/
theorem of_getLast?_filter {m : KeyMap α} {p : String × α → Bool} {e : String × α}
    (h : (m.entries.filter p).getLast? = some e) :
    e ∈ m.entries ∧ p e = true ∧ ∀ e' ∈ m.entries, p e' = true → e'.1 ≤ e.1 := by
  obtain ⟨before, hsplit⟩ := List.getLast?_eq_some_iff.1 h
  have hmem := List.mem_filter.1 (List.mem_of_getLast? h)
  have hinc := m.increasing.filter p
  rw [hsplit, List.pairwise_append] at hinc
  refine ⟨hmem.1, hmem.2, fun e' he' hp => ?_⟩
  have hmem' : e' ∈ before ++ [e] := hsplit ▸ List.mem_filter.2 ⟨he', hp⟩
  rcases List.mem_append.1 hmem' with hbefore | hlast
  · exact String.not_lt.1 (String.lt_asymm (hinc.2.2 e' hbefore e (List.mem_singleton_self e)))
  · obtain rfl := List.mem_singleton.1 hlast
    exact String.le_refl e'.1

/-! ## Two maps entry by entry -/

private theorem mem_of_mem_cons_of_lt {e x : String × α} {es : List (String × α)}
    (h : x ∈ e :: es) (hlt : e.1 < x.1) : x ∈ es :=
  (List.mem_cons.1 h).resolve_left fun heq => String.lt_irrefl e.1 (heq ▸ hlt)

private theorem forall₂_of_mem {β : Type} {R : α → β → Prop} {es : List (String × α)}
    {fs : List (String × β)} (hes : es.Pairwise (fun a b => a.1 < b.1))
    (hfs : fs.Pairwise (fun a b => a.1 < b.1))
    (hleft : ∀ k v, (k, v) ∈ es → ∃ w, (k, w) ∈ fs ∧ R v w)
    (hright : ∀ k w, (k, w) ∈ fs → ∃ v, (k, v) ∈ es ∧ R v w) :
    es.Forall₂ (fun e f => e.1 = f.1 ∧ R e.2 f.2) fs := by
  induction es generalizing fs with
  | nil =>
    cases fs with
    | nil => exact .nil
    | cons f fs =>
      obtain ⟨v, hmem, -⟩ := hright f.1 f.2 List.mem_cons_self
      cases hmem
  | cons e es ih =>
    cases fs with
    | nil =>
      obtain ⟨w, hmem, -⟩ := hleft e.1 e.2 List.mem_cons_self
      cases hmem
    | cons f fs =>
      rw [List.pairwise_cons] at hes hfs
      obtain ⟨w, hw, hR⟩ := hleft e.1 e.2 List.mem_cons_self
      obtain ⟨v, hv, -⟩ := hright f.1 f.2 List.mem_cons_self
      -- Either first key is the least one of both lists.
      have hkey : e.1 = f.1 := by
        rcases List.mem_cons.1 hw with heq | hw
        · exact congrArg Prod.fst heq
        rcases List.mem_cons.1 hv with heq | hv
        · exact (congrArg Prod.fst heq).symm
        · exact absurd (hes.1 _ hv) (String.lt_asymm (hfs.1 _ hw))
      have hvalue : R e.2 f.2 := by
        rcases List.mem_cons.1 hw with heq | hw
        · rwa [← heq]
        · have hlt : f.1 < e.1 := hfs.1 _ hw
          exact absurd (hkey ▸ hlt) (String.lt_irrefl _)
      refine .cons ⟨hkey, hvalue⟩ (ih hes.2 hfs.2 ?_ ?_)
      · intro k v hmem
        obtain ⟨w, hw, hR⟩ := hleft k v (List.mem_cons_of_mem _ hmem)
        exact ⟨w, mem_of_mem_cons_of_lt hw (hkey ▸ hes.1 _ hmem), hR⟩
      · intro k w hmem
        obtain ⟨v, hv, hR⟩ := hright k w (List.mem_cons_of_mem _ hmem)
        exact ⟨v, mem_of_mem_cons_of_lt hv (hkey ▸ hfs.1 _ hmem), hR⟩

/-- Maps with related values under the same keys have related entries in the same order. -/
theorem forall₂_entries {β : Type} {R : α → β → Prop} {m : KeyMap α} {n : KeyMap β}
    (hleft : ∀ k v, m.get? k = some v → ∃ w, n.get? k = some w ∧ R v w)
    (hright : ∀ k w, n.get? k = some w → ∃ v, m.get? k = some v ∧ R v w) :
    m.entries.Forall₂ (fun e f => e.1 = f.1 ∧ R e.2 f.2) n.entries := by
  simp only [get?_eq_some_iff] at hleft hright
  exact forall₂_of_mem m.increasing n.increasing hleft hright

theorem ext_get? {m n : KeyMap α} (h : ∀ k, m.get? k = n.get? k) : m = n := by
  have hentries : m.entries.Forall₂ (fun e f => e.1 = f.1 ∧ e.2 = f.2) n.entries :=
    forall₂_entries (fun k v hv => ⟨v, h k ▸ hv, rfl⟩) (fun k v hv => ⟨v, h k ▸ hv, rfl⟩)
  refine ext (List.forall₂_eq_eq_eq ▸ hentries.imp fun e f hef => ?_)
  exact Prod.ext hef.1 hef.2

/-! ## Changing one entry -/

private theorem find?_alterEntries {k : String} {f : Option α → α} {es : List (String × α)}
    (hinc : es.Pairwise (fun a b => a.1 < b.1)) (k' : String) :
    (alterEntries k f es).find? (·.1 == k') =
      if k' = k then some (k, f ((es.find? (·.1 == k)).map (·.2))) else es.find? (·.1 == k') := by
  induction es with
  | nil =>
    by_cases hk : k' = k
    · simp [alterEntries, hk]
    · simp [alterEntries, hk, Ne.symm hk]
  | cons e es ih =>
    rw [List.pairwise_cons] at hinc
    unfold alterEntries
    split
    · next hlt =>
      -- `k` comes before every key, so it had no entry.
      have hfresh : (e :: es).find? (·.1 == k) = none := by
        rw [List.find?_eq_none]
        intro x hx
        have hltx : k < x.1 := by
          rcases List.mem_cons.1 hx with rfl | hx
          · exact hlt
          · exact String.lt_trans hlt (hinc.1 x hx)
        simpa using fun heq : x.1 = k => String.lt_irrefl k (heq ▸ hltx)
      by_cases hk : k' = k
      · rw [hfresh]
        simp [hk]
      · have hhead : (k == k') = false := by simpa using Ne.symm hk
        rw [List.find?_cons]
        simp only [hhead, if_neg hk]
    · split
      · next heq =>
        by_cases hk : k' = k
        · simp [hk, heq]
        · have hhead : (k == k') = false := by simpa using Ne.symm hk
          simp only [List.find?_cons, ← heq, hhead, if_neg hk]
      · next hne =>
        rw [List.find?_cons, ih hinc.2]
        by_cases hk : k' = k
        · have hhead : (e.1 == k) = false := by simpa using Ne.symm hne
          simp only [hk, hhead, List.find?_cons, if_true]
        · simp only [if_neg hk, List.find?_cons]

theorem get?_alter {m : KeyMap α} {k : String} {f : Option α → α} (k' : String) :
    (m.alter k f).get? k' = if k' = k then some (f (m.get? k)) else m.get? k' := by
  simp only [get?, alter, find?_alterEntries m.increasing]
  split <;> rfl

theorem get?_insert {m : KeyMap α} {k : String} {v : α} (k' : String) :
    (m.insert k v).get? k' = if k' = k then some v else m.get? k' :=
  get?_alter k'

theorem ofList_concat {pairs : List (String × α)} {p : String × α} :
    ofList (pairs ++ [p]) = (ofList pairs).insert p.1 p.2 := by
  simp [ofList]

/-- Of a list with each key once, the map has exactly the pairs. -/
theorem get?_ofList {pairs : List (String × α)} (h : (pairs.map (·.1)).Nodup) {k : String} {v : α} :
    (ofList pairs).get? k = some v ↔ (k, v) ∈ pairs := by
  induction pairs using List.reverseRecOn with
  | nil => simp [ofList]
  | append_singleton pairs p ih =>
    rw [List.map_append, List.nodup_append] at h
    obtain ⟨hpairs, -, hfresh⟩ := h
    rw [ofList_concat, get?_insert, List.mem_append, List.mem_singleton]
    by_cases hk : k = p.1
    · have hother : (k, v) ∉ pairs := fun hmem =>
        hfresh k (List.mem_map_of_mem hmem) p.1 (by simp) hk
      simp [hother, ← hk, Prod.ext_iff, eq_comm]
    · have hhead : (k, v) ≠ p := fun heq => hk (heq ▸ rfl)
      simp [hk, hhead, ih hpairs]

/-- Of a list with each key once, the map only orders the pairs. -/
theorem entries_ofList {pairs : List (String × α)} (h : (pairs.map (·.1)).Nodup) :
    (ofList pairs).entries.Perm pairs := by
  have hentries : (ofList pairs).entries.Nodup := List.Nodup.of_map _ (nodup_keys _)
  exact (List.perm_ext_iff_of_nodup hentries (List.Nodup.of_map _ h)).2 fun _ =>
    get?_eq_some_iff.symm.trans (get?_ofList h)

/-- With each key once, the order of the pairs does not matter. -/
theorem ofList_of_perm {pairs pairs' : List (String × α)} (h : pairs.Perm pairs')
    (hnodup : (pairs.map (·.1)).Nodup) : ofList pairs = ofList pairs' := by
  have hnodup' : (pairs'.map (·.1)).Nodup := (h.map (·.1)).nodup_iff.1 hnodup
  refine ext_get? fun k => Option.ext fun v => ?_
  rw [get?_ofList hnodup, get?_ofList hnodup', h.mem_iff]

theorem ofList_entries (m : KeyMap α) : ofList m.entries = m :=
  ext_get? fun _ => Option.ext fun _ => (get?_ofList m.nodup_keys).trans get?_eq_some_iff.symm

/-! ## Keeping some keys -/

theorem get?_restrict {m : KeyMap α} {p : String → Bool} {k : String} {v : α} :
    (m.restrict p).get? k = some v ↔ p k = true ∧ m.get? k = some v := by
  simp [get?_eq_some_iff, restrict, and_comm]

end ZonePool.KeyMap
