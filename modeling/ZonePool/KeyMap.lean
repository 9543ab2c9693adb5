-- SUMMARY: Finite maps keyed by text, in key order.

/-!
# Maps keyed by text

A `KeyMap` is the list of its entries in strictly increasing key order. The
order is part of the type, so two maps with the same entries are equal and
every traversal visits the keys in the order of their code points.
-/

namespace ZonePool

/-- A finite map from texts, as the list of its entries in increasing key order. -/
structure KeyMap (α : Type) where
  entries : List (String × α)
  increasing : entries.Pairwise (fun a b => a.1 < b.1)

namespace KeyMap

variable {α β : Type}

@[ext] theorem ext {m n : KeyMap α} (h : m.entries = n.entries) : m = n := by
  cases m; cases n; simp_all

/-! ## Views -/

def empty : KeyMap α := ⟨[], .nil⟩

instance : Inhabited (KeyMap α) := ⟨empty⟩

/-- The value stored under a key. -/
def get? (m : KeyMap α) (k : String) : Option α :=
  (m.entries.find? (·.1 == k)).map (·.2)

/-- The keys in increasing order. -/
def keys (m : KeyMap α) : List String :=
  m.entries.map (·.1)

def values (m : KeyMap α) : List α :=
  m.entries.map (·.2)

def isEmpty (m : KeyMap α) : Bool :=
  m.entries.isEmpty

/-! ## Changing one entry -/

/-- Put `f` of the value under `k`, or of `none`, at the place of `k` in a list of entries. -/
def alterEntries (k : String) (f : Option α → α) : List (String × α) → List (String × α)
  | [] => [(k, f none)]
  | e :: es =>
    if k < e.1 then (k, f none) :: e :: es
    else if k = e.1 then (k, f (some e.2)) :: es
    else e :: alterEntries k f es

theorem mem_alterEntries_fst {k : String} {f : Option α → α} {es : List (String × α)}
    {x : String × α} (h : x ∈ alterEntries k f es) : x.1 = k ∨ x ∈ es := by
  induction es with
  | nil => simp_all [alterEntries]
  | cons e es ih =>
    unfold alterEntries at h
    split at h
    · rcases List.mem_cons.1 h with h | h
      · exact .inl (by simp [h])
      · exact .inr h
    · split at h
      · rcases List.mem_cons.1 h with h | h
        · exact .inl (by simp [h])
        · exact .inr (List.mem_cons_of_mem _ h)
      · rcases List.mem_cons.1 h with h | h
        · exact .inr (by simp [h])
        · exact (ih h).imp_right (List.mem_cons_of_mem _)

theorem alterEntries_increasing {k : String} {f : Option α → α} {es : List (String × α)}
    (h : es.Pairwise (fun a b => a.1 < b.1)) :
    (alterEntries k f es).Pairwise (fun a b => a.1 < b.1) := by
  induction es with
  | nil => simp [alterEntries]
  | cons e es ih =>
    rw [List.pairwise_cons] at h
    unfold alterEntries
    split
    · next hk =>
      rw [List.pairwise_cons, List.pairwise_cons]
      refine ⟨fun x hx => ?_, h⟩
      rcases List.mem_cons.1 hx with rfl | hx
      · exact hk
      · exact String.lt_trans hk (h.1 x hx)
    · split
      · next hk =>
        rw [List.pairwise_cons]
        exact ⟨fun x hx => hk ▸ h.1 x hx, h.2⟩
      · next hlt hne =>
        rw [List.pairwise_cons]
        refine ⟨fun x hx => ?_, ih h.2⟩
        rcases mem_alterEntries_fst hx with hx | hx
        · rw [hx]
          refine Decidable.byContradiction fun hge => ?_
          exact hne (String.le_antisymm (String.not_lt.1 hge) (String.not_lt.1 hlt))
        · exact h.1 x hx

/-- Replace the value under a key by `f` of it. -/
def alter (m : KeyMap α) (k : String) (f : Option α → α) : KeyMap α :=
  ⟨alterEntries k f m.entries, alterEntries_increasing m.increasing⟩

/-- Store a value under a key, in place of any earlier one. -/
def insert (m : KeyMap α) (k : String) (v : α) : KeyMap α :=
  m.alter k fun _ => v

/-- The map of a list of pairs; of two pairs with one key the later counts. -/
def ofList (pairs : List (String × α)) : KeyMap α :=
  pairs.foldl (fun m p => m.insert p.1 p.2) empty

/-! ## Keeping some keys, changing all values -/

/-- Keep the entries whose key satisfies `p`. -/
def restrict (m : KeyMap α) (p : String → Bool) : KeyMap α :=
  ⟨m.entries.filter (p ·.1), m.increasing.filter _⟩

def map (m : KeyMap α) (f : α → β) : KeyMap β :=
  ⟨m.entries.map fun e => (e.1, f e.2), by
    rw [List.pairwise_map]
    exact m.increasing⟩

end KeyMap

end ZonePool
