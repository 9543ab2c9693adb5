-- SUMMARY: Spellings of a record that leave its slots alone, and faults that keep it from being read.
import Mathlib.Data.List.Pairwise
import Mathlib.Data.Option.Basic
import ZonePool.Document

/-!
# Spellings of a record

A record says the same in many ways: its members may stand in any order, with
others among them that belong to no field, a field may go by any of its names,
and one that is missing may be written down with nothing in it. A slot of a
record depends on none of this, since it only looks for the members under the
names of its field. For the same reason a field that is there twice is found
twice, whatever stands around it.
-/

namespace ZonePool.Document

/-! ## Fields -/

/-- A field of a record: its names, what stands for it when it is missing, which of its values are
other spellings of each other, and which ones it does not take. -/
structure Field where
  names : List String
  blank : Document
  respells : Document → Document → Prop
  refuses : Document → Prop

/-- One change to a document that changes nothing in it as a record of some fields. -/
inductive Respells (fields : List Field) : Document → Document → Prop
  /-- The members in another order. -/
  | reorder {members members' : List (Option String × Document)} (h : members.Perm members') :
    Respells fields (.record members) (.record members')
  /-- A member that belongs to no field. -/
  | unknown {before after : List (Option String × Document)} {key : String} (value : Document)
      (h : ∀ f ∈ fields, key ∉ f.names) :
    Respells fields (.record (before ++ after)) (.record (before ++ (some key, value) :: after))
  /-- A field under another of its names. -/
  | rename {before after : List (Option String × Document)} {f : Field} {name name' : String}
      (value : Document) (hf : f ∈ fields) (hname : name ∈ f.names) (hname' : name' ∈ f.names) :
    Respells fields (.record (before ++ (some name, value) :: after))
      (.record (before ++ (some name', value) :: after))
  /-- A field that was missing. -/
  | blank {before after : List (Option String × Document)} {f : Field} {name : String}
      (hf : f ∈ fields) (hname : name ∈ f.names)
      (hmissing : ∀ m ∈ before ++ after, ∀ other ∈ f.names, m.1 ≠ some other) :
    Respells fields (.record (before ++ after)) (.record (before ++ (some name, f.blank) :: after))
  /-- The value of a field in another spelling. -/
  | member {before after : List (Option String × Document)} {f : Field} {name : String}
      {value value' : Document} (hf : f ∈ fields) (hname : name ∈ f.names)
      (h : f.respells value value') :
    Respells fields (.record (before ++ (some name, value) :: after))
      (.record (before ++ (some name, value') :: after))
  /-- The same for a record that is written by position. -/
  | item {before after : List Document} {f : Field} {value value' : Document}
      (hf : fields[before.length]? = some f) (h : f.respells value value') :
    Respells fields (.list (before ++ value :: after)) (.list (before ++ value' :: after))

/-- What keeps a document from being a record of some fields: a key that is no text, a field that is
there twice, or one with a value that it does not take. -/
inductive Faulty (fields : List Field) : Document → Prop
  | unpaired {members : List (Option String × Document)} {value : Document}
      (h : (none, value) ∈ members) : Faulty fields (.record members)
  | twice {members : List (Option String × Document)} {f : Field} {name name' : String}
      {value value' : Document} (hf : f ∈ fields) (hname : name ∈ f.names)
      (hname' : name' ∈ f.names) (h : [(some name, value), (some name', value')].Sublist members) :
    Faulty fields (.record members)
  | member {members : List (Option String × Document)} {f : Field} {name : String}
      {value : Document} (hf : f ∈ fields) (hname : name ∈ f.names)
      (hmember : (some name, value) ∈ members) (h : f.refuses value) :
    Faulty fields (.record members)
  | item {items : List Document} {n : Nat} {f : Field} {value : Document}
      (hf : fields[n]? = some f) (hvalue : items[n]? = some value) (h : f.refuses value) :
    Faulty fields (.list items)

/-! ## One slot -/

section

variable {names : List String} {members members' : List (Option String × Document)}

/-- The member is one under the names of a field. -/
def isNamed (names : List String) (m : Option String × Document) : Bool :=
  names.any (some · == m.1)

theorem isNamed_iff {m : Option String × Document} :
    isNamed names m = true ↔ ∃ name ∈ names, m.1 = some name := by
  simp only [isNamed, List.any_eq_true, beq_iff_eq]
  exact exists_congr fun _ => and_congr_right' eq_comm

theorem isNamed_of_mem {name : String} (h : name ∈ names) (value : Document) :
    isNamed names (some name, value) = true :=
  isNamed_iff.2 ⟨name, h, rfl⟩

theorem isNamed_of_not_mem {name : String} (h : name ∉ names) (value : Document) :
    isNamed names (some name, value) = false := by
  rw [Bool.eq_false_iff, ne_eq, isNamed_iff]
  rintro ⟨other, hother, heq⟩
  exact h (Option.some.inj heq ▸ hother)

/-- The slot for some members that have its names. -/
def slotOf? : List (Option String × Document) → Option (Option Document)
  | [] => some none
  | [m] => some (some m.2)
  | _ => none

theorem slot?_eq (names : List String) (members : List (Option String × Document)) :
    slot? names members = slotOf? (members.filter (isNamed names)) := by
  unfold slot? slotOf?
  rfl

theorem slotOf?_of_perm (h : members.Perm members') : slotOf? members = slotOf? members' := by
  match members, members' with
  | [], _ => rw [h.nil_eq]
  | [m], _ => rw [List.singleton_perm.1 h]
  | m :: n :: ms, [] => exact absurd h.length_eq (by simp)
  | m :: n :: ms, [_] => exact absurd h.length_eq (by simp)
  | m :: n :: ms, _ :: _ :: _ => rfl

theorem slot?_of_perm (h : members.Perm members') : slot? names members = slot? names members' := by
  rw [slot?_eq, slot?_eq, slotOf?_of_perm (h.filter _)]

theorem slot?_of_missing (h : members.any (isNamed names) = false) :
    slot? names members = some none := by
  rw [slot?_eq, List.filter_eq_nil_iff.2 (List.any_eq_false.1 h)]
  rfl

/-- A slot that is found holds the value of every member under its names. -/
theorem eq_of_slot? {m : Option String × Document} {slot : Option Document}
    (h : slot? names members = some slot) (hm : m ∈ members) (hnamed : isNamed names m = true) :
    slot = some m.2 := by
  have hmem : m ∈ members.filter (isNamed names) := List.mem_filter.2 ⟨hm, hnamed⟩
  rw [slot?_eq] at h
  unfold slotOf? at h
  split at h
  · next hfilter => simp [hfilter] at hmem
  · next n hfilter =>
    rw [hfilter, List.mem_singleton] at hmem
    rw [hmem, ← Option.some.inj h]
  · cases h

theorem slot?_of_twice {m n : Option String × Document} (h : [m, n].Sublist members)
    (hm : isNamed names m = true) (hn : isNamed names n = true) : slot? names members = none := by
  have hsublist := h.filter (isNamed names)
  rw [List.filter_cons_of_pos hm, List.filter_cons_of_pos hn] at hsublist
  have hlength := hsublist.length_le
  rw [slot?_eq]
  unfold slotOf?
  split
  · next hfilter => simp [hfilter] at hlength
  · next hfilter => simp [hfilter] at hlength
  · rfl

/-- What a member makes of a slot, wherever it stands. -/
theorem slot?_middle (before : List (Option String × Document)) (m : Option String × Document)
    (after : List (Option String × Document)) :
    slot? names (before ++ m :: after) =
      if isNamed names m then
        if (before ++ after).any (isNamed names) then none else some (some m.2)
      else slot? names (before ++ after) := by
  rw [slot?_of_perm List.perm_middle, slot?_eq, slot?_eq, List.filter_cons]
  split
  · cases hfilter : (before ++ after).filter (isNamed names) with
    | nil =>
      have hany : (before ++ after).any (isNamed names) = false :=
        List.any_eq_false.2 (List.filter_eq_nil_iff.1 hfilter)
      rw [hany]
      rfl
    | cons n ns =>
      have hn : n ∈ (before ++ after).filter (isNamed names) := hfilter ▸ List.mem_cons_self
      have hany : (before ++ after).any (isNamed names) = true :=
        List.any_eq_true.2 ⟨n, List.mem_filter.1 hn⟩
      rw [hany]
      rfl
  · rfl

end

/-! ## All slots -/

/-- Two slots of a field that mean the same. -/
inductive Field.Same (f : Field) : Option Document → Option Document → Prop
  | refl (slot : Option Document) : Same f slot slot
  | blank : Same f none (some f.blank)
  | respelled {value value' : Document} (h : f.respells value value') :
    Same f (some value) (some value')

/-- A reader that cannot tell spellings apart reads the same from them. -/
theorem Field.Same.read_eq {α : Type} {f : Field} {slot slot' : Option Document}
    (h : f.Same slot slot') {r : Option Document → α} (hblank : r none = r (some f.blank))
    (hrespells : ∀ value value', f.respells value value' → r (some value) = r (some value')) :
    r slot = r slot' := by
  cases h with
  | refl slot => rfl
  | blank => exact hblank
  | respelled h => exact hrespells _ _ h

theorem Field.rel_same (f : Field) (slot : Option (Option Document)) :
    Option.Rel f.Same slot slot := by
  cases slot with
  | none => exact .none
  | some slot => exact .some (.refl slot)

/-- Slots that mean the same, field by field. -/
inductive SameSlots : List Field → List (Option Document) → List (Option Document) → Prop
  | nil : SameSlots [] [] []
  | cons {f : Field} {fields : List Field} {slot slot' : Option Document}
      {slots slots' : List (Option Document)} (h : f.Same slot slot')
      (hrest : SameSlots fields slots slots') :
    SameSlots (f :: fields) (slot :: slots) (slot' :: slots')

/-- One of the slots holds what its field does not take. -/
inductive RefusedSlot : List Field → List (Option Document) → Prop
  | here {f : Field} {fields : List Field} {value : Document} {slots : List (Option Document)}
      (h : f.refuses value) : RefusedSlot (f :: fields) (some value :: slots)
  | there {f : Field} {fields : List Field} {slot : Option Document}
      {slots : List (Option Document)} (h : RefusedSlot fields slots) :
    RefusedSlot (f :: fields) (slot :: slots)

/-- No name is that of two fields. -/
def Separate (fields : List Field) : Prop :=
  fields.Pairwise fun f g => ∀ name ∈ f.names, name ∉ g.names

section

variable {fields : List Field} {members members' : List (Option String × Document)}

theorem sameSlots_mapM (h : ∀ f ∈ fields,
    Option.Rel f.Same (slot? f.names members) (slot? f.names members')) :
    Option.Rel (SameSlots fields) ((fields.map Field.names).mapM (slot? · members))
      ((fields.map Field.names).mapM (slot? · members')) := by
  induction fields with
  | nil => exact .some .nil
  | cons f fields ih =>
    rw [List.forall_mem_cons] at h
    obtain ⟨hslot, hrest⟩ := h
    have hslots := ih hrest
    simp only [List.map_cons, List.mapM_cons]
    revert hslot hslots
    generalize slot? f.names members = slot, slot? f.names members' = slot'
    generalize (fields.map Field.names).mapM (slot? · members) = slots,
      (fields.map Field.names).mapM (slot? · members') = slots'
    rintro (hslot | _) (hslots | _)
    · exact .some (.cons hslot hslots)
    all_goals exact .none

/-- No other field than its own finds a name. -/
theorem Separate.not_mem {f g : Field} {name : String} (h : Separate fields) (hf : f ∈ fields)
    (hg : g ∈ fields) (hname : name ∈ f.names) (hne : g ≠ f) : name ∉ g.names := by
  have hsymm : Std.Symm fun f g : Field => ∀ name ∈ f.names, name ∉ g.names :=
    ⟨fun f g h name hg hf => h name hf hg⟩
  exact h.forall hf hg (Ne.symm hne) name hname

/-- A change that no field but one can see. -/
theorem Separate.sameSlots {f : Field} {before after : List (Option String × Document)}
    {name name' : String} {value value' : Document} (h : Separate fields) (hf : f ∈ fields)
    (hname : name ∈ f.names) (hname' : name' ∈ f.names) (hsame : f.Same (some value) (some value')) :
    ∀ g ∈ fields, Option.Rel g.Same (slot? g.names (before ++ (some name, value) :: after))
      (slot? g.names (before ++ (some name', value') :: after)) := by
  intro g hg
  rw [slot?_middle, slot?_middle]
  by_cases hgf : g = f
  · subst hgf
    rw [if_pos (isNamed_of_mem hname value), if_pos (isNamed_of_mem hname' value')]
    split
    · exact .none
    · exact .some hsame
  · rw [isNamed_of_not_mem (h.not_mem hf hg hname hgf),
      isNamed_of_not_mem (h.not_mem hf hg hname' hgf)]
    exact g.rel_same _

theorem sameSlots_record {surplus : Surplus}
    (hkeys : (members.any fun m => m.1.isNone) = members'.any fun m => m.1.isNone)
    (h : ∀ f ∈ fields, Option.Rel f.Same (slot? f.names members) (slot? f.names members')) :
    Option.Rel (SameSlots fields) ((record members).slots? surplus (fields.map Field.names))
      ((record members').slots? surplus (fields.map Field.names)) := by
  simp only [slots?, hkeys]
  split
  · exact .none
  · exact sameSlots_mapM h

theorem length_positions (names : List (List String)) (items : List Document) :
    (positions names items).length = names.length := by
  induction names generalizing items with
  | nil => rfl
  | cons _ names ih => cases items <;> simp [positions, ih]

theorem SameSlots.refl {slots : List (Option Document)} (h : slots.length = fields.length) :
    SameSlots fields slots slots := by
  induction fields generalizing slots with
  | nil =>
    obtain rfl := List.length_eq_zero_iff.1 h
    exact .nil
  | cons f fields ih =>
    cases slots with
    | nil => cases h
    | cons slot slots => exact .cons (.refl slot) (ih (Nat.succ.inj h))

theorem sameSlots_positions {f : Field} {value value' : Document} {before : List Document}
    (hf : fields[before.length]? = some f) (h : f.respells value value') (after : List Document) :
    SameSlots fields (positions (fields.map Field.names) (before ++ value :: after))
      (positions (fields.map Field.names) (before ++ value' :: after)) := by
  induction before generalizing fields with
  | nil =>
    cases fields with
    | nil => cases hf
    | cons g fields =>
      obtain rfl := Option.some.inj hf
      exact .cons (.respelled h) (.refl (by rw [length_positions, List.length_map]))
  | cons item before ih =>
    cases fields with
    | nil => cases hf
    | cons g fields => exact .cons (.refl _) (ih hf)

/-- A change to the spelling changes no slot but for another that means the same. -/
theorem Respells.sameSlots {d d' : Document} (hfields : Separate fields)
    (h : Respells fields d d') (surplus : Surplus) :
    Option.Rel (SameSlots fields) (d.slots? surplus (fields.map Field.names))
      (d'.slots? surplus (fields.map Field.names)) := by
  cases h with
  | reorder hperm =>
    refine sameSlots_record hperm.any_eq fun f _ => ?_
    rw [slot?_of_perm hperm]
    exact f.rel_same _
  | unknown value hunknown =>
    refine sameSlots_record (by simp) fun f hf => ?_
    rw [slot?_middle, isNamed_of_not_mem (hunknown f hf)]
    exact f.rel_same _
  | rename value hf hname hname' =>
    exact sameSlots_record (by simp) (hfields.sameSlots hf hname hname' (.refl _))
  | @blank before after f name hf hname hmissing =>
    refine sameSlots_record (by simp) fun g hg => ?_
    rw [slot?_middle]
    by_cases hgf : g = f
    · subst hgf
      have hnone : (before ++ after).any (isNamed g.names) = false := by
        rw [List.any_eq_false]
        intro m hm hnamed
        obtain ⟨other, hother, hkey⟩ := isNamed_iff.1 hnamed
        exact hmissing m hm other hother hkey
      rw [slot?_of_missing hnone, if_pos (isNamed_of_mem hname _), hnone]
      exact .some .blank
    · rw [isNamed_of_not_mem (hfields.not_mem hf hg hname hgf)]
      exact g.rel_same _
  | member hf hname hvalue =>
    exact sameSlots_record (by simp) (hfields.sameSlots hf hname hname (.respelled hvalue))
  | @item before after f value value' hf hvalue =>
    have hpositions := sameSlots_positions hf hvalue after
    simp only [slots?, List.length_append, List.length_cons]
    split
    · exact .some hpositions
    · exact .none

theorem refusedSlot_mapM {f : Field} {slots : List (Option Document)} (hf : f ∈ fields)
    (hslot : ∀ slot, slot? f.names members = some slot → ∃ value, slot = some value ∧ f.refuses value)
    (h : (fields.map Field.names).mapM (slot? · members) = some slots) :
    RefusedSlot fields slots := by
  induction fields generalizing slots with
  | nil => cases hf
  | cons g fields ih =>
    simp only [List.map_cons, List.mapM_cons, Option.bind_eq_bind, Option.bind_eq_some_iff,
      Option.pure_def, Option.some.injEq] at h
    obtain ⟨slot, hfound, rest, hrest, rfl⟩ := h
    rcases List.mem_cons.1 hf with rfl | hf
    · obtain ⟨value, rfl, hrefuses⟩ := hslot slot hfound
      exact .here hrefuses
    · exact .there (ih hf hrest)

theorem refusedSlot_positions {n : Nat} {f : Field} {items : List Document} {value : Document}
    (hf : fields[n]? = some f) (hvalue : items[n]? = some value) (h : f.refuses value) :
    RefusedSlot fields (positions (fields.map Field.names) items) := by
  induction n generalizing fields items with
  | zero =>
    cases fields <;> cases items <;> simp at hf hvalue
    obtain ⟨rfl, rfl⟩ := And.intro hf hvalue
    exact .here h
  | succ n ih =>
    cases fields <;> cases items <;> simp at hf hvalue
    exact .there (ih hf hvalue)

/-- Slots of a document with a fault, if it has any, are not all taken. -/
theorem Faulty.refusedSlot {d : Document} {surplus : Surplus} {slots : List (Option Document)}
    (h : Faulty fields d) (hslots : d.slots? surplus (fields.map Field.names) = some slots) :
    RefusedSlot fields slots := by
  cases h with
  | @unpaired members value hmember =>
    have hkeys : (members.any fun m => m.1.isNone) = true :=
      List.any_eq_true.2 ⟨(none, value), hmember, rfl⟩
    simp only [slots?] at hslots
    rw [if_pos hkeys] at hslots
    cases hslots
  | twice hf hname hname' htwice =>
    simp only [slots?] at hslots
    split at hslots
    · cases hslots
    · refine refusedSlot_mapM hf (fun slot hslot => ?_) hslots
      rw [slot?_of_twice htwice (isNamed_of_mem hname _) (isNamed_of_mem hname' _)] at hslot
      cases hslot
  | member hf hname hmember hrefuses =>
    simp only [slots?] at hslots
    split at hslots
    · cases hslots
    · refine refusedSlot_mapM hf (fun slot hslot => ?_) hslots
      exact ⟨_, eq_of_slot? hslot hmember (isNamed_of_mem hname _), hrefuses⟩
  | item hf hvalue hrefuses =>
    simp only [slots?] at hslots
    split at hslots
    · obtain rfl := Option.some.inj hslots
      exact refusedSlot_positions hf hvalue hrefuses
    · cases hslots

end

/-! ## Readers -/

section

variable {α : Type} {fields : List Field} {surplus : Surplus} {d d' : Document}
  {build : List (Option Document) → Option α}

/-- What is built from the slots is the same for all spellings. -/
theorem Respells.bind_eq (h : Respells fields d d') (hfields : Separate fields)
    (hbuild : ∀ slots slots', SameSlots fields slots slots' → build slots = build slots') :
    (d.slots? surplus (fields.map Field.names)).bind build =
      (d'.slots? surplus (fields.map Field.names)).bind build := by
  have hslots := h.sameSlots hfields surplus
  generalize d.slots? surplus (fields.map Field.names) = slots,
    d'.slots? surplus (fields.map Field.names) = slots' at hslots
  obtain hslots | _ := hslots
  · exact hbuild _ _ hslots
  · rfl

/-- Nothing is built from a document with a fault. -/
theorem Faulty.bind_eq_none (h : Faulty fields d)
    (hbuild : ∀ slots, RefusedSlot fields slots → build slots = none) :
    (d.slots? surplus (fields.map Field.names)).bind build = none := by
  cases hslots : d.slots? surplus (fields.map Field.names) with
  | none => rfl
  | some slots => exact hbuild slots (h.refusedSlot hslots)

end

/-! ## Records within records -/

section

variable {α : Type} {value : Document → Option α} {fields : List Field} {d d' : Document}

theorem Respells.nullable?_eq (h : Respells fields d d') (hvalue : value d = value d') :
    nullable? value d = nullable? value d' := by
  cases h <;> exact congrArg (Option.map some) hvalue

theorem Faulty.nullable?_eq_none (h : Faulty fields d) (hvalue : value d = none) :
    nullable? value d = none := by
  cases h <;> exact congrArg (Option.map some) hvalue

theorem text?_eq_none (h : ∀ s, d ≠ .text s) : text? d = none := by
  cases d with
  | text s => exact absurd rfl (h s)
  | _ => rfl

theorem listOrNull?_middle (before : List Document) (h : value d = value d')
    (after : List Document) :
    listOrNull? value (.list (before ++ d :: after)) =
      listOrNull? value (.list (before ++ d' :: after)) := by
  simp only [listOrNull?, nullable?, listOf?, List.mapM_append, List.mapM_cons, h]

theorem listOrNull?_eq_none {items : List Document} (hd : d ∈ items) (h : value d = none) :
    listOrNull? value (.list items) = none := by
  have hmapM : items.mapM value = none := by
    induction items with
    | nil => cases hd
    | cons e items ih =>
      rcases List.mem_cons.1 hd with rfl | hd
      · simp [List.mapM_cons, h]
      · simp [List.mapM_cons, ih hd]
  simp [listOrNull?, nullable?, listOf?, hmapM]

end

end ZonePool.Document
