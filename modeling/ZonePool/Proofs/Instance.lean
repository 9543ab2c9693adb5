-- SUMMARY: Instances read back from every text that writes them.
import ZonePool.Instance
import ZonePool.Proofs.Json.RoundTrip

/-!
# Instances read back

What is built for a value reads as that value, field by field. The document of a
list of instances holds no number, so every text of it, however spaced, reads as
the same list.
-/

namespace ZonePool

/-! ## Lists and options -/

namespace Document

variable {α : Type} {value : Document → Option α} {build : α → Document}

theorem listOf?_map (h : ∀ a, value (build a) = some a) (as : List α) :
    listOf? value (.list (as.map build)) = some as := by
  rw [listOf?, List.mapM_map]
  induction as with
  | nil => rfl
  | cons a as ih => simp [h, ih]

theorem listOrNull?_map (h : ∀ a, value (build a) = some a) (as : List α) :
    listOrNull? value (.list (as.map build)) = some as := by
  simp [listOrNull?, nullable?, listOf?_map h]

theorem nullable?_ofNullable {o : Option α} (h : ∀ a ∈ o, value (build a) = some a)
    (hnull : ∀ a, build a ≠ .null) : nullable? value (ofNullable build o) = some o := by
  cases o with
  | none => rfl
  | some a => simp [ofNullable, nullable?, h a rfl, hnull]

end Document

/-! ## Records -/

open Document (listOrNull?_map nullable?_ofNullable)

theorem DataCenter.ofDocument?_toDocument (dc : DataCenter) :
    ofDocument? dc.toDocument = some dc := by
  simp [ofDocument?, toDocument, fields, Document.ofMembers, Document.slots?, Document.slot?,
    Document.orElse?, Document.text?]

namespace Instance

theorem ofDocument?_toDocument (i : Instance) : ofDocument? i.toDocument = some i := by
  have htext (s : String) : Document.text? (.text s) = some s := rfl
  have hendpoints : Document.listOrNull? Document.text? (.ofTexts i.endpoints) = some i.endpoints :=
    listOrNull?_map htext i.endpoints
  have hdataCenter : Document.nullable? DataCenter.ofDocument?
      (.ofNullable DataCenter.toDocument i.dataCenter) = some i.dataCenter :=
    nullable?_ofNullable (fun dc _ => DataCenter.ofDocument?_toDocument dc) nofun
  simp [ofDocument?, toDocument, fields, Document.ofMembers, Document.slots?, Document.slot?,
    Document.orElse?, hendpoints, hdataCenter]

theorem listOfDocument?_listToDocument (instances : List Instance) :
    listOfDocument? (listToDocument instances) = some instances := by
  have hlist : Document.listOrNull? ofDocument? (.list (instances.map toDocument)) = some instances :=
    listOrNull?_map ofDocument?_toDocument instances
  simp [listOfDocument?, listToDocument, Document.ofMembers, Document.slots?, Document.slot?,
    Document.orElse?, hlist]

/-! ## Texts -/

open Json (Numberless)

theorem numberless_ofMembers {members : List (String × Document)}
    (h : ∀ m ∈ members, Numberless m.2) : Numberless (.ofMembers members) := by
  refine .record fun m hm => ?_
  obtain ⟨n, hn, rfl⟩ := List.mem_map.1 hm
  exact h n hn

theorem numberless_ofTexts (texts : List String) : Numberless (.ofTexts texts) := by
  refine .list fun d hd => ?_
  obtain ⟨s, -, rfl⟩ := List.mem_map.1 hd
  exact .text s

theorem numberless_toDocument (i : Instance) : Numberless i.toDocument := by
  have hdataCenter : Numberless (.ofNullable DataCenter.toDocument i.dataCenter) := by
    cases i.dataCenter with
    | none => exact .null
    | some dc => exact numberless_ofMembers (by simp [Numberless.text])
  exact numberless_ofMembers (by simp [numberless_ofTexts, hdataCenter])

theorem numberless_list (instances : List Instance) :
    Numberless (.list (instances.map toDocument)) := by
  refine .list fun d hd => ?_
  obtain ⟨i, -, rfl⟩ := List.mem_map.1 hd
  exact numberless_toDocument i

theorem numberless_listToDocument (instances : List Instance) :
    Numberless (listToDocument instances) :=
  numberless_ofMembers (by simp [numberless_list])

/-- Every text of a list of instances reads as this list. -/
theorem parse?_of_writes {instances : List Instance} {body : String}
    (h : Json.Writes (listToDocument instances) body.toList) : parse? body = some instances := by
  rw [parse?, h.read?_eq_some]
  exact listOfDocument?_listToDocument instances

end Instance

end ZonePool
