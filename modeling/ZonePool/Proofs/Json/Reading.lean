-- SUMMARY: A text reads as a document exactly when it is cut into the tokens of this document.
import ZonePool.Proofs.Json.RoundTrip

/-!
# What a text reads as

A reading in progress stands for the tokens that it has taken: those of the
lists and records that have begun, up to where they are now. One token more
leads to a reading that stands for one token more, so a text that is read to its
end consists of the tokens of its document, and of no others.
-/

namespace ZonePool.Json

/-! ## Items with commas between them -/

/-- The tokens of some items with a comma behind each of them. -/
def withCommas {α : Type} (tokens : α → List Token) (as : List α) : List Token :=
  as.flatMap fun a => tokens a ++ [.comma]

/-- The tokens of a member. -/
def memberTokens (m : Option String × Document) : List Token :=
  keyToken m.1 :: .colon :: tokensOf m.2

theorem append_more {α : Type} {tokens : α → List Token} {more : List α → List Token}
    (hmore : ∀ a as, more (a :: as) = .comma :: tokens a ++ more as) {a b : α} {as front : List α}
    (h : a :: as = front ++ [b]) :
    tokens a ++ more as = withCommas tokens front ++ tokens b ++ more [] := by
  induction front generalizing a as with
  | nil =>
    obtain ⟨rfl, rfl⟩ := List.cons.inj h
    rfl
  | cons c front ih =>
    obtain ⟨rfl, has⟩ : a = c ∧ as = front ++ [b] := List.cons.inj h
    cases as with
    | nil => simp at has
    | cons d ds => simp [hmore, ih has, withCommas]

theorem tokensOf_list (items : List Document) (d : Document) :
    tokensOf (.list (items ++ [d])) =
      .listBegin :: (withCommas tokensOf items ++ tokensOf d ++ [.listEnd]) := by
  obtain ⟨e, es, hcons⟩ : ∃ e es, items ++ [d] = e :: es := by cases items <;> exact ⟨_, _, rfl⟩
  have hmore : ∀ a as, moreItems (a :: as) = .comma :: tokensOf a ++ moreItems as :=
    fun _ _ => by rw [moreItems]
  have happend := append_more hmore hcons.symm
  rw [hcons, tokensOf, List.cons_append, happend, moreItems]

theorem tokensOf_record (members : List (Option String × Document)) (m : Option String × Document) :
    tokensOf (.record (members ++ [m])) =
      .recordBegin :: (withCommas memberTokens members ++ memberTokens m ++ [.recordEnd]) := by
  obtain ⟨n, ns, hcons⟩ : ∃ n ns, members ++ [m] = n :: ns := by
    cases members <;> exact ⟨_, _, rfl⟩
  have hmore : ∀ a as, moreMembers (a :: as) = .comma :: memberTokens a ++ moreMembers as :=
    fun _ _ => by rw [moreMembers, memberTokens]
  have happend := append_more hmore hcons.symm
  rw [moreMembers] at happend
  rw [hcons, tokensOf, ← happend]
  rfl

/-! ## Readings in progress -/

/-- A scalar is a document of one token. -/
def Token.Proper : Token → Prop
  | .scalar d => tokensOf d = [.scalar d]
  | _ => True

/-- What has been read of a list or record that has begun. -/
def Frame.taken : Frame → List Token
  | .list items => .listBegin :: withCommas tokensOf items.reverse
  | .record members key =>
    .recordBegin :: (withCommas memberTokens members.reverse ++ [keyToken key, .colon])

/-- What has been read of all lists and records that surround a value. -/
def surrounding : List Frame → List Token
  | [] => []
  | f :: stack => surrounding stack ++ f.taken

namespace Reading

/-- The tokens that lead to a reading in progress. -/
inductive Takes : List Token → Reading → Prop
  | value (stack : List Frame) : Takes (surrounding stack) (.value stack)
  | firstItem (stack : List Frame) : Takes (surrounding stack ++ [.listBegin]) (.firstItem stack)
  | firstKey (stack : List Frame) : Takes (surrounding stack ++ [.recordBegin]) (.firstKey stack)
  | nextKey (members : List (Option String × Document)) (stack : List Frame) :
    Takes (surrounding stack ++ .recordBegin :: withCommas memberTokens members.reverse)
      (.nextKey members stack)
  | keyed (members : List (Option String × Document)) (key : Option String) (stack : List Frame) :
    Takes (surrounding stack ++
      .recordBegin :: (withCommas memberTokens members.reverse ++ [keyToken key]))
      (.keyed members key stack)
  | afterItem (items : List Document) (d : Document) (stack : List Frame) :
    Takes (surrounding (.list items :: stack) ++ tokensOf d) (.afterItem (d :: items) stack)
  | afterMember (members : List (Option String × Document)) (key : Option String) (d : Document)
      (stack : List Frame) :
    Takes (surrounding (.record members key :: stack) ++ tokensOf d)
      (.afterMember ((key, d) :: members) stack)
  | complete (d : Document) : Takes (tokensOf d) (.complete d)

theorem Takes.of_eq {ts us : List Token} {r : Reading} (h : Takes ts r) (heq : ts = us) :
    Takes us r := heq ▸ h

theorem takes_finish (d : Document) (stack : List Frame) :
    Takes (surrounding stack ++ tokensOf d) (finish d stack) := by
  match stack with
  | [] => exact .complete d
  | .list items :: stack => exact .afterItem items d stack
  | .record members key :: stack => exact .afterMember members key d stack

theorem takes_enter {stack : List Frame} {t : Token} {r : Reading} (ht : t.Proper)
    (h : enter stack t = some r) : Takes (surrounding stack ++ [t]) r := by
  cases t with
  | scalar d =>
    obtain rfl := Option.some.inj h
    rw [← show tokensOf d = [.scalar d] from ht]
    exact takes_finish d stack
  | listBegin =>
    obtain rfl := Option.some.inj h
    exact .firstItem stack
  | recordBegin =>
    obtain rfl := Option.some.inj h
    exact .firstKey stack
  | listEnd | recordEnd | comma | colon => cases h

theorem takes_enterKey {members : List (Option String × Document)} {stack : List Frame} {t : Token}
    {r : Reading} (h : enterKey members stack t = some r) :
    Takes (surrounding stack ++ .recordBegin :: (withCommas memberTokens members.reverse ++ [t]))
      r := by
  unfold enterKey at h
  split at h
  · next key =>
    obtain rfl := Option.some.inj h
    exact .keyed members (some key) stack
  · obtain rfl := Option.some.inj h
    exact .keyed members none stack
  · cases h

theorem step_firstItem (stack : List Frame) {t : Token} (h : t ≠ .listEnd) :
    (firstItem stack).step t = enter (.list [] :: stack) t := by
  cases t with
  | listEnd => exact absurd rfl h
  | _ => rfl

theorem step_firstKey (stack : List Frame) {t : Token} (h : t ≠ .recordEnd) :
    (firstKey stack).step t = enterKey [] stack t := by
  cases t with
  | recordEnd => exact absurd rfl h
  | _ => rfl

/-- One token more. -/
theorem Takes.step {ts : List Token} {r r' : Reading} {t : Token} (hr : Takes ts r)
    (ht : t.Proper) (h : r.step t = some r') : Takes (ts ++ [t]) r' := by
  cases hr with
  | value stack => exact takes_enter ht h
  | firstItem stack =>
    by_cases hend : t = .listEnd
    · subst hend
      obtain rfl := Option.some.inj h
      exact (takes_finish _ stack).of_eq (by simp [tokensOf])
    · rw [step_firstItem stack hend] at h
      exact (takes_enter ht h).of_eq (by simp [surrounding, Frame.taken, withCommas])
  | firstKey stack =>
    by_cases hend : t = .recordEnd
    · subst hend
      obtain rfl := Option.some.inj h
      exact (takes_finish _ stack).of_eq (by simp [tokensOf])
    · rw [step_firstKey stack hend] at h
      exact (takes_enterKey h).of_eq (by simp [withCommas])
  | nextKey members stack => exact (takes_enterKey h).of_eq (by simp)
  | keyed members key stack =>
    cases t with
    | colon =>
      obtain rfl := Option.some.inj h
      exact (Takes.value _).of_eq (by simp [surrounding, Frame.taken])
    | _ => cases h
  | afterItem items d stack =>
    cases t with
    | comma =>
      obtain rfl := Option.some.inj h
      exact (Takes.value _).of_eq (by simp [surrounding, Frame.taken, withCommas])
    | listEnd =>
      obtain rfl := Option.some.inj h
      exact (takes_finish _ stack).of_eq (by simp [surrounding, Frame.taken, tokensOf_list])
    | _ => cases h
  | afterMember members key d stack =>
    cases t with
    | comma =>
      obtain rfl := Option.some.inj h
      exact (Takes.nextKey _ _).of_eq
        (by simp [surrounding, Frame.taken, withCommas, memberTokens])
    | recordEnd =>
      obtain rfl := Option.some.inj h
      exact (takes_finish _ stack).of_eq
        (by simp [surrounding, Frame.taken, tokensOf_record, memberTokens])
    | _ => cases h
  | complete d => cases h

theorem Takes.run {ts us : List Token} {r r' : Reading} (hr : Takes ts r)
    (hus : ∀ t ∈ us, t.Proper) (h : r.run us = some r') : Takes (ts ++ us) r' := by
  induction us generalizing ts r with
  | nil =>
    obtain rfl := Option.some.inj h
    exact hr.of_eq (List.append_nil ts).symm
  | cons t us ih =>
    rw [List.forall_mem_cons] at hus
    rw [Reading.run] at h
    split at h
    · next next hnext => exact (ih (hr.step hus.1 hnext) hus.2 h).of_eq (by simp)
    · cases h

end Reading

/-! ## Whole texts -/

theorem proper_of_punctuation {c : Char} {t : Token} (h : punctuation? c = some t) : t.Proper := by
  unfold punctuation? at h
  grind [Token.Proper]

theorem tokensOf_of_numberOf? {sign integer fraction exponent : List Char} {d : Document}
    (h : numberOf? sign integer fraction exponent = some d) : tokensOf d = [.scalar d] := by
  unfold numberOf? at h
  split at h
  · obtain ⟨n, -, rfl⟩ := Option.map_eq_some_iff.1 h
    rfl
  · obtain rfl := Option.some.inj h
    rfl

theorem tokensOf_of_scalar? {cs rest : List Char} {d : Document}
    (h : scalar? cs = some (d, rest)) : tokensOf d = [.scalar d] := by
  unfold scalar? at h
  split at h
  · cases h
    rfl
  · cases h
    rfl
  · cases h
    rfl
  · obtain ⟨⟨body, rest'⟩, -, hbody⟩ := Option.map_eq_some_iff.1 h
    cases hbody
    cases body <;> rfl
  · simp only [number?, Option.bind_eq_bind, Option.bind_eq_some_iff] at h
    obtain ⟨integer, -, fraction, -, exponent, -, number, hnumber, h⟩ := h
    cases h
    exact tokensOf_of_numberOf? hnumber

theorem proper_of_tokens? {text : List Char} {ts : List Token} (h : tokens? text = some ts) :
    ∀ t ∈ ts, t.Proper := by
  fun_induction tokens? text generalizing ts with
  | case1 =>
    cases h
    nofun
  | case2 c cs hspace ih => exact ih h
  | case3 c cs hspace t ht ih =>
    obtain ⟨us, hus, rfl⟩ := Option.map_eq_some_iff.1 h
    exact List.forall_mem_cons.2 ⟨proper_of_punctuation ht, ih hus⟩
  | case4 => cases h
  | case5 c cs hspace hnone value rest hscalar _ ih =>
    obtain ⟨us, hus, rfl⟩ := Option.map_eq_some_iff.1 h
    exact List.forall_mem_cons.2 ⟨tokensOf_of_scalar? hscalar, ih hus⟩

/-- The text consists of the tokens of a document. -/
def TextOf (d : Document) (text : List Char) : Prop :=
  tokens? text = some (tokensOf d)

/-- A text reads as a document exactly when it consists of the tokens of the document. -/
theorem read?_eq_some_iff {text : List Char} {d : Document} :
    read? text = some d ↔ TextOf d text := by
  refine ⟨fun h => ?_, read?_of_tokens?⟩
  obtain ⟨ts, hts, h⟩ := Option.bind_eq_some_iff.1 h
  split at h
  · next e hcomplete =>
    obtain rfl := Option.some.inj h
    have htakes := (Reading.Takes.value []).run (proper_of_tokens? hts) hcomplete
    cases htakes
    exact hts
  · cases h

end ZonePool.Json
