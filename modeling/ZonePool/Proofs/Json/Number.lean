-- SUMMARY: Documents with whole numbers read back from the texts that write them.
import ZonePool.Proofs.Json.RoundTrip
import ZonePool.Proofs.Text.Decimal

/-!
# Whole numbers in documents

Unlike the other tokens a number goes on as long as it can, so it is read back
only if what follows it cannot go on with it. Both writers see to that: behind a
number there is a comma, a bracket, a new line, or the end.
-/

namespace ZonePool.Json

variable {rest : List Char}

/-! ## What may follow a number -/

/-- The characters that a number goes on with. -/
def continuesNumber (c : Char) : Bool :=
  c.isDigit || c == '.' || c == 'e' || c == 'E'

/-- A text that no number before it goes on with. -/
def EndsNumber (rest : List Char) : Prop :=
  ∀ c ∈ rest.head?, continuesNumber c = false

theorem endsNumber_nil : EndsNumber [] := nofun

theorem endsNumber_cons {c : Char} (h : continuesNumber c = false) (rest : List Char) :
    EndsNumber (c :: rest) := by
  rintro d ⟨⟩
  exact h

theorem EndsNumber.append {text : List Char} (htext : EndsNumber text) (h : EndsNumber rest) :
    EndsNumber (text ++ rest) := by
  cases text with
  | nil => exact h
  | cons c cs => exact endsNumber_cons (htext c rfl) _

/-! ## One number -/

/-- The first character is a digit, and no leading zero. -/
theorem exists_decimal_cons (n : Nat) :
    ∃ c cs, Text.decimal n = c :: cs ∧ c.isDigit = true ∧ (c = '0' → n = 0) := by
  obtain ⟨c, cs, hcons⟩ := List.exists_cons_of_ne_nil (Text.decimal_ne_nil n)
  refine ⟨c, cs, hcons, Text.isDigit_of_mem_decimal (n := n) (by simp [hcons]), ?_⟩
  induction n using Nat.strongRecOn generalizing cs with
  | ind n ih =>
    rw [Text.decimal, Nat.toDigits_eq_if (by decide)] at hcons
    split at hcons
    · next hsmall =>
      obtain ⟨rfl, -⟩ := List.cons.inj hcons
      exact Nat.digitChar_eq_zero.1
    · next hlarge =>
      obtain ⟨d, ds, hquotient⟩ := List.exists_cons_of_ne_nil (Text.decimal_ne_nil (n / 10))
      rw [Text.decimal] at hquotient
      rw [hquotient, List.cons_append] at hcons
      obtain ⟨rfl, -⟩ := List.cons.inj hcons
      have hnonzero := ih (n / 10) (by omega) ds hquotient
      intro hc
      have := hnonzero hc
      omega

theorem spanDigits_decimal (n : Nat) (h : EndsNumber rest) :
    spanDigits (Text.decimal n ++ rest) = (Text.decimal n, rest) := by
  have hdigits : ∀ c ∈ Text.decimal n, c.isDigit = true := fun _ => Text.isDigit_of_mem_decimal
  cases rest with
  | nil => simpa [spanDigits] using Text.cut_of_forall hdigits
  | cons c cs =>
    have hc : c.isDigit = false := by
      have := h c rfl
      simp_all [continuesNumber]
    exact Text.cut_append_cons hdigits hc

theorem spanInteger?_decimal (n : Nat) (h : EndsNumber rest) :
    spanInteger? (Text.decimal n ++ rest) = some (Text.decimal n, rest) := by
  by_cases hzero : n = 0
  · subst hzero
    rfl
  · have hspan := spanDigits_decimal n h
    obtain ⟨c, cs, hcons, -, hnonzero⟩ := exists_decimal_cons n
    rw [hcons, List.cons_append] at hspan ⊢
    unfold spanInteger?
    split
    · next heq =>
      cases heq
      exact absurd (hnonzero rfl) hzero
    · rw [hspan]

theorem spanFraction?_of_endsNumber (h : EndsNumber rest) : spanFraction? rest = some ([], rest) := by
  unfold spanFraction?
  split
  · cases h '.' rfl
  · rfl

theorem spanExponent?_of_endsNumber (h : EndsNumber rest) : spanExponent? rest = some ([], rest) := by
  unfold spanExponent?
  split
  · rfl
  · next c cs =>
    split
    · next hexponent => rcases hexponent with rfl | rfl <;> cases h _ rfl
    · rfl

section

variable {c : Char} (h : c.isDigit = true)
include h

theorem spanMinus_of_isDigit (cs : List Char) : spanMinus (c :: cs) = ([], c :: cs) := by
  unfold spanMinus
  split
  · next heq =>
    cases heq
    cases h
  · rfl

theorem isSpace_of_isDigit : isSpace c = false := by
  rw [← Bool.not_eq_true]
  intro hspace
  simp only [isSpace, Bool.or_eq_true, beq_iff_eq] at hspace
  rcases hspace with ((rfl | rfl) | rfl) | rfl <;> cases h

theorem punctuation?_of_isDigit : punctuation? c = none := by
  unfold punctuation?
  split
  all_goals first
    | rfl
    | cases h

theorem scalar?_of_isDigit (cs : List Char) : scalar? (c :: cs) = number? (c :: cs) := by
  unfold scalar?
  split
  all_goals first
    | rfl
    | next heq =>
      cases heq
      cases h

end

theorem number?_decimal (n : Nat) (h : EndsNumber rest) :
    number? (Text.decimal n ++ rest) = some (.whole n, rest) := by
  have hminus : spanMinus (Text.decimal n ++ rest) = ([], Text.decimal n ++ rest) := by
    obtain ⟨c, cs, hcons, hdigit, -⟩ := exists_decimal_cons n
    rw [hcons, List.cons_append, spanMinus_of_isDigit hdigit]
  simp [number?, hminus, spanInteger?_decimal n h, spanFraction?_of_endsNumber h,
    spanExponent?_of_endsNumber h, numberOf?, Text.readDigits?_decimal]

theorem tokens?_decimal (n : Nat) (h : EndsNumber rest) :
    tokens? (Text.decimal n ++ rest) = (tokens? rest).map (.scalar (.whole n) :: ·) := by
  have hnumber := number?_decimal n h
  obtain ⟨c, cs, hcons, hdigit, -⟩ := exists_decimal_cons n
  rw [hcons, List.cons_append] at hnumber ⊢
  rw [← scalar?_of_isDigit hdigit] at hnumber
  exact tokens?_of_scalar (isSpace_of_isDigit hdigit) (punctuation?_of_isDigit hdigit) hnumber

/-! ## Texts cut into tokens -/

/-- A text is cut into tokens wherever no number goes on behind it. -/
def Cuts (ts : List Token) (text : List Char) : Prop :=
  ∀ rest, EndsNumber rest → tokens? (text ++ rest) = (tokens? rest).map (ts ++ ·)

theorem Spells.cuts {ts : List Token} {text : List Char} (h : Spells ts text) : Cuts ts text := by
  intro rest hrest
  induction h with
  | blank hspace => simp [tokens?_blank hspace]
  | token hspace hlexeme _ ih =>
    rw [List.append_assoc, List.append_assoc, tokens?_blank hspace, tokens?_lexeme hlexeme, ih,
      Option.map_map]
    rfl

namespace Cuts

variable {ts us : List Token} {text more : List Char}

theorem decimal (n : Nat) : Cuts [.scalar (.whole n)] (Text.decimal n) :=
  fun _ hrest => tokens?_decimal n hrest

theorem tokens?_eq_some (h : Cuts ts text) : tokens? text = some ts := by
  simpa [tokens?] using h [] endsNumber_nil

theorem cons {t : Token} {lexeme : List Char} (h : Lexeme t lexeme) (htext : Cuts ts text) :
    Cuts (t :: ts) (lexeme ++ text) := by
  intro rest hrest
  rw [List.append_assoc, tokens?_lexeme h, htext rest hrest, Option.map_map]
  rfl

theorem blank_append {space : List Char} (hspace : IsBlank space) (h : Cuts ts text) :
    Cuts ts (space ++ text) := by
  intro rest hrest
  rw [List.append_assoc, tokens?_blank hspace, h rest hrest]

theorem append (h : Cuts ts text) (hends : EndsNumber more) (hmore : Cuts us more) :
    Cuts (ts ++ us) (text ++ more) := by
  intro rest hrest
  rw [List.append_assoc, h _ (hends.append hrest), hmore rest hrest, Option.map_map]
  simp [Function.comp_def]

/-- Texts with commas between them are cut into what follows the opening bracket of a list or
record. -/
theorem intercalate {α : Type} {tokens : α → List Token} {more : List α → List Token}
    {item : α → List Char} {close : List Char} {a : α} {as : List α}
    (hmore : ∀ b bs, more (b :: bs) = .comma :: tokens b ++ more bs)
    (hitem : ∀ b ∈ a :: as, Cuts (tokens b) (item b)) (hends : EndsNumber close)
    (hclose : Cuts (more []) close) :
    Cuts (tokens a ++ more as) ([','].intercalate ((a :: as).map item) ++ close) := by
  induction as generalizing a with
  | nil => simpa using (hitem a List.mem_cons_self).append hends hclose
  | cons b bs ih =>
    rw [List.forall_mem_cons] at hitem
    have hcuts := hitem.1.append (endsNumber_cons (by decide) _) (Cuts.cons .comma (ih hitem.2))
    simpa [hmore] using hcuts

end Cuts

/-! ## Documents -/

/-- The documents whose numbers are whole. -/
inductive Integral : Document → Prop where
  | null : Integral .null
  | truth (b : Bool) : Integral (.truth b)
  | whole (n : Nat) : Integral (.whole n)
  | text (s : String) : Integral (.text s)
  | unpaired : Integral .unpaired
  | list {items : List Document} : (∀ d ∈ items, Integral d) → Integral (.list items)
  | record {members : List (Option String × Document)} :
    (∀ m ∈ members, Integral m.2) → Integral (.record members)

/-- Every text that is cut into the tokens of a document is read as this document. -/
theorem read?_of_cuts {d : Document} {text : List Char} (h : Cuts (tokensOf d) text) :
    read? text = some d :=
  read?_of_tokens? h.tokens?_eq_some

theorem cuts_list {item : Document → List Char} {close : List Char} {d : Document}
    {ds : List Document} (hitem : ∀ e ∈ d :: ds, Cuts (tokensOf e) (item e))
    (hends : EndsNumber close) (hclose : Cuts [.listEnd] close) :
    Cuts (tokensOf (.list (d :: ds)))
      ('[' :: ([','].intercalate ((d :: ds).map item) ++ close)) := by
  rw [tokensOf]
  exact .cons .listBegin (.intercalate (fun _ _ => by rw [moreItems]) hitem hends hclose)

theorem cuts_record {member : Option String × Document → List Char} {close : List Char}
    {m : Option String × Document} {ms : List (Option String × Document)}
    (hmember : ∀ n ∈ m :: ms, Cuts (keyToken n.1 :: .colon :: tokensOf n.2) (member n))
    (hends : EndsNumber close) (hclose : Cuts [.recordEnd] close) :
    Cuts (tokensOf (.record (m :: ms)))
      ('\x7b' :: ([','].intercalate ((m :: ms).map member) ++ close)) := by
  rw [tokensOf]
  exact .cons .recordBegin (.intercalate (fun _ _ => by rw [moreMembers]) hmember hends hclose)

theorem cuts_compact {d : Document} (h : Integral d) : Cuts (tokensOf d) (compact d) := by
  induction h with
  | null => exact (writes_compact .null).cuts
  | truth b => exact (writes_compact (.truth b)).cuts
  | whole n => exact .decimal n
  | text s => exact (writes_compact (.text s)).cuts
  | unpaired => exact (writes_compact .unpaired).cuts
  | @list items _ ih =>
    cases items with
    | nil => exact (writes_compact (.list (List.forall_mem_nil _))).cuts
    | cons d ds =>
      rw [compact, compactItems_eq]
      exact cuts_list ih (endsNumber_cons (by decide) _) (Spells.lexeme .listEnd).cuts
  | @record members _ ih =>
    cases members with
    | nil => exact (writes_compact (.record (List.forall_mem_nil _))).cuts
    | cons m ms =>
      rw [compact, compactMembers_eq]
      exact cuts_record (fun n hn => .cons (lexeme_quoteKey n.1) (.cons .colon (ih n hn)))
        (endsNumber_cons (by decide) _) (Spells.lexeme .recordEnd).cuts

theorem endsNumber_lineAt (depth : Nat) (rest : List Char) : EndsNumber (lineAt depth ++ rest) :=
  endsNumber_cons (by decide) _

theorem cuts_indented {d : Document} (h : Integral d) (depth : Nat) :
    Cuts (tokensOf d) (indented depth d) := by
  induction h generalizing depth with
  | null => exact (writes_indented .null depth).cuts
  | truth b => exact (writes_indented (.truth b) depth).cuts
  | whole n => exact .decimal n
  | text s => exact (writes_indented (.text s) depth).cuts
  | unpaired => exact (writes_indented .unpaired depth).cuts
  | @list items _ ih =>
    cases items with
    | nil => exact (writes_indented (.list (List.forall_mem_nil _)) depth).cuts
    | cons d ds =>
      rw [indented, indentedItems_eq, List.append_assoc]
      exact cuts_list (fun e he => .blank_append (isBlank_lineAt _) (ih e he _))
        (endsNumber_lineAt _ _) (.blank_append (isBlank_lineAt _) (Spells.lexeme .listEnd).cuts)
  | @record members _ ih =>
    cases members with
    | nil => exact (writes_indented (.record (List.forall_mem_nil _)) depth).cuts
    | cons m ms =>
      rw [indented, indentedMembers_eq, List.append_assoc]
      refine cuts_record (fun n hn => .blank_append (isBlank_lineAt _) ?_)
        (endsNumber_lineAt _ _) (.blank_append (isBlank_lineAt _) (Spells.lexeme .recordEnd).cuts)
      exact .cons (lexeme_quoteKey n.1) (.cons .colon (.blank_append isBlank_space (ih n hn _)))

/-- Both writers are read back. -/
theorem read?_render {d : Document} (h : Integral d) : read? (render d).toList = some d := by
  rw [render, String.toList_ofList]
  exact read?_of_cuts (cuts_compact h)

theorem read?_pretty {d : Document} (h : Integral d) : read? (pretty d).toList = some d := by
  rw [pretty, String.toList_ofList]
  exact read?_of_cuts (cuts_indented h 0)

end ZonePool.Json
