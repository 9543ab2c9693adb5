-- SUMMARY: Texts that spell tokens, with any white space between them.
import ZonePool.Proofs.Json.Quote

/-!
# Spelling tokens

Apart from numbers every token ends by itself, so it may be followed by
anything. A text that spells such tokens one after another, with any white space
around them, is cut into just these tokens.
-/

namespace ZonePool.Json

/-! ## One token -/

/-- How a token that is no number is written. -/
inductive Lexeme : Token → List Char → Prop where
  | listBegin : Lexeme .listBegin ['[']
  | listEnd : Lexeme .listEnd [']']
  | recordBegin : Lexeme .recordBegin ['\x7b']
  | recordEnd : Lexeme .recordEnd ['\x7d']
  | comma : Lexeme .comma [',']
  | colon : Lexeme .colon [':']
  | null : Lexeme (.scalar .null) ['n', 'u', 'l', 'l']
  | yes : Lexeme (.scalar (.truth true)) ['t', 'r', 'u', 'e']
  | no : Lexeme (.scalar (.truth false)) ['f', 'a', 'l', 's', 'e']
  | text (s : String) : Lexeme (.scalar (.text s)) (quote s)
  | unpaired : Lexeme (.scalar .unpaired) halfPair

theorem tokens?_of_punctuation {c : Char} {t : Token} (hspace : isSpace c = false)
    (h : punctuation? c = some t) (rest : List Char) :
    tokens? (c :: rest) = (tokens? rest).map (t :: ·) := by
  rw [tokens?]
  simp [hspace, h]

theorem tokens?_of_scalar {c : Char} {cs rest : List Char} {value : Document}
    (hspace : isSpace c = false) (hscalar : punctuation? c = none)
    (h : scalar? (c :: cs) = some (value, rest)) :
    tokens? (c :: cs) = (tokens? rest).map (.scalar value :: ·) := by
  rw [tokens?]
  simp only [hspace, hscalar, Bool.false_eq_true, if_false]
  split
  · next hnone =>
    rw [h] at hnone
    cases hnone
  · next hsome =>
    rw [h] at hsome
    cases hsome
    rfl

/-- A token is cut off whole, whatever comes behind it. -/
theorem tokens?_lexeme {t : Token} {lexeme : List Char} (h : Lexeme t lexeme) (rest : List Char) :
    tokens? (lexeme ++ rest) = (tokens? rest).map (t :: ·) := by
  cases h with
  | listBegin | listEnd | recordBegin | recordEnd | comma | colon =>
    exact tokens?_of_punctuation (by decide) rfl rest
  | null | yes | no | unpaired => exact tokens?_of_scalar (by decide) rfl rfl
  | text s => exact tokens?_of_scalar (by decide) rfl (scalar?_quote s rest)

/-! ## White space -/

/-- A text of white space only. -/
def IsBlank (space : List Char) : Prop :=
  ∀ c ∈ space, isSpace c = true

theorem isBlank_nil : IsBlank [] := nofun

theorem isBlank_space : IsBlank [' '] := List.forall_mem_singleton.2 rfl

theorem IsBlank.append {space more : List Char} (h : IsBlank space) (hmore : IsBlank more) :
    IsBlank (space ++ more) := by
  intro c hc
  rcases List.mem_append.1 hc with hc | hc
  · exact h c hc
  · exact hmore c hc

theorem tokens?_blank {space : List Char} (h : IsBlank space) (rest : List Char) :
    tokens? (space ++ rest) = tokens? rest := by
  induction space with
  | nil => rfl
  | cons c space ih =>
    rw [IsBlank, List.forall_mem_cons] at h
    rw [List.cons_append, tokens?, if_pos h.1, ih h.2]

/-! ## Several tokens -/

/-- A text of tokens with white space before each of them and behind the last. -/
inductive Spells : List Token → List Char → Prop where
  | blank {space : List Char} : IsBlank space → Spells [] space
  | token {space lexeme text : List Char} {t : Token} {ts : List Token} :
    IsBlank space → Lexeme t lexeme → Spells ts text → Spells (t :: ts) (space ++ lexeme ++ text)

namespace Spells

/-- A text that spells tokens is cut into them. -/
theorem tokens?_eq_some {ts : List Token} {text : List Char} (h : Spells ts text) :
    tokens? text = some ts := by
  induction h with
  | @blank space hspace =>
    rw [← List.append_nil space, tokens?_blank hspace, tokens?]
  | token hspace hlexeme _ ih =>
    rw [List.append_assoc, tokens?_blank hspace, tokens?_lexeme hlexeme, ih]
    rfl

theorem lexeme {t : Token} {lexeme : List Char} (h : Lexeme t lexeme) : Spells [t] lexeme := by
  simpa using token isBlank_nil h (blank isBlank_nil)

theorem blank_append {space text : List Char} {ts : List Token} (hspace : IsBlank space)
    (h : Spells ts text) : Spells ts (space ++ text) := by
  cases h with
  | blank hmore => exact blank (hspace.append hmore)
  | token hmore hlexeme htext =>
    rw [← List.append_assoc, ← List.append_assoc]
    exact token (hspace.append hmore) hlexeme htext

theorem append {first second : List Char} {ts us : List Token} (hfirst : Spells ts first)
    (hsecond : Spells us second) : Spells (ts ++ us) (first ++ second) := by
  induction hfirst with
  | blank hspace => exact blank_append hspace hsecond
  | token hspace hlexeme _ ih =>
    rw [List.append_assoc]
    exact token hspace hlexeme ih

theorem cons {t : Token} {lexeme text : List Char} {ts : List Token} (h : Lexeme t lexeme)
    (htext : Spells ts text) : Spells (t :: ts) (lexeme ++ text) :=
  append (.lexeme h) htext

end Spells

end ZonePool.Json
