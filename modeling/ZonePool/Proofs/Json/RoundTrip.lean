-- SUMMARY: Documents read back from the texts that write them.
import ZonePool.Json.Reader
import ZonePool.Proofs.Json.Spelling

/-!
# Documents read back

Every document is read from one sequence of tokens, and so from every text that
spells these tokens, with white space wherever it may stand. Both writers spell
them, except for numbers, whose tokens do not end by themselves.
-/

namespace ZonePool.Json

/-! ## The tokens of a document -/

def keyToken : Option String → Token
  | some key => .scalar (.text key)
  | none => .scalar .unpaired

mutual

/-- The tokens that a document is read from. -/
def tokensOf : Document → List Token
  | .list [] => [.listBegin, .listEnd]
  | .list (d :: ds) => .listBegin :: tokensOf d ++ moreItems ds
  | .record [] => [.recordBegin, .recordEnd]
  | .record ((key, d) :: ms) =>
    .recordBegin :: keyToken key :: .colon :: tokensOf d ++ moreMembers ms
  | d => [.scalar d]

/-- The tokens behind an item, with the end of the list. -/
def moreItems : List Document → List Token
  | [] => [.listEnd]
  | d :: ds => .comma :: tokensOf d ++ moreItems ds

/-- The tokens behind a member, with the end of the record. -/
def moreMembers : List (Option String × Document) → List Token
  | [] => [.recordEnd]
  | (key, d) :: ms => .comma :: keyToken key :: .colon :: tokensOf d ++ moreMembers ms

end

namespace Reading

variable (stack : List Frame) (ts : List Token)

theorem run_firstItem (d : Document) :
    run (.firstItem stack) (tokensOf d ++ ts) =
      run (.value (.list [] :: stack)) (tokensOf d ++ ts) := by
  cases d with
  | list items => cases items <;> rw [tokensOf] <;> rfl
  | record members => cases members <;> rw [tokensOf] <;> rfl
  | _ => rfl

theorem run_firstKey (key : Option String) :
    run (.firstKey stack) (keyToken key :: .colon :: ts) =
      run (.value (.record [] key :: stack)) ts := by
  cases key <;> rfl

theorem run_nextKey (before : List (Option String × Document)) (key : Option String) :
    run (.nextKey before stack) (keyToken key :: .colon :: ts) =
      run (.value (.record before key :: stack)) ts := by
  cases key <;> rfl

mutual

/-- A document is read from its tokens, whatever surrounds it. -/
theorem run_tokensOf (stack : List Frame) (ts : List Token) :
    ∀ d, run (.value stack) (tokensOf d ++ ts) = run (finish d stack) ts
  | .null | .truth _ | .whole _ | .number _ | .text _ | .unpaired => rfl
  | .list [] | .record [] => rfl
  | .list (d :: ds) => by
    calc run (.value stack) (tokensOf (.list (d :: ds)) ++ ts)
      _ = run (.firstItem stack) (tokensOf d ++ (moreItems ds ++ ts)) := by
        rw [tokensOf, List.append_assoc]
        rfl
      _ = run (.afterItem [d] stack) (moreItems ds ++ ts) := by
        rw [run_firstItem, run_tokensOf]
        rfl
      _ = run (finish (.list (d :: ds)) stack) ts := run_moreItems stack ts [d] ds
  | .record ((key, d) :: ms) => by
    calc run (.value stack) (tokensOf (.record ((key, d) :: ms)) ++ ts)
      _ = run (.firstKey stack)
          (keyToken key :: .colon :: (tokensOf d ++ (moreMembers ms ++ ts))) := by
        rw [tokensOf, List.append_assoc]
        rfl
      _ = run (.afterMember [(key, d)] stack) (moreMembers ms ++ ts) := by
        rw [run_firstKey, run_tokensOf]
        rfl
      _ = run (finish (.record ((key, d) :: ms)) stack) ts :=
        run_moreMembers stack ts [(key, d)] ms

theorem run_moreItems (stack : List Frame) (ts : List Token) (before : List Document) :
    ∀ ds, run (.afterItem before stack) (moreItems ds ++ ts) =
      run (finish (.list (before.reverse ++ ds)) stack) ts
  | [] => by
    rw [List.append_nil]
    rfl
  | d :: ds => by
    rw [moreItems, List.append_assoc]
    show run (.value (.list before :: stack)) (tokensOf d ++ (moreItems ds ++ ts)) = _
    rw [run_tokensOf, List.append_cons, ← List.reverse_cons]
    exact run_moreItems stack ts (d :: before) ds

theorem run_moreMembers (stack : List Frame) (ts : List Token)
    (before : List (Option String × Document)) :
    ∀ ms, run (.afterMember before stack) (moreMembers ms ++ ts) =
      run (finish (.record (before.reverse ++ ms)) stack) ts
  | [] => by
    rw [List.append_nil]
    rfl
  | (key, d) :: ms => by
    rw [moreMembers, List.append_assoc]
    show run (.nextKey before stack)
      (keyToken key :: .colon :: (tokensOf d ++ (moreMembers ms ++ ts))) = _
    rw [run_nextKey, run_tokensOf, List.append_cons, ← List.reverse_cons]
    exact run_moreMembers stack ts ((key, d) :: before) ms

end

end Reading

/-! ## Texts of a document -/

/-- A text writes a document when it spells its tokens, with any white space around them. -/
def Writes (d : Document) (text : List Char) : Prop :=
  Spells (tokensOf d) text

theorem read?_of_tokens? {d : Document} {text : List Char}
    (h : tokens? text = some (tokensOf d)) : read? text = some d := by
  have hrun : (Reading.value []).run (tokensOf d) = some (.complete d) := by
    rw [← List.append_nil (tokensOf d), Reading.run_tokensOf]
    rfl
  simp [read?, h, hrun]

/-- Every text of a document is read as this document. -/
theorem Writes.read?_eq_some {d : Document} {text : List Char} (h : Writes d text) :
    read? text = some d :=
  read?_of_tokens? (Spells.tokens?_eq_some h)

/-- The documents without numbers. -/
inductive Numberless : Document → Prop where
  | null : Numberless .null
  | truth (b : Bool) : Numberless (.truth b)
  | text (s : String) : Numberless (.text s)
  | unpaired : Numberless .unpaired
  | list {items : List Document} : (∀ d ∈ items, Numberless d) → Numberless (.list items)
  | record {members : List (Option String × Document)} :
    (∀ m ∈ members, Numberless m.2) → Numberless (.record members)

theorem lexeme_quoteKey (key : Option String) : Lexeme (keyToken key) (quoteKey key) := by
  cases key with
  | none => exact .unpaired
  | some key => exact .text key

/-- Texts with commas between them spell what follows the opening bracket of a list or record. -/
theorem spells_intercalate {α : Type} {tokens : α → List Token} {more : List α → List Token}
    {item : α → List Char} {close : List Char} {a : α} {as : List α}
    (hmore : ∀ b bs, more (b :: bs) = .comma :: tokens b ++ more bs)
    (hitem : ∀ b ∈ a :: as, Spells (tokens b) (item b)) (hclose : Spells (more []) close) :
    Spells (tokens a ++ more as) ([','].intercalate ((a :: as).map item) ++ close) := by
  induction as generalizing a with
  | nil => simpa using (hitem a List.mem_cons_self).append hclose
  | cons b bs ih =>
    rw [List.forall_mem_cons] at hitem
    have hspells := hitem.1.append (Spells.cons .comma (ih hitem.2))
    simpa [hmore] using hspells

/-- A list is written by its items with commas between them. -/
theorem Writes.list {item : Document → List Char} {close : List Char} {d : Document}
    {ds : List Document} (hitem : ∀ e ∈ d :: ds, Writes e (item e))
    (hclose : Spells [.listEnd] close) :
    Writes (.list (d :: ds)) ('[' :: ([','].intercalate ((d :: ds).map item) ++ close)) := by
  rw [Writes, tokensOf]
  exact .cons .listBegin (spells_intercalate (fun _ _ => by rw [moreItems]) hitem hclose)

/-- A record is written by its members with commas between them. -/
theorem Writes.record {member : Option String × Document → List Char} {close : List Char}
    {m : Option String × Document} {ms : List (Option String × Document)}
    (hmember : ∀ n ∈ m :: ms, Spells (keyToken n.1 :: .colon :: tokensOf n.2) (member n))
    (hclose : Spells [.recordEnd] close) :
    Writes (.record (m :: ms)) ('\x7b' :: ([','].intercalate ((m :: ms).map member) ++ close)) := by
  rw [Writes, tokensOf]
  exact .cons .recordBegin (spells_intercalate (fun _ _ => by rw [moreMembers]) hmember hclose)

/-! ## The writers -/

theorem compactItems_eq : ∀ ds, compactItems ds = [','].intercalate (ds.map compact)
  | [] => rfl
  | [d] => by simp [compactItems]
  | d :: e :: ds => by simp [compactItems, compactItems_eq (e :: ds)]

theorem compactMembers_eq : ∀ ms,
    compactMembers ms = [','].intercalate (ms.map fun m => quoteKey m.1 ++ ':' :: compact m.2)
  | [] => rfl
  | [m] => by simp [compactMembers]
  | m :: n :: ms => by simp [compactMembers, compactMembers_eq (n :: ms)]

theorem indentedItems_eq (depth : Nat) : ∀ ds, indentedItems depth ds =
    [','].intercalate (ds.map fun d => lineAt depth ++ indented depth d)
  | [] => rfl
  | [d] => by simp [indentedItems]
  | d :: e :: ds => by simp [indentedItems, indentedItems_eq depth (e :: ds)]

theorem indentedMembers_eq (depth : Nat) : ∀ ms, indentedMembers depth ms = [','].intercalate
    (ms.map fun m => lineAt depth ++ (quoteKey m.1 ++ ':' :: ' ' :: indented depth m.2))
  | [] => rfl
  | [m] => by simp [indentedMembers]
  | m :: n :: ms => by simp [indentedMembers, indentedMembers_eq depth (n :: ms)]

theorem writes_compact {d : Document} (h : Numberless d) : Writes d (compact d) := by
  induction h with
  | null => exact .lexeme .null
  | truth b =>
    cases b with
    | true => exact .lexeme .yes
    | false => exact .lexeme .no
  | text s => exact .lexeme (.text s)
  | unpaired => exact .lexeme .unpaired
  | @list items _ ih =>
    cases items with
    | nil => exact .cons .listBegin (.lexeme .listEnd)
    | cons d ds =>
      rw [compact, compactItems_eq]
      exact .list ih (.lexeme .listEnd)
  | @record members _ ih =>
    cases members with
    | nil => exact .cons .recordBegin (.lexeme .recordEnd)
    | cons m ms =>
      rw [compact, compactMembers_eq]
      exact .record (fun n hn => .cons (lexeme_quoteKey n.1) (.cons .colon (ih n hn)))
        (.lexeme .recordEnd)

theorem isBlank_lineAt (depth : Nat) : IsBlank (lineAt depth) := by
  rw [IsBlank, lineAt, List.forall_mem_cons]
  refine ⟨rfl, fun c hc => ?_⟩
  rw [List.eq_of_mem_replicate hc]
  rfl

theorem writes_indented {d : Document} (h : Numberless d) (depth : Nat) :
    Writes d (indented depth d) := by
  induction h generalizing depth with
  | null => exact .lexeme .null
  | truth b =>
    cases b with
    | true => exact .lexeme .yes
    | false => exact .lexeme .no
  | text s => exact .lexeme (.text s)
  | unpaired => exact .lexeme .unpaired
  | @list items _ ih =>
    cases items with
    | nil => exact .cons .listBegin (.lexeme .listEnd)
    | cons d ds =>
      rw [indented, indentedItems_eq, List.append_assoc]
      exact .list (fun e he => .blank_append (isBlank_lineAt _) (ih e he _))
        (.blank_append (isBlank_lineAt _) (.lexeme .listEnd))
  | @record members _ ih =>
    cases members with
    | nil => exact .cons .recordBegin (.lexeme .recordEnd)
    | cons m ms =>
      rw [indented, indentedMembers_eq, List.append_assoc]
      refine .record (fun n hn => .blank_append (isBlank_lineAt _) ?_)
        (.blank_append (isBlank_lineAt _) (.lexeme .recordEnd))
      exact .cons (lexeme_quoteKey n.1) (.cons .colon (.blank_append isBlank_space (ih n hn _)))

end ZonePool.Json
