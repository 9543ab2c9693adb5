-- SUMMARY: JSON texts read as documents.
import ZonePool.Json.Token

/-!
# Reading JSON

The tokens of a text are fed one by one to a machine with a stack of unfinished
lists and records, so the depth of a text is bounded by nothing. The machine
accepts when exactly one value has been completed.
-/

namespace ZonePool.Json

/-- A list or record that has begun and not ended; what it holds so far, newest first. -/
inductive Frame where
  | list (items : List Document)
  /-- `key` is the key of the value that is being read. -/
  | record (members : List (Option String × Document)) (key : Option String)

/-- What may come next, and what surrounds it. -/
inductive Reading where
  /-- A value must come. -/
  | value (stack : List Frame)
  /-- A list has just begun: a value or its end. -/
  | firstItem (stack : List Frame)
  /-- A record has just begun: a key or its end. -/
  | firstKey (stack : List Frame)
  /-- A comma stood in a record: a key must come. -/
  | nextKey (members : List (Option String × Document)) (stack : List Frame)
  /-- A key was read: a colon must come. -/
  | keyed (members : List (Option String × Document)) (key : Option String) (stack : List Frame)
  /-- An item was read: a comma or the end of the list. -/
  | afterItem (items : List Document) (stack : List Frame)
  /-- A member was read: a comma or the end of the record. -/
  | afterMember (members : List (Option String × Document)) (stack : List Frame)
  /-- The whole text is read. -/
  | complete (d : Document)

namespace Reading

/-- A value has ended: it joins what surrounds it. -/
def finish (d : Document) : List Frame → Reading
  | [] => .complete d
  | .list items :: stack => .afterItem (d :: items) stack
  | .record members key :: stack => .afterMember ((key, d) :: members) stack

/-- A value begins. -/
def enter (stack : List Frame) : Token → Option Reading
  | .scalar d => some (finish d stack)
  | .listBegin => some (.firstItem stack)
  | .recordBegin => some (.firstKey stack)
  | _ => none

/-- A key is read. -/
def enterKey (members : List (Option String × Document)) (stack : List Frame) :
    Token → Option Reading
  | .scalar (.text key) => some (.keyed members (some key) stack)
  | .scalar .unpaired => some (.keyed members none stack)
  | _ => none

/-- Take one token. -/
def step : Reading → Token → Option Reading
  | .value stack, t => enter stack t
  | .firstItem stack, .listEnd => some (finish (.list []) stack)
  | .firstItem stack, t => enter (.list [] :: stack) t
  | .firstKey stack, .recordEnd => some (finish (.record []) stack)
  | .firstKey stack, t => enterKey [] stack t
  | .nextKey members stack, t => enterKey members stack t
  | .keyed members key stack, .colon => some (.value (.record members key :: stack))
  | .afterItem items stack, .comma => some (.value (.list items :: stack))
  | .afterItem items stack, .listEnd => some (finish (.list items.reverse) stack)
  | .afterMember members stack, .comma => some (.nextKey members stack)
  | .afterMember members stack, .recordEnd => some (finish (.record members.reverse) stack)
  | _, _ => none

/-- Take tokens until one does not fit. -/
def run : Reading → List Token → Option Reading
  | r, [] => some r
  | r, t :: ts =>
    match r.step t with
    | some r => run r ts
    | none => none

theorem run_append (r : Reading) (ts us : List Token) :
    r.run (ts ++ us) = (r.run ts).bind (·.run us) := by
  induction ts generalizing r with
  | nil => simp [run]
  | cons t ts ih =>
    simp only [List.cons_append, run]
    cases r.step t with
    | none => simp
    | some r => simp [ih]

end Reading

/-- The document that a JSON text writes. -/
def read? (text : List Char) : Option Document := do
  let tokens ← tokens? text
  match (Reading.value []).run tokens with
  | some (.complete d) => some d
  | _ => none

end ZonePool.Json
