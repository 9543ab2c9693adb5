-- SUMMARY: Documents as the text formats deliver them, and the reading of records out of them.
import ZonePool.Text.Decimal

/-!
# Documents

A `Document` is what a JSON or TOML text says, before anyone asks what it is
for. A record may be written by name or, as a list, by position; the slots of a
record are the documents found for its fields, and a field without one takes
its default.
-/

namespace ZonePool

/-- The content of a structured text. -/
inductive Document where
  | null
  | truth (value : Bool)
  /-- A number written as a natural number. -/
  | whole (value : Nat)
  /-- Any other number, as it is written. -/
  | number (literal : String)
  | text (value : String)
  /-- A well-formed string with half a surrogate pair in it: no text is meant by it. -/
  | unpaired
  | list (items : List Document)
  /-- Members in the order of the text; a key that is no text is `none`. -/
  | record (members : List (Option String × Document))
  deriving Inhabited

namespace Document

/-! ## Leaves and lists -/

def text? : Document → Option String
  | .text s => some s
  | _ => none

/-- A natural number of at most 64 bits. -/
def word? : Document → Option Nat
  | .whole n => if n < Text.wordLimit then some n else none
  | _ => none

/-- A list whose items all read. -/
def listOf? {α : Type} (item : Document → Option α) : Document → Option (List α)
  | .list items => items.mapM item
  | _ => none

/-- A value, or nothing for null. -/
def nullable? {α : Type} (value : Document → Option α) : Document → Option (Option α)
  | .null => some none
  | d => (value d).map some

/-- A list, empty for null. -/
def listOrNull? {α : Type} (item : Document → Option α) (d : Document) : Option (List α) :=
  (nullable? (listOf? item) d).map (·.getD [])

/-! ## Records -/

/-- What becomes of items beyond the last field when a list stands for a record. -/
inductive Surplus where
  | refused
  | ignored
  deriving DecidableEq, Repr

/-- The one member under any of a field's names; two such members are an error. -/
def slot? (names : List String) (members : List (Option String × Document)) :
    Option (Option Document) :=
  match members.filter (fun m => names.any (some · == m.1)) with
  | [] => some none
  | [m] => some (some m.2)
  | _ => none

/-- The items of a list, field by field. -/
def positions : List (List String) → List Document → List (Option Document)
  | [], _ => []
  | _ :: fields, [] => none :: positions fields []
  | _ :: fields, item :: items => some item :: positions fields items

/-- What a document holds for each field of a record; every field comes with the names it has. -/
def slots? (surplus : Surplus) (fields : List (List String)) :
    Document → Option (List (Option Document))
  | .list items =>
    if items.length ≤ fields.length ∨ surplus = .ignored then some (positions fields items)
    else none
  | .record members =>
    if members.any (·.1.isNone) then none else fields.mapM (slot? · members)
  | _ => none

/-- A field that may be left out. -/
def orElse? {α : Type} (value : Document → Option α) (default : α) : Option Document → Option α
  | none => some default
  | some d => value d

/-- A field that must be there. -/
def required? {α : Type} (value : Document → Option α) : Option Document → Option α
  | none => none
  | some d => value d

/-! ## Building -/

/-- A record with the given members. -/
def ofMembers (members : List (String × Document)) : Document :=
  .record (members.map fun m => (some m.1, m.2))

def ofTexts (texts : List String) : Document :=
  .list (texts.map .text)

def ofNullable {α : Type} (value : α → Document) : Option α → Document
  | none => .null
  | some a => value a

end Document

end ZonePool
