-- SUMMARY: The tables of a TOML text in the making.
import ZonePool.Document

/-!
# TOML tables

Headers and dotted keys add to tables that earlier lines began, within rules: a
table is opened by one header at most, a table that dotted keys made is opened
by none, and dotted keys add only to tables that dotted keys made. `Origin`
keeps what these rules ask about a table.
-/

namespace ZonePool.Toml

/-- How a table came to be. -/
inductive Origin where
  /-- By its own header, as an element of an array of tables, or between braces. -/
  | opened
  /-- As a parent in the header of another table. -/
  | implied
  /-- As a part of a dotted key. -/
  | dotted
  deriving DecidableEq, Repr

mutual

/-- A table and its entries in the order in which they began. -/
inductive Table where
  | mk (origin : Origin) (entries : List (String × Item))

/-- What stands under a key: a finished value, a table, or an array of tables with its last one. -/
inductive Item where
  | value (d : Document)
  | table (t : Table)
  | tables (earlier : List Table) (last : Table)

end

namespace Table

def origin : Table → Origin
  | .mk o _ => o

def entries : Table → List (String × Item)
  | .mk _ es => es

def get? (t : Table) (key : String) : Option Item :=
  (t.entries.find? (·.1 == key)).map (·.2)

/-- Put an item under a key, at the place of an earlier one or at the end. -/
def set (t : Table) (key : String) (item : Item) : Table :=
  if t.entries.any (·.1 == key) then
    .mk t.origin (t.entries.map fun e => if e.1 == key then (key, item) else e)
  else .mk t.origin (t.entries ++ [(key, item)])

/-! ## Headers -/

/-- Change the table that a path of header keys leads to. An array of tables stands for its last
table, and a table that is missing on the way is implied. -/
def within (change : Table → Option Table) : List String → Table → Option Table
  | [], t => change t
  | key :: path, t =>
    match t.get? key with
    | none => (within change path (.mk .implied [])).map fun inner => t.set key (.table inner)
    | some (.table inner) => (within change path inner).map fun inner => t.set key (.table inner)
    | some (.tables earlier last) =>
      (within change path last).map fun last => t.set key (.tables earlier last)
    | some (.value _) => none

/-- Open the table of a header: a new one, or one that was only implied so far. -/
def openTable (key : String) (t : Table) : Option Table :=
  match t.get? key with
  | none => some (t.set key (.table (.mk .opened [])))
  | some (.table inner) =>
    if inner.origin = .implied then some (t.set key (.table (.mk .opened inner.entries))) else none
  | some _ => none

/-- Open the next table of an array of tables. -/
def openElement (key : String) (t : Table) : Option Table :=
  match t.get? key with
  | none => some (t.set key (.tables [] (.mk .opened [])))
  | some (.tables earlier last) => some (t.set key (.tables (earlier ++ [last]) (.mk .opened [])))
  | some _ => none

/-! ## Keys -/

/-- Put a value under a key that is still free. -/
def putKey (key : String) (d : Document) (t : Table) : Option Table :=
  match t.get? key with
  | none => some (t.set key (.value d))
  | some _ => none

/-- Put a value under a dotted key that has `path` before its last part. The table that takes the
value is the one the key is written in, or one made by dotted keys. -/
def putDotted (key : String) (d : Document) : List String → Table → Option Table
  | [], t => putKey key d t
  | part :: path, t =>
    match t.get? part with
    | none => (putDotted key d path (.mk .dotted [])).map fun inner => t.set part (.table inner)
    | some (.table inner) =>
      if inner.origin = .opened ∨ (path.isEmpty ∧ inner.origin ≠ .dotted) then none
      else (putDotted key d path inner).map fun inner => t.set part (.table inner)
    | some (.tables earlier last) =>
      if path.isEmpty then none
      else (putDotted key d path last).map fun last => t.set part (.tables earlier last)
    | some (.value _) => none

end Table

/-! ## Finished tables -/

mutual

def Table.toDocument : Table → Document
  | .mk _ entries => .record (Table.memberDocuments entries)

def Table.memberDocuments : List (String × Item) → List (Option String × Document)
  | [] => []
  | (key, item) :: rest => (some key, item.toDocument) :: Table.memberDocuments rest

def Item.toDocument : Item → Document
  | .value d => d
  | .table t => t.toDocument
  | .tables earlier last => .list (Table.documents earlier ++ [last.toDocument])

def Table.documents : List Table → List Document
  | [] => []
  | t :: ts => t.toDocument :: Table.documents ts

end

end ZonePool.Toml
