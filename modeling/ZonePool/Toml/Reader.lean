-- SUMMARY: TOML texts read as documents.
import ZonePool.Toml.Scalar
import ZonePool.Toml.Table

/-!
# Reading TOML

A text is read line by line: comments, headers, and keys with a value. Headers
choose the table that the following keys go to. Values nest to a bounded depth,
and so do the parts of a key.
-/

namespace ZonePool.Toml

/-! ## Keys -/

/-- Arrays, inline tables and the parts of a key stay below this depth. -/
def depthLimit : Nat := 80

/-- The characters of a key without quotes. -/
def isBareKey (c : Char) : Bool :=
  c.isAlphanum || c == '-' || c == '_'

/-- One part of a key. -/
def keyPart? (cs : List Char) : Option (String × List Char) :=
  match cs with
  | '"' :: rest => (basicBody? rest).map fun r => (String.ofList r.1, r.2)
  | '\'' :: rest => (literalBody? rest).map fun r => (String.ofList r.1, r.2)
  | _ =>
    match Text.cut isBareKey cs with
    | ([], _) => none
    | (name, rest) => some (String.ofList name, rest)

/-- The parts of a key, with the blanks around each; at most `room` of them. -/
def keyParts? : Nat → List Char → Option (List String × List Char)
  | 0, _ => none
  | room + 1, cs => do
    let (part, rest) ← keyPart? (skipSpace cs)
    match skipSpace rest with
    | '.' :: rest =>
      let (parts, rest) ← keyParts? room rest
      some (part :: parts, rest)
    | rest => some ([part], rest)

/-- A key, as the parts before its last one and the last one. -/
def key? (cs : List Char) : Option ((List String × String) × List Char) := do
  let (parts, rest) ← keyParts? (depthLimit - 1) cs
  let last ← parts.getLast?
  some ((parts.dropLast, last), rest)

/-! ## Values -/

/-- Skip blanks, comments and line ends; what no rule covers stays in front. -/
def skipLines : Bool → List Char → List Char
  | _, [] => []
  | _, '\n' :: cs => skipLines false cs
  | _, '\r' :: '\n' :: cs => skipLines false cs
  | true, c :: cs => if isPlain c then skipLines true cs else c :: cs
  | false, '#' :: cs => skipLines true cs
  | false, c :: cs => if isSpace c then skipLines false cs else c :: cs

/-- The items of an array from its opening bracket on, given a reader of one value. There are at most
`fuel` of them; the length of the text is always enough. -/
def arrayItems? (value : List Char → Option (Document × List Char)) :
    Nat → List Char → Option (List Document × List Char)
  | 0, _ => none
  | fuel + 1, cs =>
    match skipLines false cs with
    | ']' :: rest => some ([], rest)
    | front => do
      let (item, rest) ← value front
      match skipLines false rest with
      | ']' :: rest => some ([item], rest)
      | ',' :: rest =>
        let (items, rest) ← arrayItems? value fuel rest
        some (item :: items, rest)
      | _ => none

/-- The pairs of an inline table from a key on, put into a table; `fuel` is as for arrays. -/
def inlinePairs? (value : List Char → Option (Document × List Char)) :
    Nat → Table → List Char → Option (Table × List Char)
  | 0, _, _ => none
  | fuel + 1, t, cs => do
    let ((path, key), rest) ← key? cs
    let rest ← char? '=' rest
    let (d, rest) ← value (skipSpace rest)
    let t ← t.putDotted key d path
    match skipSpace rest with
    | '}' :: rest => some (t, rest)
    | ',' :: rest => inlinePairs? value fuel t rest
    | _ => none

/-- A value that holds at most `room` arrays and inline tables within each other. -/
def value? : Nat → List Char → Option (Document × List Char)
  | 0, cs => scalar? cs
  | room + 1, cs =>
    match cs with
    | '[' :: rest =>
      (arrayItems? (value? room) (rest.length + 1) rest).map fun r => (.list r.1, r.2)
    | '{' :: rest =>
      match skipSpace rest with
      | '}' :: rest => some (.record [], rest)
      | rest =>
        (inlinePairs? (value? room) rest.length (.mk .opened []) rest).map fun r =>
          (r.1.toDocument, r.2)
    | _ => scalar? cs

/-! ## Lines -/

/-- The rest of a line that holds nothing more than a comment. -/
def lineEnd? (cs : List Char) : Option (List Char) :=
  match skipSpace cs with
  | '#' :: rest => close (rest.dropWhile isPlain)
  | rest => close rest
where
  close : List Char → Option (List Char)
    | [] => some []
    | '\n' :: rest => some rest
    | '\r' :: '\n' :: rest => some rest
    | _ => none

/-- A text as far as it is read: the tables, and the header of the table that keys go to. -/
structure Progress where
  root : Table := .mk .opened []
  header : List String := []

/-- One header or one key with its value. -/
def Progress.statement (p : Progress) (cs : List Char) : Option (Progress × List Char) :=
  match cs with
  | '[' :: '[' :: rest => do
    let ((path, key), rest) ← key? rest
    let rest ← char? ']' rest
    let rest ← char? ']' rest
    let root ← p.root.within (Table.openElement key) path
    some ({ root, header := path ++ [key] }, rest)
  | '[' :: rest => do
    let ((path, key), rest) ← key? rest
    let rest ← char? ']' rest
    let root ← p.root.within (Table.openTable key) path
    some ({ root, header := path ++ [key] }, rest)
  | _ => do
    let ((path, key), rest) ← key? cs
    let rest ← char? '=' rest
    let (d, rest) ← value? (depthLimit - 1) (skipSpace rest)
    let root ← p.root.within (Table.putDotted key d path) p.header
    some ({ p with root }, rest)

/-- One line: nothing but a comment, or a statement and perhaps a comment after it. -/
def Progress.line (p : Progress) (cs : List Char) : Option (Progress × List Char) :=
  match lineEnd? cs with
  | some rest => some (p, rest)
  | none => do
    let (p, rest) ← p.statement (skipSpace cs)
    let rest ← lineEnd? rest
    some (p, rest)

/-- Read line after line, at most `fuel` of them. -/
def Progress.lines (p : Progress) : Nat → List Char → Option Table
  | _, [] => some p.root
  | 0, _ :: _ => none
  | fuel + 1, cs =>
    match p.line cs with
    | some (p, rest) => p.lines fuel rest
    | none => none

/-- The document that a TOML text writes; a byte order mark before it is skipped. -/
def read? (text : List Char) : Option Document :=
  let text :=
    match text with
    | '\uFEFF' :: rest => rest
    | _ => text
  (Progress.lines {} text.length text).map Table.toDocument

end ZonePool.Toml
