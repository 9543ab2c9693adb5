-- SUMMARY: Documents written as JSON, on one line or indented.
import ZonePool.Document

/-!
# Writing JSON

`compact` writes a document without any space; `pretty` gives every item and
member a line of its own, indented by two spaces a level, and leaves empty
lists and records on one line. In a string, the quote, the backslash and the
control characters are escaped, the latter by a letter where they have one.
-/

namespace ZonePool.Json

/-! ## Strings -/

/-- A digit of a four-digit escape. -/
def hexDigit (n : Nat) : Char :=
  if n < 10 then Char.ofNat (48 + n) else Char.ofNat (87 + n)

/-- A character as it stands in a string. -/
def quoteChar (c : Char) : List Char :=
  if c = '"' then ['\\', '"']
  else if c = '\\' then ['\\', '\\']
  else if c = '\x08' then ['\\', 'b']
  else if c = '\x0c' then ['\\', 'f']
  else if c = '\n' then ['\\', 'n']
  else if c = '\r' then ['\\', 'r']
  else if c = '\t' then ['\\', 't']
  else if c.toNat < 0x20 then
    ['\\', 'u', '0', '0', hexDigit (c.toNat / 16), hexDigit (c.toNat % 16)]
  else [c]

def quote (s : String) : List Char :=
  '"' :: s.toList.flatMap quoteChar ++ ['"']

/-- A string that holds half a surrogate pair. -/
def halfPair : List Char :=
  ['"', '\\', 'u', 'd', '8', '0', '0', '"']

def quoteKey : Option String → List Char
  | some key => quote key
  | none => halfPair

/-! ## On one line -/

mutual

/-- A document without any space. -/
def compact : Document → List Char
  | .null => ['n', 'u', 'l', 'l']
  | .truth true => ['t', 'r', 'u', 'e']
  | .truth false => ['f', 'a', 'l', 's', 'e']
  | .whole n => Text.decimal n
  | .number literal => literal.toList
  | .text s => quote s
  | .unpaired => halfPair
  | .list items => '[' :: compactItems items ++ [']']
  | .record members => '{' :: compactMembers members ++ ['}']

def compactItems : List Document → List Char
  | [] => []
  | [d] => compact d
  | d :: ds => compact d ++ ',' :: compactItems ds

def compactMembers : List (Option String × Document) → List Char
  | [] => []
  | [(k, d)] => quoteKey k ++ ':' :: compact d
  | (k, d) :: ms => quoteKey k ++ ':' :: compact d ++ ',' :: compactMembers ms

end

/-! ## Indented -/

/-- A new line at a depth. -/
def lineAt (depth : Nat) : List Char :=
  '\n' :: List.replicate (2 * depth) ' '

mutual

/-- A document that begins at a depth, one line for each item and member in it. -/
def indented (depth : Nat) : Document → List Char
  | .null => ['n', 'u', 'l', 'l']
  | .truth true => ['t', 'r', 'u', 'e']
  | .truth false => ['f', 'a', 'l', 's', 'e']
  | .whole n => Text.decimal n
  | .number literal => literal.toList
  | .text s => quote s
  | .unpaired => halfPair
  | .list [] => ['[', ']']
  | .list (d :: ds) => '[' :: indentedItems (depth + 1) (d :: ds) ++ lineAt depth ++ [']']
  | .record [] => ['{', '}']
  | .record (m :: ms) => '{' :: indentedMembers (depth + 1) (m :: ms) ++ lineAt depth ++ ['}']

def indentedItems (depth : Nat) : List Document → List Char
  | [] => []
  | [d] => lineAt depth ++ indented depth d
  | d :: ds => lineAt depth ++ indented depth d ++ ',' :: indentedItems depth ds

def indentedMembers (depth : Nat) : List (Option String × Document) → List Char
  | [] => []
  | [(k, d)] => lineAt depth ++ quoteKey k ++ ':' :: ' ' :: indented depth d
  | (k, d) :: ms =>
    lineAt depth ++ quoteKey k ++ ':' :: ' ' :: indented depth d ++ ',' :: indentedMembers depth ms

end

/-- The compact text of a document. -/
def render (d : Document) : String :=
  String.ofList (compact d)

/-- The indented text of a document. -/
def pretty (d : Document) : String :=
  String.ofList (indented 0 d)

end ZonePool.Json
