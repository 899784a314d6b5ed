import SchemaDocs.Toml.Literal

/-!
# TOML documents

A document is a series of lines: entries, headers that say to which table the following entries
belong, and comments. `parse?` returns the table that a text denotes and nothing for any other text.
-/

namespace SchemaDocs.Toml

/-- The number of levels that arrays and inline tables may be nested. -/
def maxDepth : Nat := 79

/-! ### Gaps -/

def skipBlanks (text : List Char) : List Char := text.dropWhile isBlank

def skipComment : List Char → List Char
  | '#' :: rest => rest.dropWhile isTextChar
  | text => text

/-- The text behind blanks, comments and line breaks; a comment is followed by a line break. -/
def skipLines : (fuel : Nat) → List Char → Option (List Char)
  | 0, _ => none
  | fuel + 1, text =>
    let text := skipBlanks text
    match text with
    | '#' :: _ => (afterBreak? (skipComment text)).bind (skipLines fuel)
    | _ =>
      match afterBreak? text with
      | some rest => skipLines fuel rest
      | none => some text

/-- The text behind the end of a line: blanks, perhaps a comment, and a line break or the end of the
text. -/
def endLine? (text : List Char) : Option (List Char) :=
  match skipComment (skipBlanks text) with
  | [] => some []
  | text => afterBreak? text

/-! ### Keys -/

/-- The characters of a key without quotes. -/
def isKeyChar (c : Char) : Bool := c.isAlphanum || c = '-' || c = '_'

def readKeyPart : Reader String
  | [] => none
  | c :: rest =>
    if c = '\x22' || c = '\x27' then readLineString c (rest.length + 1) [] rest
    else
      let name := (c :: rest).takeWhile isKeyChar
      if name.isEmpty then none else some (String.ofList name, (c :: rest).drop name.length)

/-- Reads the parts of a key. Blanks may stand around each. -/
def readKeyParts : (fuel : Nat) → Reader (List String)
  | 0, _ => none
  | fuel + 1, text => do
    let (part, rest) ← readKeyPart (skipBlanks text)
    match skipBlanks rest with
    | '.' :: rest => (readKeyParts fuel rest).map fun (parts, rest) => (part :: parts, rest)
    | rest => some ([part], rest)

/-- Reads a key: the parts but the last, and the last. -/
def readKey : Reader (List String × String) := fun text => do
  let (parts, rest) ← readKeyParts (text.length + 1) text
  match parts.getLast? with
  | some key => if maxDepth < parts.length then none else some ((parts.dropLast, key), rest)
  | none => none

/-! ### Values -/

def readEntry (read : Reader Value) : Reader (List String × String × Value) := fun text => do
  let ((path, key), rest) ← readKey text
  let (value, rest) ← read (skipBlanks (← passChar '=' rest))
  some ((path, key, value), rest)

/-- Reads the items of an array behind its bracket. A comma may follow the last. -/
def readItems (read : Reader Value) : (fuel : Nat) → Reader (List Value)
  | 0, _ => none
  | fuel + 1, text => do
    match ← skipLines (text.length + 1) text with
    | ']' :: rest => some ([], rest)
    | text =>
      let (item, rest) ← read text
      match ← skipLines (rest.length + 1) rest with
      | ']' :: rest => some ([item], rest)
      | ',' :: rest => (readItems read fuel rest).map fun (items, rest) => (item :: items, rest)
      | _ => none

def readInlineEntries (read : Reader Value) : (fuel : Nat) → Items → Reader Items
  | 0, _, _ => none
  | fuel + 1, entries, text => do
    let ((path, key, value), rest) ← readEntry read text
    let entries ← entries.insert? path key value
    match skipBlanks rest with
    | '\x7d' :: rest => some (entries, rest)
    | ',' :: rest => readInlineEntries read fuel entries rest
    | _ => none

def readInlineTable (read : Reader Value) : Reader Value := fun text =>
  match skipBlanks text with
  | '\x7d' :: rest => some (.table [], rest)
  | text => (readInlineEntries read (text.length + 1) [] text).map fun (entries, rest) => (.table (Item.toEntries entries), rest)

def readValue : (depth : Nat) → Reader Value
  | _, [] => none
  | depth, c :: rest =>
    if c = '[' then
      match depth with
      | 0 => none
      | depth + 1 => (readItems (readValue depth) (rest.length + 1) rest).map fun (items, rest) => (.array items, rest)
    else if c = '\x7b' then
      match depth with
      | 0 => none
      | depth + 1 => readInlineTable (readValue depth) rest
    else if c = '\x22' || c = '\x27' then (readString (c :: rest)).map fun (text, rest) => (.string text, rest)
    else
      match c, rest with
      | 't', 'r' :: 'u' :: 'e' :: rest => some (.boolean true, rest)
      | 'f', 'a' :: 'l' :: 's' :: 'e' :: rest => some (.boolean false, rest)
      | _, _ =>
        if c.isDigit || c = '+' || c = '-' || c = 'i' || c = 'n' then
          let text := c :: rest
          (readDate text).orElse fun _ => (readFloat text).orElse fun _ =>
            (readSpecialFloat text).orElse fun _ => readInteger text
        else none

/-! ### Lines -/

/-- A document in progress, and the path of the table to which entries belong. -/
structure Draft where
  root : Items := []
  current : List String := []

def readHeader (draft : Draft) : Reader Draft := fun text => do
  let doubled := text.head? = some '['
  let ((path, key), rest) ← readKey (if doubled then text.drop 1 else text)
  let rest ← passChar ']' rest
  let rest ← if doubled then passChar ']' rest else some rest
  let root ← if doubled then draft.root.appendTable? path key else draft.root.openTable? path key
  some ({ root, current := path ++ [key] }, ← endLine? rest)

def readEntryLine (draft : Draft) : Reader Draft := fun text => do
  let ((path, key, value), rest) ← readEntry (readValue maxDepth) text
  let root ← draft.root.change? false (fun _ entries => entries.insert? path key value) draft.current false
  some ({ draft with root }, ← endLine? rest)

def readLines : (fuel : Nat) → Draft → List Char → Option Draft
  | 0, _, _ => none
  | fuel + 1, draft, text =>
    match skipBlanks text with
    | [] => some draft
    | '#' :: rest => (endLine? ('#' :: rest)).bind (readLines fuel draft)
    | '[' :: rest => (readHeader draft rest).bind fun (draft, rest) => readLines fuel draft rest
    | rest =>
      match afterBreak? rest with
      | some rest => readLines fuel draft rest
      | none => (readEntryLine draft rest).bind fun (draft, rest) => readLines fuel draft rest

/-- The table that a text denotes. A byte order mark may precede it. -/
def parse? (text : String) : Option Table :=
  let text := match text.toList with
    | '\ufeff' :: rest => rest
    | text => text
  (readLines (text.length + 1) {} text).map fun draft => Item.toEntries draft.root

end SchemaDocs.Toml
