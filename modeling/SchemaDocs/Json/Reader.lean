import SchemaDocs.Json.Literal

/-!
# Reading JSON by shape

A text is read in one pass from left to right, guided by the shape that is wanted, and the first
obstacle decides the fault. A reader takes the characters from its value on and returns the value
with what is left. Values may nest 127 arrays and objects deep; a value that nobody asked for is
skipped to any depth and checked for its form only.

The bound `fuel` of the loops over items and members is the length of the whole text, so that it
never runs out.
-/

namespace SchemaDocs.Json

inductive Fault where
  /-- The text breaks the grammar, or a number or the nesting exceeds its bounds. -/
  | malformed
  /-- The text ends before the value is complete. -/
  | unfinished
  /-- A well-formed value has the wrong type or range, or a member is missing or repeated. -/
  | mismatch
deriving DecidableEq, Repr

abbrev Reader (α : Type) := List Char → Except Fault (α × List Char)

def Reader.map {α β : Type} (f : α → β) (read : Reader α) : Reader β := fun text =>
  match read text with
  | .error fault => .error fault
  | .ok (value, rest) => .ok (f value, rest)

/-- The characters that may stand between tokens. -/
def isBlank (c : Char) : Bool := c = ' ' || c = '\n' || c = '\t' || c = '\r'

def skipBlanks (text : List Char) : List Char := text.dropWhile isBlank

def skipName : (name text : List Char) → Except Fault (List Char)
  | [], text => .ok text
  | _ :: _, [] => .error .unfinished
  | n :: name, c :: text => if c = n then skipName name text else .error .malformed

/-! ### Strings -/

def hexValue? (c : Char) : Option Nat :=
  if '0' ≤ c ∧ c ≤ '9' then some (c.toNat - 48)
  else if 'a' ≤ c ∧ c ≤ 'f' then some (c.toNat - 87)
  else if 'A' ≤ c ∧ c ≤ 'F' then some (c.toNat - 55)
  else none

def natOfHex? (digits : List Char) : Option Nat :=
  digits.foldlM (fun n d => (hexValue? d).map (16 * n + ·)) 0

/-- What a letter behind a backslash stands for. -/
def unescape? : Char → Option Char
  | '\x22' => some '\x22'
  | '\\' => some '\\'
  | '/' => some '/'
  | 'b' => some '\x08'
  | 'f' => some '\x0c'
  | 'n' => some '\n'
  | 'r' => some '\r'
  | 't' => some '\t'
  | _ => none

/-- The fault of four hexadecimal digits cut short: only fewer than four bytes are an early end. -/
def shortHex (text : List Char) : Fault :=
  if (String.ofList text).utf8ByteSize < 4 then .unfinished else .malformed

/-- Reads the rest of a string behind its opening quote; `done` holds the characters so far in
reverse. A code unit above U+FFFF comes as a pair of surrogates. -/
def readChars : (text done : List Char) → Except Fault (List Char × List Char)
  | [], _ => .error .unfinished
  | '\x22' :: rest, done => .ok (done.reverse, rest)
  | '\\' :: 'u' :: a :: b :: c :: d :: rest, done =>
    match natOfHex? [a, b, c, d] with
    | none => .error .malformed
    | some unit =>
      if 0xDC00 ≤ unit ∧ unit ≤ 0xDFFF then .error .malformed
      else if 0xD800 ≤ unit ∧ unit ≤ 0xDBFF then
        match rest with
        | '\\' :: 'u' :: e :: f :: g :: h :: rest =>
          match natOfHex? [e, f, g, h] with
          | none => .error .malformed
          | some low =>
            if 0xDC00 ≤ low ∧ low ≤ 0xDFFF then
              readChars rest (Char.ofNat (0x10000 + 0x400 * (unit - 0xD800) + (low - 0xDC00)) :: done)
            else .error .malformed
        | '\\' :: 'u' :: short => .error (shortHex short)
        | ['\\'] => .error .unfinished
        | [] => .error .unfinished
        | _ => .error .malformed
      else readChars rest (Char.ofNat unit :: done)
  | '\\' :: 'u' :: short, _ => .error (shortHex short)
  | ['\\'], _ => .error .unfinished
  | '\\' :: c :: rest, done =>
    match unescape? c with
    | none => .error .malformed
    | some plain => readChars rest (plain :: done)
  | c :: rest, done => if c.toNat < 32 then .error .malformed else readChars rest (c :: done)

/-- Skips the rest of a string behind its opening quote. Surrogates need not pair. -/
def skipChars : List Char → Except Fault (List Char)
  | [] => .error .unfinished
  | '\x22' :: rest => .ok rest
  | '\\' :: 'u' :: a :: b :: c :: d :: rest =>
    if (natOfHex? [a, b, c, d]).isSome then skipChars rest else .error .malformed
  | '\\' :: 'u' :: short => .error (shortHex short)
  | ['\\'] => .error .unfinished
  | '\\' :: c :: rest => if (unescape? c).isSome then skipChars rest else .error .malformed
  | c :: rest => if c.toNat < 32 then .error .malformed else skipChars rest

/-! ### Numbers -/

def isDigit (c : Char) : Bool := '0' ≤ c && c ≤ '9'

/-- Reads one digit or more. When the text ends first, the fault is `atEnd`. -/
def readDigits (atEnd : Fault) (text : List Char) : Except Fault (List Char × List Char) :=
  match text with
  | [] => .error atEnd
  | c :: _ =>
    if isDigit c then .ok (text.takeWhile isDigit, text.dropWhile isDigit) else .error .malformed

/-- Reads the digits before the point: a zero stands alone. -/
def readWhole (atEnd : Fault) (text : List Char) : Except Fault (List Char × List Char) :=
  match text with
  | '0' :: rest =>
    match rest with
    | [] => .ok (['0'], [])
    | c :: _ => if isDigit c then .error .malformed else .ok (['0'], rest)
  | _ => readDigits atEnd text

/-- Reads a number literal from its sign or first digit on. -/
def readLiteral (atEnd : Fault) (text : List Char) : Except Fault (Literal × List Char) := do
  let (negative, text) := match text with
    | '-' :: rest => (true, rest)
    | _ => (false, text)
  let (whole, text) ← readWhole atEnd text
  let (fraction, text) ← match text with
    | '.' :: rest => (readDigits atEnd rest).map fun (digits, rest) => (some digits, rest)
    | _ => pure (none, text)
  let (exponent, text) ← match text with
    | 'e' :: rest | 'E' :: rest =>
      let (minus, rest) := match rest with
        | '+' :: rest => (false, rest)
        | '-' :: rest => (true, rest)
        | _ => (false, rest)
      (readDigits atEnd rest).map fun (digits, rest) => (some (minus, digits), rest)
    | _ => pure (none, text)
  return (⟨negative, whole, fraction, exponent⟩, text)

def readNumber : Reader Number := fun text =>
  match readLiteral .unfinished text with
  | .error fault => .error fault
  | .ok (literal, rest) =>
    match literal.number? with
    | none => .error .malformed
    | some number => .ok (number, rest)

/-! ### Values that nobody asked for -/

inductive Bracket where
  | square
  | curly
deriving DecidableEq

def Bracket.closedBy : Bracket → Char → Bool
  | .square, c => c = ']'
  | .curly, c => c = '\x7d'

/-- Skips the key and the colon of a member, from the quote on. -/
def skipKey (text : List Char) : Except Fault (List Char) :=
  match skipBlanks text with
  | [] => .error .unfinished
  | '\x22' :: rest =>
    match skipChars rest with
    | .error fault => .error fault
    | .ok rest =>
      match skipBlanks rest with
      | [] => .error .unfinished
      | ':' :: rest => .ok rest
      | _ => .error .malformed
  | _ => .error .malformed

/-- Where a skipping reader stands: before a value, behind one, or behind an opening bracket. -/
inductive SkipState where
  | value
  | behind
  | opened

/-- Skips values until no bracket of `enclosing`, innermost first, is open any more. -/
def skipFrom : (fuel : Nat) → SkipState → (enclosing : List Bracket) → List Char → Except Fault (List Char)
  | 0, _, _, _ => .error .malformed
  | fuel + 1, .value, enclosing, text =>
    match skipBlanks text with
    | [] => .error .unfinished
    | 'n' :: rest => do skipFrom fuel .behind enclosing (← skipName ['u', 'l', 'l'] rest)
    | 't' :: rest => do skipFrom fuel .behind enclosing (← skipName ['r', 'u', 'e'] rest)
    | 'f' :: rest => do skipFrom fuel .behind enclosing (← skipName ['a', 'l', 's', 'e'] rest)
    | '\x22' :: rest => do skipFrom fuel .behind enclosing (← skipChars rest)
    | '[' :: rest => skipFrom fuel .opened (.square :: enclosing) rest
    | '\x7b' :: rest => skipFrom fuel .opened (.curly :: enclosing) rest
    | c :: rest =>
      if c = '-' || isDigit c then do
        let (_, rest) ← readLiteral .malformed (c :: rest)
        skipFrom fuel .behind enclosing rest
      else .error .malformed
  | _ + 1, .behind, [], text => .ok text
  | fuel + 1, .behind, bracket :: enclosing, text =>
    match skipBlanks text with
    | [] => .error .unfinished
    | ',' :: rest =>
      match bracket with
      | .square => skipFrom fuel .value (bracket :: enclosing) rest
      | .curly => do skipFrom fuel .value (bracket :: enclosing) (← skipKey rest)
    | c :: rest =>
      if bracket.closedBy c then skipFrom fuel .behind enclosing rest else .error .malformed
  | _ + 1, .opened, [], text => .ok text
  | fuel + 1, .opened, bracket :: enclosing, text =>
    match skipBlanks text with
    | [] => .error .unfinished
    | c :: rest =>
      if bracket.closedBy c then skipFrom fuel .behind enclosing rest
      else
        match bracket with
        | .square => skipFrom fuel .value (bracket :: enclosing) (c :: rest)
        | .curly => do skipFrom fuel .value (bracket :: enclosing) (← skipKey (c :: rest))

/-- Skips one value of any kind. Each step but the last of a value takes a character, and no two
steps in a row take none. -/
def skipValue (text : List Char) : Except Fault (List Char) :=
  skipFrom (2 * text.length + 2) .value [] text

/-! ### Arrays and objects -/

/-- The fault of a value, given from its first character on, that is not of the wanted kind. -/
def otherKind (text : List Char) : Fault :=
  let faultOf : Except Fault (List Char) → Fault
    | .error fault => fault
    | .ok _ => .mismatch
  match text with
  | 'n' :: rest => faultOf (skipName ['u', 'l', 'l'] rest)
  | 't' :: rest => faultOf (skipName ['r', 'u', 'e'] rest)
  | 'f' :: rest => faultOf (skipName ['a', 'l', 's', 'e'] rest)
  | '\x22' :: rest => faultOf ((readChars rest []).map (·.2))
  | '[' :: _ => .mismatch
  | '\x7b' :: _ => .mismatch
  | c :: _ => if c = '-' || isDigit c then faultOf ((readNumber text).map (·.2)) else .malformed
  | [] => .unfinished

/-- Where the next item of an array begins, or the text behind the closing bracket. -/
def nextItem (first : Bool) (text : List Char) : Except Fault (List Char ⊕ List Char) :=
  match skipBlanks text with
  | [] => .error .unfinished
  | ']' :: rest => .ok (.inr rest)
  | c :: rest =>
    if first then .ok (.inl (c :: rest))
    else if c = ',' then
      match skipBlanks rest with
      | [] => .error .unfinished
      | ']' :: _ => .error .malformed
      | text => .ok (.inl text)
    else .error .malformed

def readItems {α : Type} (item : Reader α) : (fuel : Nat) → (first : Bool) → Reader (List α)
  | 0, _, _ => .error .malformed
  | fuel + 1, first, text =>
    match nextItem first text with
    | .error fault => .error fault
    | .ok (.inr rest) => .ok ([], rest)
    | .ok (.inl text) =>
      match item text with
      | .error fault => .error fault
      | .ok (value, rest) =>
        match readItems item fuel false rest with
        | .error fault => .error fault
        | .ok (values, rest) => .ok (value :: values, rest)

def readList {α : Type} (fuel depth : Nat) (item : Reader α) : Reader (List α) := fun text =>
  match skipBlanks text with
  | [] => .error .unfinished
  | '[' :: rest => if depth = 0 then .error .malformed else readItems item fuel true rest
  | text => .error (otherKind text)

def nextKey (first : Bool) (text : List Char) : Except Fault ((String × List Char) ⊕ List Char) :=
  let key : List Char → Except Fault ((String × List Char) ⊕ List Char) := fun rest =>
    (readChars rest []).map fun (chars, rest) => .inl (String.ofList chars, rest)
  match skipBlanks text with
  | [] => .error .unfinished
  | '\x7d' :: rest => .ok (.inr rest)
  | c :: rest =>
    if first then if c = '\x22' then key rest else .error .malformed
    else if c = ',' then
      match skipBlanks rest with
      | [] => .error .unfinished
      | '\x22' :: rest => key rest
      | _ => .error .malformed
    else .error .malformed

def skipColon (text : List Char) : Except Fault (List Char) :=
  match skipBlanks text with
  | [] => .error .unfinished
  | ':' :: rest => .ok rest
  | _ => .error .malformed

/-- Reads the members of an object up to its closing bracket. `member` takes what has been gathered
so far, a key, and the text behind the key. -/
def readMembers {σ : Type} (member : σ → String → Reader σ) : (fuel : Nat) → (first : Bool) → σ → Reader σ
  | 0, _, _, _ => .error .malformed
  | fuel + 1, first, state, text =>
    match nextKey first text with
    | .error fault => .error fault
    | .ok (.inr rest) => .ok (state, rest)
    | .ok (.inl (key, rest)) =>
      match member state key rest with
      | .error fault => .error fault
      | .ok (state, rest) => readMembers member fuel false state rest

/-! ### Records -/

/-- One field of a record: its key, whether it must be given, and how its value is read into the
record. -/
structure Slot (α : Type) where
  key : String
  required : Bool
  read : α → Reader α

/-- The slot of a field whose value `read` reads and `set` stores. -/
def Slot.of {α β : Type} (key : String) (required : Bool) (read : Reader β) (set : α → β → α) : Slot α :=
  ⟨key, required, fun record => read.map (set record)⟩

/-- Reads one member of a record: a key is given at most once, and an unknown one is skipped. -/
def readField {α : Type} (slots : List (Slot α)) (state : α × List String) (key : String) :
    Reader (α × List String) := fun text =>
  match slots.find? (·.key = key) with
  | none => do
    let rest ← skipColon text
    return (state, ← skipValue rest)
  | some slot =>
    if key ∈ state.2 then .error .mismatch
    else do
      let (record, rest) ← slot.read state.1 (← skipColon text)
      return ((record, key :: state.2), rest)

/-- Reads the items of an array into the fields of a record, in their order; the last ones may be
absent unless they are required. -/
def readPositions {α : Type} : (slots : List (Slot α)) → (first : Bool) → α → Reader α
  | [], _, record, text =>
    match skipBlanks text with
    | [] => .error .unfinished
    | ']' :: rest => .ok (record, rest)
    | _ => .error .malformed
  | slot :: slots, first, record, text =>
    match nextItem first text with
    | .error fault => .error fault
    | .ok (.inr rest) => if (slot :: slots).any (·.required) then .error .mismatch else .ok (record, rest)
    | .ok (.inl text) =>
      match slot.read record text with
      | .error fault => .error fault
      | .ok (record, rest) => readPositions slots false record rest

/-- Reads a record, written as an object or as an array of its fields, over the record of defaults
`blank`. -/
def readRecord {α : Type} (fuel depth : Nat) (blank : α) (slots : List (Slot α)) : Reader α := fun text =>
  match skipBlanks text with
  | [] => .error .unfinished
  | '\x7b' :: rest =>
    if depth = 0 then .error .malformed
    else
      match readMembers (readField slots) fuel true (blank, []) rest with
      | .error fault => .error fault
      | .ok ((record, seen), rest) =>
        if slots.all fun slot => !slot.required || slot.key ∈ seen then .ok (record, rest) else .error .mismatch
  | '[' :: rest => if depth = 0 then .error .malformed else readPositions slots true blank rest
  | text => .error (otherKind text)

/-! ### Values of single kinds -/

def readString : Reader String := fun text =>
  match skipBlanks text with
  | [] => .error .unfinished
  | '\x22' :: rest => (readChars rest []).map fun (chars, rest) => (String.ofList chars, rest)
  | text => .error (otherKind text)

def readBool : Reader Bool := fun text =>
  match skipBlanks text with
  | [] => .error .unfinished
  | 't' :: rest => (skipName ['r', 'u', 'e'] rest).map (true, ·)
  | 'f' :: rest => (skipName ['a', 'l', 's', 'e'] rest).map (false, ·)
  | text => .error (otherKind text)

def readInt32 : Reader Int32 := fun text =>
  match skipBlanks text with
  | [] => .error .unfinished
  | c :: rest =>
    if c = '-' || isDigit c then
      match readNumber (c :: rest) with
      | .error fault => .error fault
      | .ok (.integer n, rest) =>
        if -2147483648 ≤ n ∧ n < 2147483648 then .ok (Int32.ofInt n, rest) else .error .mismatch
      | .ok (.float _, _) => .error .mismatch
    else .error (otherKind (c :: rest))

def readOption {α : Type} (read : Reader α) : Reader (Option α) := fun text =>
  match skipBlanks text with
  | 'n' :: rest => (skipName ['u', 'l', 'l'] rest).map (none, ·)
  | text => read.map some text

/-- Reads the name of one of several alternatives, written as a string or as an object that maps it
to null. -/
def readAlternative {α : Type} (depth : Nat) (find? : String → Option α) : Reader α := fun text =>
  let find : Reader α := fun text => do
    let (name, rest) ← readString text
    match find? name with
    | none => .error .mismatch
    | some value => return (value, rest)
  match skipBlanks text with
  | [] => .error .unfinished
  | '\x22' :: rest => find ('\x22' :: rest)
  | '\x7b' :: rest =>
    if depth = 0 then .error .malformed
    else do
      let (value, rest) ← find rest
      match skipBlanks (← skipColon rest) with
      | [] => .error .unfinished
      | 'n' :: rest =>
        let rest ← skipName ['u', 'l', 'l'] rest
        match skipBlanks rest with
        | [] => .error .unfinished
        | '\x7d' :: rest => return (value, rest)
        | _ => .error .malformed
      | rest => .error (otherKind rest)
  | _ => .error .malformed

def readValue (fuel : Nat) : (depth : Nat) → Reader Value
  | 0, text =>
    match skipBlanks text with
    | '[' :: _ => .error .malformed
    | '\x7b' :: _ => .error .malformed
    | text => scalar text
  | depth + 1, text =>
    match skipBlanks text with
    | '[' :: rest => (readItems (readValue fuel depth) fuel true).map Value.array rest
    | '\x7b' :: rest =>
      let member (members : List (String × Value)) (key : String) : Reader (List (String × Value)) := fun text => do
        (readValue fuel depth).map (insertMember key · members) (← skipColon text)
      (readMembers member fuel true []).map Value.object rest
    | text => scalar text
where
  /-- Reads a value without parts, given from its first character on. -/
  scalar : Reader Value
    | [] => .error .unfinished
    | 'n' :: rest => (skipName ['u', 'l', 'l'] rest).map (.null, ·)
    | 't' :: rest => (skipName ['r', 'u', 'e'] rest).map (.bool true, ·)
    | 'f' :: rest => (skipName ['a', 'l', 's', 'e'] rest).map (.bool false, ·)
    | '\x22' :: rest => (readChars rest []).map fun (chars, rest) => (.string (String.ofList chars), rest)
    | c :: rest => if c = '-' || isDigit c then readNumber.map Value.number (c :: rest) else .error .malformed

/-! ### Whole texts -/

/-- The deepest nesting of values that are kept. -/
def maxDepth : Nat := 127

/-- Reads a text that holds one value and nothing else. -/
def readAll {α : Type} (read : Reader α) (text : List Char) : Except Fault α :=
  match read text with
  | .error fault => .error fault
  | .ok (value, rest) => if (skipBlanks rest).isEmpty then .ok value else .error .malformed

/-- The value that a text denotes, nested at most `depth` deep. -/
def Value.parseWithin (depth : Nat) (text : String) : Except Fault Value :=
  readAll (readValue (text.length + 1) depth) text.toList

def Value.parse (text : String) : Except Fault Value := Value.parseWithin maxDepth text

end SchemaDocs.Json
