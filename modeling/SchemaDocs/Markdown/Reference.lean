import SchemaDocs.Markdown.Line
import SchemaDocs.Markdown.NamedCharacters
import SchemaDocs.Text.LetterCase

/-!
# Character references, labels, targets and titles

The pieces of links. Each function takes the text from the piece on and returns it with what is
left. Inside a table a vertical bar is written with a backslash before it.
-/

namespace SchemaDocs.Markdown

/-! ### Character references -/

/-- The value of a digit in a base up to sixteen. -/
def digitValue? (base : Nat) (c : Char) : Option Nat :=
  let value? :=
    if '0' ≤ c ∧ c ≤ '9' then some (c.toNat - 48)
    else if 'a' ≤ c ∧ c ≤ 'f' then some (c.toNat - 87)
    else if 'A' ≤ c ∧ c ≤ 'F' then some (c.toNat - 55)
    else none
  value?.filter (· < base)

/-- Reads at most `limit` digits: their value, their number, and the rest. -/
def readDigitsUpTo (base : Nat) : (limit : Nat) → List Char → (value : Nat) → Nat × Nat × List Char
  | limit + 1, c :: rest, value =>
    match digitValue? base c with
    | some digit =>
      let (value, count, rest) := readDigitsUpTo base limit rest (base * value + digit)
      (value, count + 1, rest)
    | none => (value, 0, c :: rest)
  | _, rest, value => (value, 0, rest)

/-- The character of a code point; zero gives the replacement character. -/
def charOfCode? (code : Nat) : Option Char :=
  if code = 0 then some (Char.ofNat 0xFFFD)
  else if code.isValidChar then some (Char.ofNat code)
  else none

/-- The characters that a reference stands for, with the rest behind its semicolon. The text begins
behind the ampersand. -/
def characterReference? (text : List Char) : Option (List Char × List Char) :=
  match text with
  | '#' :: rest =>
    let (base, limit, digits) := match rest with
      | 'x' :: rest | 'X' :: rest => (16, 6, rest)
      | _ => (10, 7, rest)
    let (code, count, rest) := readDigitsUpTo base limit digits 0
    match rest with
    | ';' :: rest => if count = 0 then none else (charOfCode? code).map fun c => ([c], rest)
    | _ => none
  | _ =>
    match text.dropWhile isAsciiAlphanumeric with
    | ';' :: rest => (namedCharacters? (text.takeWhile isAsciiAlphanumeric)).map fun chars => (chars, rest)
    | _ => none

/-- Resolves backslashes before punctuation and character references. -/
def unescapeWithin (inTable : Bool) : (fuel : Nat) → List Char → List Char
  | 0, text => text
  | _ + 1, [] => []
  | fuel + 1, '\\' :: '\\' :: '|' :: rest =>
    if inTable then '|' :: unescapeWithin inTable fuel rest
    else '\\' :: unescapeWithin inTable fuel ('|' :: rest)
  | fuel + 1, '\\' :: c :: rest =>
    if Text.isAsciiPunctuation c then c :: unescapeWithin inTable fuel rest
    else '\\' :: unescapeWithin inTable fuel (c :: rest)
  | fuel + 1, '&' :: rest =>
    match characterReference? rest with
    | some (chars, rest) => chars ++ unescapeWithin inTable fuel rest
    | none => '&' :: unescapeWithin inTable fuel rest
  | fuel + 1, '\r' :: rest => unescapeWithin inTable fuel rest
  | fuel + 1, c :: rest => c :: unescapeWithin inTable fuel rest

def unescape (inTable : Bool) (text : List Char) : String :=
  String.ofList (unescapeWithin inTable text.length text)

/-! ### Labels -/

def collapseBlanks : List Char → List Char
  | [] => []
  | c :: rest =>
    if isAsciiBlank c then
      match collapseBlanks rest with
      | ' ' :: more => ' ' :: more
      | more => ' ' :: more
    else c :: collapseBlanks rest

/-- A label with its blanks collapsed and none at its ends. -/
def normalLabel (text : List Char) : List Char :=
  let collapsed := (collapseBlanks text).dropWhile (· = ' ')
  (collapsed.reverse.dropWhile (· = ' ')).reverse

/-- The form of a label that two spellings of it share. -/
def labelKey (label : List Char) : List Char := Text.foldCase label

/-- Reads a label behind its opening bracket up to the first closing bracket that no backslash
precedes. `limit` bounds the characters, and `done` holds those so far in reverse. -/
def readLabelChars (inTable : Bool) : (limit : Nat) → List Char → (done : List Char) → Option (List Char × List Char)
  | 0, _, _ => none
  | _ + 1, [], _ => none
  | _ + 1, ']' :: rest, done => some (done.reverse, rest)
  | _ + 1, '[' :: _, _ => none
  | limit + 1, '\\' :: c :: rest, done =>
    if inTable && c = '|' then readLabelChars inTable limit rest ('|' :: done)
    else if isLineEnd c then readLabelChars inTable limit (c :: rest) ('\\' :: done)
    else readLabelChars inTable limit rest (c :: '\\' :: done)
  | limit + 1, c :: rest, done => readLabelChars inTable limit rest (c :: done)

/-- Reads a label behind its opening bracket: it is not blank, and has at most 999 characters. -/
def readLabel? (inTable : Bool) (text : List Char) : Option (List Char × List Char) :=
  match readLabelChars inTable 1000 text [] with
  | some (label, rest) => if label.all isAsciiBlank then none else some (normalLabel label, rest)
  | none => none

/-! ### Targets and titles -/

def readAngledTarget : List Char → (done : List Char) → Option (List Char × List Char)
  | [], _ => none
  | '>' :: rest, done => some (done.reverse, rest)
  | '\\' :: c :: rest, done =>
    if Text.isAsciiPunctuation c then readAngledTarget rest (c :: '\\' :: done)
    else if isLineEnd c then none
    else readAngledTarget rest (c :: '\\' :: done)
  | c :: rest, done => if c = '<' || isLineEnd c then none else readAngledTarget rest (c :: done)

/-- Reads a target without angle brackets: up to a blank, a control character, or a closing
parenthesis that opens nowhere in it. At most `maxOpen` parentheses are open before one more opens. -/
def readBareTarget (maxOpen : Nat) : List Char → (opened : Nat) → (done : List Char) → Option (List Char × List Char)
  | [], opened, done => if opened = 0 then some (done.reverse, []) else none
  | '\\' :: c :: rest, opened, done =>
    if Text.isAsciiPunctuation c then readBareTarget maxOpen rest opened (c :: '\\' :: done)
    else readBareTarget maxOpen (c :: rest) opened ('\\' :: done)
  | '(' :: rest, opened, done =>
    if maxOpen < opened then none else readBareTarget maxOpen rest (opened + 1) ('(' :: done)
  | ')' :: rest, opened, done =>
    if opened = 0 then some (done.reverse, ')' :: rest) else readBareTarget maxOpen rest (opened - 1) (')' :: done)
  | c :: rest, opened, done =>
    if c.toNat ≤ 0x20 then if opened = 0 then some (done.reverse, c :: rest) else none
    else readBareTarget maxOpen rest opened (c :: done)

def readTarget? (maxOpen : Nat) (text : List Char) : Option (List Char × List Char) :=
  match text with
  | '<' :: rest => readAngledTarget rest []
  | _ => readBareTarget maxOpen text 0 []

def titleEnd? : Char → Option Char
  | '\x22' => some '\x22'
  | '\x27' => some '\x27'
  | '(' => some ')'
  | _ => none

/-- Reads a title up to its closing quote. A line end stays, without the blanks that follow it. -/
def readTitleChars (inTable : Bool) (opening closing : Char) : (fuel : Nat) → List Char → Option (List Char × List Char)
  | 0, _ => none
  | _ + 1, [] => none
  | fuel + 1, c :: rest =>
    let continueWith (chars : List Char) (rest : List Char) :=
      (readTitleChars inTable opening closing fuel rest).map fun (title, rest) => (chars ++ title, rest)
    if c = closing then some ([], rest)
    else if c = opening then none
    else if isLineEnd c then
      let rest := match c, rest with
        | '\r', '\n' :: rest => rest
        | _, rest => rest
      continueWith ['\n'] (rest.dropWhile isLineBlank)
    else if c = '&' then
      match characterReference? rest with
      | some (chars, rest) => continueWith chars rest
      | none => continueWith [c] rest
    else if c = '\\' then
      match rest with
      | d :: rest => if Text.isAsciiPunctuation d then continueWith [d] rest else continueWith [c] (d :: rest)
      | [] => none
    else continueWith [c] rest

def readTitle? (inTable : Bool) (text : List Char) : Option (String × List Char) :=
  match text with
  | [] => none
  | opening :: rest =>
    match titleEnd? opening with
    | none => none
    | some closing =>
      (readTitleChars inTable opening closing (rest.length + 1) rest).map fun (title, rest) => (String.ofList title, rest)

/-- The text behind blanks that hold one line end at most. -/
def passSeparator (text : List Char) : List Char :=
  match text.dropWhile isLineBlank with
  | '\r' :: '\n' :: rest => rest.dropWhile isLineBlank
  | c :: rest => if isLineEnd c then rest.dropWhile isLineBlank else c :: rest
  | [] => []

/-- Reads the target and title of a link, from the opening parenthesis on. -/
def readInlineTarget? (inTable : Bool) (text : List Char) : Option (String × String × List Char) :=
  match text with
  | '(' :: rest =>
    match readTarget? 5 (passSeparator rest) with
    | none => none
    | some (target, rest) =>
      let rest := passSeparator rest
      let (title, rest) := match readTitle? inTable rest with
        | some (title, rest) => (title, passSeparator rest)
        | none => ("", rest)
      match rest with
      | ')' :: rest => some (unescape inTable target, title, rest)
      | _ => none
  | _ => none

/-! ### Definitions -/

structure Definition where
  key : List Char
  target : String
  title : String
deriving Repr

/-- The text from the next character that is no blank on, and the number of line ends passed. -/
def passLines : List Char → Nat × List Char
  | '\r' :: '\n' :: rest =>
    let (count, rest) := passLines rest
    (count + 1, rest)
  | c :: rest =>
    if isLineBlank c then passLines rest
    else if isLineEnd c then
      let (count, rest) := passLines rest
      (count + 1, rest)
    else (0, c :: rest)
  | [] => (0, [])

def passLineEnd? (text : List Char) : Option (List Char) :=
  match text.dropWhile isLineBlank with
  | [] => some []
  | '\r' :: '\n' :: rest => some rest
  | c :: rest => if isLineEnd c then some rest else none

/-- Reads a definition, such as `[label]: target "title"`, from its opening bracket on. A title that
does not end its line is left unread if it begins a line. -/
def readDefinition? (inTable : Bool) (text : List Char) : Option (Definition × List Char) :=
  match text with
  | '[' :: rest =>
    match readLabel? inTable rest with
    | some (label, ':' :: rest) =>
      let (linesBefore, rest) := passLines rest
      if 1 < linesBefore then none
      else
        match readTarget? 1 rest with
        | none => none
        | some (target, behindTarget) =>
          if behindTarget.length = rest.length then none
          else
            let key := labelKey label
            let target := unescape inTable target
            let untitled := (passLineEnd? behindTarget).map fun rest => (⟨key, target, ""⟩, rest)
            let (linesBetween, behind) := passLines behindTarget
            if behind.length = behindTarget.length then untitled
            else if 1 < linesBetween then untitled
            else
              match readTitle? inTable behind with
              | none => untitled
              | some (title, rest) =>
                match passLineEnd? rest with
                | some rest => some (⟨key, target, title⟩, rest)
                | none => untitled
    | _ => none
  | _ => none

end SchemaDocs.Markdown
