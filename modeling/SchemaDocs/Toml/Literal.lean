import SchemaDocs.Toml.Value

/-!
# Literals of TOML

Strings, numbers and dates. A reader takes a literal off the front of a text and returns it with the
rest; a text that does not begin with one gives nothing.
-/

namespace SchemaDocs.Toml

abbrev Reader (α : Type) := List Char → Option (α × List Char)

/-- Space and tab. -/
def isBlank (c : Char) : Bool := c = ' ' || c = '\t'

/-- Characters that may stand in comments: tabs and all but control characters. -/
def isTextChar (c : Char) : Bool := c = '\t' || (0x20 ≤ c.toNat && c.toNat ≠ 0x7F)

/-- The text behind a line break, if the text begins with one. -/
def afterBreak? : List Char → Option (List Char)
  | '\n' :: rest => some rest
  | '\r' :: '\n' :: rest => some rest
  | _ => none

/-! ### Strings -/

def hexValue? (c : Char) : Option Nat :=
  if '0' ≤ c ∧ c ≤ '9' then some (c.toNat - 48)
  else if 'a' ≤ c ∧ c ≤ 'f' then some (c.toNat - 87)
  else if 'A' ≤ c ∧ c ≤ 'F' then some (c.toNat - 55)
  else none

def readCode (width : Nat) : Reader Char := fun text => do
  let digits := text.take width
  if digits.length < width then none
  else
    let code ← digits.foldlM (fun n c => (hexValue? c).map (16 * n + ·)) 0
    if code.isValidChar then some (Char.ofNat code, text.drop width) else none

def readEscape : Reader Char
  | 'b' :: rest => some ('\x08', rest)
  | 't' :: rest => some ('\t', rest)
  | 'n' :: rest => some ('\n', rest)
  | 'f' :: rest => some ('\x0c', rest)
  | 'r' :: rest => some ('\r', rest)
  | '\x22' :: rest => some ('\x22', rest)
  | '\\' :: rest => some ('\\', rest)
  | 'u' :: rest => readCode 4 rest
  | 'U' :: rest => readCode 8 rest
  | _ => none

/-- Whether quotes of this kind leave backslashes alone. -/
def isLiteralQuote (quote : Char) : Bool := quote = '\x27'

/-- Reads the rest of a string on one line. What was read so far comes reversed in `done`. -/
def readLineString (quote : Char) : (fuel : Nat) → (done : List Char) → Reader String
  | 0, _, _ => none
  | _ + 1, _, [] => none
  | fuel + 1, done, c :: rest =>
    if c = quote then some (String.ofList done.reverse, rest)
    else if c = '\\' && !isLiteralQuote quote then
      match readEscape rest with
      | some (character, rest) => readLineString quote fuel (character :: done) rest
      | none => none
    else if isTextChar c then readLineString quote fuel (c :: done) rest
    else none

/-- The text behind blanks and line breaks, of which one at least is a break, behind a backslash. -/
def afterContinuation? (text : List Char) : Option (List Char) :=
  (afterBreak? (text.dropWhile isBlank)).map passGaps
where
  passGaps : List Char → List Char
    | '\r' :: '\n' :: rest => passGaps rest
    | c :: rest => if isBlank c || c = '\n' then passGaps rest else c :: rest
    | [] => []

/-- Reads the rest of a string on several lines. It ends with three quotes, and up to two more
before them belong to it. -/
def readLinesString (quote : Char) : (fuel : Nat) → (done : List Char) → Reader String
  | 0, _, _ => none
  | _ + 1, _, [] => none
  | fuel + 1, done, c :: rest =>
    if c = quote then
      let count := ((c :: rest).takeWhile (· = quote)).length
      let behind := (c :: rest).drop count
      if count < 3 then readLinesString quote fuel (List.replicate count quote ++ done) behind
      else if count < 6 then some (String.ofList (List.replicate (count - 3) quote ++ done).reverse, behind)
      else none
    else if c = '\\' && !isLiteralQuote quote then
      match afterContinuation? rest with
      | some rest => readLinesString quote fuel done rest
      | none =>
        match readEscape rest with
        | some (character, rest) => readLinesString quote fuel (character :: done) rest
        | none => none
    else
      match afterBreak? (c :: rest) with
      | some rest => readLinesString quote fuel ('\n' :: done) rest
      | none => if isTextChar c then readLinesString quote fuel (c :: done) rest else none

/-- Reads a string of any kind. A line break behind the three opening quotes does not belong to it. -/
def readString : Reader String
  | [] => none
  | quote :: rest =>
    if quote ≠ '\x22' && quote ≠ '\x27' then none
    else if rest.take 2 = [quote, quote] then
      let body := rest.drop 2
      let body := (afterBreak? body).getD body
      readLinesString quote (body.length + 1) [] body
    else readLineString quote (rest.length + 1) [] rest

/-! ### Numbers -/

def readDigits (isDigit : Char → Bool) : Reader (List Char)
  | [] => none
  | c :: rest =>
    if !isDigit c then none
    else
      match rest with
      | '_' :: d :: more =>
        if isDigit d then (readDigits isDigit (d :: more)).map fun (digits, rest) => (c :: digits, rest)
        else some ([c], rest)
      | d :: more =>
        if isDigit d then (readDigits isDigit (d :: more)).map fun (digits, rest) => (c :: digits, rest)
        else some ([c], rest)
      | [] => some ([c], [])

def natOfDigits (radix : Nat) (digits : List Char) : Nat :=
  digits.foldl (fun n c => radix * n + (hexValue? c).getD 0) 0

def integerWithin? (n : Int) : Option Value :=
  if -9223372036854775808 ≤ n ∧ n ≤ 9223372036854775807 then some (.integer n) else none

def readSign : List Char → List Char × List Char
  | '+' :: rest => (['+'], rest)
  | '-' :: rest => (['-'], rest)
  | text => ([], text)

/-- Reads a sign and the digits of a whole decimal number, which has no leading zeros. -/
def readDecimal : Reader (List Char × List Char) := fun text =>
  let (sign, text) := readSign text
  match text with
  | '0' :: rest => some ((sign, ['0']), rest)
  | _ => (readDigits Char.isDigit text).map fun (digits, rest) => ((sign, digits), rest)

def readInteger : Reader Value := fun text =>
  let marked (radix : Nat) (rest : List Char) : Option (Value × List Char) := do
    let (digits, rest) ← readDigits (fun c => (hexValue? c).any (· < radix)) rest
    some (← integerWithin? (natOfDigits radix digits), rest)
  match text with
  | '0' :: 'x' :: rest => marked 16 rest
  | '0' :: 'o' :: rest => marked 8 rest
  | '0' :: 'b' :: rest => marked 2 rest
  | _ => do
    let ((sign, digits), rest) ← readDecimal text
    let n : Int := natOfDigits 10 digits
    some (← integerWithin? (if sign = ['-'] then -n else n), rest)

/-- Whether the decimal number `digits · 10 ^ exponent` lies beyond the range of a 64-bit binary
fraction. -/
def overflows (digits : List Char) (exponent : Int) : Bool :=
  let digits := digits.dropWhile (· = '0')
  let magnitude : Int := digits.length + exponent
  if digits.isEmpty || magnitude < 300 then false
  else if 320 < magnitude then true
  else
    let bound := Nat.pow 2 1024 - Nat.pow 2 970
    let n := natOfDigits 10 digits
    if 0 ≤ exponent then bound ≤ n * Nat.pow 10 exponent.toNat else bound * Nat.pow 10 (-exponent).toNat ≤ n

/-- Reads a fraction, an exponent or both behind a whole number. -/
def readFloat : Reader Value := fun text => do
  let ((sign, whole), rest) ← readDecimal text
  let (fraction, rest) ← match rest with
    | '.' :: rest => readDigits Char.isDigit rest
    | _ => some ([], rest)
  let (exponent?, rest) ← match rest with
    | c :: rest' =>
      if c = 'e' || c = 'E' then
        let (sign, rest') := readSign rest'
        (readDigits Char.isDigit rest').map fun (digits, rest) => (some (sign, digits), rest)
      else some (none, rest)
    | [] => some (none, rest)
  if fraction.isEmpty && exponent?.isNone then none
  else
    let (mark, digits) := exponent?.getD ([], [])
    let n : Int := natOfDigits 10 digits
    let exponent := if mark = ['-'] then -n else n
    if sign ≠ ['-'] && overflows (whole ++ fraction) (exponent - fraction.length) then none
    else some (.float (String.ofList (text.take (text.length - rest.length))), rest)

/-- Reads an infinity or what is not a number. -/
def readSpecialFloat : Reader Value := fun text =>
  let (sign, rest) := readSign text
  match rest with
  | 'i' :: 'n' :: 'f' :: rest => some (.float (String.ofList (sign ++ ['i', 'n', 'f'])), rest)
  | 'n' :: 'a' :: 'n' :: rest => some (.float (String.ofList (sign ++ ['n', 'a', 'n'])), rest)
  | _ => none

/-! ### Dates -/

/-- Reads a number of a fixed width within bounds. -/
def readPart (width least greatest : Nat) : Reader Nat := fun text =>
  let digits := text.take width
  let n := natOfDigits 10 digits
  if digits.length = width && digits.all Char.isDigit && least ≤ n && n ≤ greatest then some (n, text.drop width) else none

def passChar (c : Char) : List Char → Option (List Char)
  | [] => none
  | d :: rest => if d = c then some rest else none

def daysOfMonth (year month : Nat) : Nat :=
  if month = 2 then if year % 4 = 0 && (year % 100 ≠ 0 || year % 400 = 0) then 29 else 28
  else if [4, 6, 9, 11].contains month then 30
  else 31

def passDay (text : List Char) : Option (List Char) := do
  let (year, text) ← readPart 4 0 9999 text
  let (month, text) ← readPart 2 1 12 (← passChar '-' text)
  let (_, text) ← readPart 2 1 (daysOfMonth year month) (← passChar '-' text)
  some text

/-- Passes a time of day. Its fraction is optional. -/
def passTime (text : List Char) : Option (List Char) := do
  let (_, text) ← readPart 2 0 23 text
  let (_, text) ← readPart 2 0 59 (← passChar ':' text)
  let (_, text) ← readPart 2 0 60 (← passChar ':' text)
  match text with
  | '.' :: rest => if rest.head?.any Char.isDigit then some (rest.dropWhile Char.isDigit) else some text
  | _ => some text

/-- Passes the distance to universal time, which is optional. -/
def passOffset (text : List Char) : List Char :=
  match text with
  | c :: rest =>
    if c = 'Z' || c = 'z' then rest
    else if c = '+' || c = '-' then
      (do
        let (_, rest) ← readPart 2 0 23 rest
        let (_, rest) ← readPart 2 0 59 (← passChar ':' rest)
        some rest : Option (List Char)).getD text
    else text
  | [] => []

/-- Reads a day, a time of day, or both. -/
def readDate : Reader Value := fun text => do
  let rest ← match passDay text with
    | some rest =>
      match rest with
      | c :: later =>
        if c = 'T' || c = 't' || c = ' ' then some (((passTime later).map passOffset).getD rest) else some rest
      | [] => some []
    | none => passTime text
  some (.date (String.ofList (text.take (text.length - rest.length))), rest)

end SchemaDocs.Toml
