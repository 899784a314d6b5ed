import SchemaDocs.Json.Value

/-!
# Writing JSON

Two layouts: `compact` on one line, and `pretty` with two blanks of indentation per level, where an
empty array or object stays on one line. Strings escape quotes, backslashes and the characters below
the blank. A fraction is written with the fewest digits that read back.
-/

namespace SchemaDocs.Json

def hexDigit (n : Nat) : Char := if n < 10 then Char.ofNat (48 + n) else Char.ofNat (87 + n)

def escapeChar (c : Char) : List Char :=
  if c = '\x22' then ['\\', '\x22']
  else if c = '\\' then ['\\', '\\']
  else if c = '\n' then ['\\', 'n']
  else if c = '\r' then ['\\', 'r']
  else if c = '\t' then ['\\', 't']
  else if c = '\x08' then ['\\', 'b']
  else if c = '\x0c' then ['\\', 'f']
  else if c.toNat < 32 then ['\\', 'u', '0', '0', hexDigit (c.toNat / 16), hexDigit (c.toNat % 16)]
  else [c]

def quote (text : String) : String :=
  String.ofList ('\x22' :: text.toList.flatMap escapeChar ++ ['\x22'])

/-- A decimal is written positionally while the point lies less than sixteen digits behind the first
and less than five before it, else with an exponent that shows its sign. -/
def decimalText (d : Decimal.Scaled) : String :=
  let digits := Nat.toDigits 10 d.digits
  let point : Int := digits.length + d.exponent
  if 0 ≤ d.exponent ∧ point ≤ 16 then
    String.ofList (digits ++ List.replicate d.exponent.toNat '0') ++ ".0"
  else if 0 < point ∧ point ≤ 16 then
    String.ofList (digits.take point.toNat ++ '.' :: digits.drop point.toNat)
  else if -5 < point ∧ point ≤ 0 then
    "0." ++ String.ofList (List.replicate (-point).toNat '0' ++ digits)
  else
    let exponent := point - 1
    let lead := match digits with
      | [] => []
      | [d] => [d]
      | d :: rest => d :: '.' :: rest
    String.ofList lead ++ (if exponent < 0 then "e-" else "e+") ++ toString exponent.natAbs

/-- A 64-bit fraction; what is not finite is null. -/
def floatText (value : Float) : String :=
  let (negative, mantissa, exponent) := Decimal.unpack value.toBits
  if exponent = 972 then "null"
  else
    (if negative then "-" else "") ++
      (if mantissa = 0 then "0.0" else decimalText (Decimal.shortest mantissa exponent))

def Number.text : Number → String
  | .integer n => toString n
  | .float value => floatText value

/-- A line end and the indentation of a nesting level. -/
def newline (level : Nat) : String := "\n" ++ String.ofList (List.replicate (2 * level) ' ')

mutual

def Value.compact : Value → String
  | .null => "null"
  | .bool value => if value then "true" else "false"
  | .number value => value.text
  | .string value => quote value
  | .array items => "[" ++ ",".intercalate (Value.compactItems items) ++ "]"
  | .object members => "\x7b" ++ ",".intercalate (Value.compactMembers members) ++ "\x7d"

/-- The items of an array, each on one line. -/
def Value.compactItems : List Value → List String
  | [] => []
  | item :: items => item.compact :: Value.compactItems items

/-- The members of an object, each on one line. -/
def Value.compactMembers : List (String × Value) → List String
  | [] => []
  | (key, value) :: members => (quote key ++ ":" ++ value.compact) :: Value.compactMembers members

end

mutual

/-- The value over several lines, at a nesting level. -/
def Value.prettyAt (level : Nat) : Value → String
  | .null => "null"
  | .bool value => if value then "true" else "false"
  | .number value => value.text
  | .string value => quote value
  | .array [] => "[]"
  | .array (item :: items) =>
    "[" ++ ",".intercalate (Value.prettyItems (level + 1) (item :: items)) ++ newline level ++ "]"
  | .object [] => "\x7b\x7d"
  | .object (member :: members) =>
    "\x7b" ++ ",".intercalate (Value.prettyMembers (level + 1) (member :: members)) ++ newline level ++ "\x7d"

/-- The items of an array, each on a line of its own. -/
def Value.prettyItems (level : Nat) : List Value → List String
  | [] => []
  | item :: items => (newline level ++ item.prettyAt level) :: Value.prettyItems level items

/-- The members of an object, each on a line of its own. -/
def Value.prettyMembers (level : Nat) : List (String × Value) → List String
  | [] => []
  | (key, value) :: members =>
    (newline level ++ quote key ++ ": " ++ value.prettyAt level) :: Value.prettyMembers level members

end

def Value.pretty (value : Value) : String := value.prettyAt 0

end SchemaDocs.Json
