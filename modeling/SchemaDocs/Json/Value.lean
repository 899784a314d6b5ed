import SchemaDocs.Decimal.Shortest

/-!
# JSON values

Integers that fit 64 bits, signed or unsigned, stay exact; every other number is a 64-bit binary
fraction. Members of an object stand in the order in which they are written; a value that was read
has them in ascending order of their keys.
-/

namespace SchemaDocs.Json

inductive Number where
  | integer (value : Int)
  | float (value : Float)
deriving DecidableEq, Repr

inductive Value where
  | null
  | bool (value : Bool)
  | number (value : Number)
  | string (value : String)
  | array (items : List Value)
  | object (members : List (String × Value))
deriving Repr, Inhabited

/-- Puts a member at its place in an object with ascending keys, in place of an earlier one of that
key. -/
def insertMember (key : String) (value : Value) : List (String × Value) → List (String × Value)
  | [] => [(key, value)]
  | (k, v) :: rest =>
    if key < k then (key, value) :: (k, v) :: rest
    else if key = k then (key, value) :: rest
    else (k, v) :: insertMember key value rest

namespace Value

def ofInt (n : Int) : Value := .number (.integer n)

def ofText? : Option String → Value
  | none => .null
  | some text => .string text

def member? (key : String) : Value → Option Value
  | .object members => members.lookup key
  | _ => none

end Value

end SchemaDocs.Json
