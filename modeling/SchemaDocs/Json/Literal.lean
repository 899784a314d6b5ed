import SchemaDocs.Json.Value

/-!
# Number literals

A literal is kept as its digits until it is known what they are for. Its value as a fraction is
computed in three roundings at most: the leading digits that fit 64 bits become a binary fraction,
which is then multiplied or divided by a power of ten; a literal too large for the format has no
value.
-/

namespace SchemaDocs.Json

structure Literal where
  negative : Bool
  whole : List Char
  fraction : Option (List Char)
  exponent : Option (Bool × List Char)
deriving Repr, DecidableEq

def natOfDigits (digits : List Char) : Nat := digits.foldl (fun n d => 10 * n + (d.toNat - 48)) 0

/-- Leading digits appended to `significand` while the result fits 64 bits, the number of digits
taken, and those that are left. -/
def takeDigits64 (significand : Nat) : List Char → Nat × Nat × List Char
  | [] => (significand, 0, [])
  | d :: rest =>
    let next := 10 * significand + (d.toNat - 48)
    if next < Nat.pow 2 64 then
      let (final, taken, left) := takeDigits64 next rest
      (final, taken + 1, left)
    else (significand, 0, d :: rest)

/-- `value · 10 ^ exponent`, if that is not too large. -/
def scaleFloat (value : Float) (exponent : Int) : (fuel : Nat) → Option Float
  | 0 => some value
  | fuel + 1 =>
    if exponent.natAbs ≤ 308 then
      let power := Float.ofScientific 1 false exponent.natAbs
      let result := if 0 ≤ exponent then value * power else value / power
      if 0 ≤ exponent ∧ result.isInf then none else some result
    else if value == 0.0 then some value
    else if 0 ≤ exponent then none
    else scaleFloat (value / Float.ofScientific 1 false 308) (exponent + 308) fuel

/-- The greatest exponent that is still counted. -/
def maxExponent : Nat := 2147483647

def Literal.float? (literal : Literal) : Option Float :=
  let (leading, _, skipped) := takeDigits64 0 literal.whole
  let (significand, places, _) := takeDigits64 leading (literal.fraction.getD [])
  let start : Int := skipped.length - places
  let magnitude? :=
    match literal.exponent with
    | none => scaleFloat significand.toUInt64.toFloat start 4
    | some (negative, digits) =>
      let size := natOfDigits digits
      if maxExponent < size then
        if significand ≠ 0 ∧ !negative then none else some 0.0
      else scaleFloat significand.toUInt64.toFloat (if negative then start - size else start + size) 4
  magnitude?.map fun magnitude => if literal.negative then -magnitude else magnitude

/-- The number a literal denotes: an integer if it has neither fraction nor exponent and fits 64
bits, else a fraction. Minus zero is a fraction. -/
def Literal.number? (literal : Literal) : Option Number :=
  let size := natOfDigits literal.whole
  if literal.fraction.isSome || literal.exponent.isSome then literal.float?.map .float
  else if literal.negative then
    if size = 0 ∨ Nat.pow 2 63 < size then literal.float?.map .float else some (.integer (-size))
  else if size < Nat.pow 2 64 then some (.integer size)
  else literal.float?.map .float

end SchemaDocs.Json
