/-!
# Shortest decimals

A positive binary fraction `mantissa · 2 ^ exponent` with 53 significant bits stands for the
interval of reals that round to it. Of the decimals inside that interval the shortest one is chosen,
and of the equally short ones the nearest; a tie goes to the even digit. The search is exact: every
comparison is between natural numbers over a common denominator.
-/

namespace SchemaDocs.Decimal

/-- The number `digits · 10 ^ exponent`. -/
structure Scaled where
  digits : Nat
  exponent : Int
deriving Repr, DecidableEq

/-- A positive rational number as a quotient. -/
structure Quotient where
  num : Nat
  den : Nat

def Quotient.scale10 (q : Quotient) (exponent : Int) : Quotient :=
  if 0 ≤ exponent then ⟨q.num * Nat.pow 10 exponent.toNat, q.den⟩ else ⟨q.num, q.den * Nat.pow 10 (-exponent).toNat⟩

/-- The greatest `k` with `10 ^ k ≤ q`. -/
def Quotient.order10 (q : Quotient) : Int :=
  if q.den ≤ q.num then (Nat.toDigits 10 (q.num / q.den)).length - 1
  else
    let width := (Nat.toDigits 10 (q.den / q.num)).length
    if q.den = q.num * Nat.pow 10 (width - 1) then 1 - width else -width

/-- The reals that round to a number, as multiples of a common `unit`: from `low` over `value` to
`high`, the ends included when `closed`. -/
structure Rounding where
  low : Nat
  value : Nat
  high : Nat
  closed : Bool
  unit : Quotient

/-- Whether `candidate · 10 ^ exponent` rounds to the number. -/
def Rounding.holds (r : Rounding) (candidate : Nat) (exponent : Int) : Bool :=
  let unit := r.unit.scale10 (-exponent)
  let point := candidate * unit.den
  if r.closed then r.low * unit.num ≤ point && point ≤ r.high * unit.num
  else r.low * unit.num < point && point < r.high * unit.num

/-- The better of the two points of the grid `10 ^ exponent` around the number, if one rounds to it. -/
def Rounding.onGrid? (r : Rounding) (exponent : Int) : Option Scaled :=
  let unit := r.unit.scale10 (-exponent)
  let scaled := r.value * unit.num
  let below := scaled / unit.den
  let twice := 2 * (scaled % unit.den)
  let preferBelow := twice < unit.den || (twice = unit.den && below % 2 = 0)
  let belowFits := 0 < below && r.holds below exponent
  let aboveFits := r.holds (below + 1) exponent
  if belowFits && (preferBelow || !aboveFits) then some ⟨below, exponent⟩
  else if aboveFits then some ⟨below + 1, exponent⟩
  else none

/-- The first grid with a fitting point, from `count` digits on, for a number of decimal order
`order`. -/
def Rounding.search (r : Rounding) (order : Int) (count : Nat) : (more : Nat) → Scaled
  | 0 => ⟨r.value, 0⟩
  | more + 1 =>
    match r.onGrid? (order + 1 - count) with
    | some decimal => decimal
    | none => r.search order (count + 1) more

def Scaled.normalize (d : Scaled) : (fuel : Nat) → Scaled
  | 0 => d
  | fuel + 1 =>
    if d.digits ≠ 0 ∧ d.digits % 10 = 0 then Scaled.normalize ⟨d.digits / 10, d.exponent + 1⟩ fuel else d

/-- The shortest decimal that rounds to `mantissa · 2 ^ exponent`. Below a power of two the
neighbour is only half as far away, unless the exponent is the least one. -/
def shortest (mantissa : Nat) (exponent : Int) : Scaled :=
  let halfGapBelow := if mantissa = Nat.pow 2 52 ∧ exponent ≠ -1074 then 1 else 2
  let unit : Quotient :=
    if 2 ≤ exponent then ⟨Nat.pow 2 (exponent - 2).toNat, 1⟩ else ⟨1, Nat.pow 2 (2 - exponent).toNat⟩
  let rounding : Rounding :=
    ⟨4 * mantissa - halfGapBelow, 4 * mantissa, 4 * mantissa + 2, mantissa % 2 = 0, unit⟩
  let order := Quotient.order10 ⟨4 * mantissa * unit.num, unit.den⟩
  (rounding.search order 1 17).normalize 400

/-- The sign, mantissa and exponent of a finite number in the 64-bit binary format. -/
def unpack (bits : UInt64) : Bool × Nat × Int :=
  let negative := bits >>> 63 = 1
  let fraction := (bits &&& 0xFFFFFFFFFFFFF).toNat
  let biased := ((bits >>> 52) &&& 0x7FF).toNat
  if biased = 0 then (negative, fraction, -1074) else (negative, fraction + Nat.pow 2 52, biased - 1075)

end SchemaDocs.Decimal
