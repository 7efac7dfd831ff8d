import TypedColumns.Float.Binary
import TypedColumns.Text.Numeral

/-!
The shortest decimal that reads back as a given floating-point number, written without an exponent.
-/
namespace TypedColumns.Binary

variable {f : FloatFormat}

/-- A quarter of the last place is the unit of `low`, `value` and `high`; the reals between `low`
and `high` round to the number, the ends too when its significand is even. -/
structure Neighbourhood where
  low : Nat
  value : Nat
  high : Nat
  closed : Bool

/-- Below a power of two the neighbour is only half as far away. -/
def neighbourhood (x : Binary f) : Neighbourhood :=
  let m := x.significand
  let below := if x.fraction = 0 ∧ x.exponentField ≠ 0 then 1 else 2
  ⟨4 * m - below, 4 * m, 4 * m + 2, m % 2 = 0⟩

def Neighbourhood.contains (i : Neighbourhood) (n unit : Nat) : Bool :=
  if i.closed then i.low * unit ≤ n && n ≤ i.high * unit else i.low * unit < n && n < i.high * unit

/-- The multiple of `step` among the two around the value that lies in the interval, the nearer one
when both do and the larger one when they are equally near. Lengths are multiples of `1 / unit`. -/
def Neighbourhood.gridPoint? (i : Neighbourhood) (unit step : Nat) : Option Nat :=
  let below := i.value * unit / step
  let down := i.contains (below * step) unit
  let up := i.contains ((below + 1) * step) unit
  let upNearer := 2 * (i.value * unit % step) ≥ step
  if up && (!down || upNearer) then some (below + 1)
  else if down then some below
  else none

/-- Tries the grids of multiples of `10 ^ e`, coarse to fine. -/
def Neighbourhood.shortest (i : Neighbourhood) (exponent : Int) :
    (fuel : Nat) → (e : Int) → Nat × Int
  | 0, e => (i.value, e)
  | fuel + 1, e =>
    let unit := Nat.pow 2 exponent.toNat * Nat.pow 10 (-e).toNat
    let step := Nat.pow 2 (-exponent).toNat * Nat.pow 10 e.toNat
    match i.gridPoint? unit step with
    | some n => (n, e)
    | none => i.shortest exponent fuel (e - 1)

/-- Digits `n` and exponent `e` of the shortest decimal `n * 10 ^ e`. -/
def shortest (x : Binary f) : Nat × Int :=
  let exponent := x.exponent - 2
  let magnitude := (Nat.log2 x.significand + x.exponent) * 30103 / 100000
  x.neighbourhood.shortest exponent 24 (magnitude + 2)

def magnitudeText (x : Binary f) : String :=
  if x.isInfinite then "inf"
  else if x.isZero then "0"
  else
    let (n, e) := x.shortest
    if e < 0 then Numeral.fixed n (-e).toNat else toString n ++ Numeral.zeros e.toNat

def text (x : Binary f) : String :=
  if x.isNaN then "NaN" else Numeral.signed x.negative x.magnitudeText

end TypedColumns.Binary
