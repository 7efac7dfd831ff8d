import TypedColumns.Float.Binary
import TypedColumns.Number.Word
import TypedColumns.Text.Numeral

/-!
Fixed-point decimals: scaled 128-bit integers as DECIMAL columns store them, and decimals of 96 bits
with at most 28 places.
-/
namespace TypedColumns

/-- Mantissas have 96 bits. -/
def Decimal.mantissaLimit : Nat := 0x1000000000000000000000000

/-- The number `mantissa / 10 ^ scale`. -/
structure Decimal where
  mantissa : Int
  scale : Nat
  mantissa_lt : mantissa.natAbs < Decimal.mantissaLimit
  scale_le : scale ≤ 28
deriving DecidableEq

namespace Decimal

inductive Fault where
  | scale (scale : Nat)
  | tooLarge
  | tooSmall
deriving DecidableEq

def Fault.message : Fault → String
  | scale n => s!"Scale exceeds the maximum precision allowed: {n} > 28"
  | tooLarge => "Number exceeds maximum value that can be represented."
  | tooSmall => "Number less than minimum value that can be represented."

def zero : Decimal := ⟨0, 0, by decide, by decide⟩

/-- The scale is checked before the magnitude. -/
def ofScaled (mantissa : Int) (scale : Nat) : Except Fault Decimal :=
  if hs : scale ≤ 28 then
    if hm : mantissa.natAbs < mantissaLimit then .ok ⟨mantissa, scale, hm, hs⟩
    else if 0 < mantissa then .error .tooLarge
    else .error .tooSmall
  else .error (.scale scale)

/-- Decimals are equal when the numbers are. -/
def equal (a b : Decimal) : Bool :=
  a.mantissa * Nat.pow 10 b.scale == b.mantissa * Nat.pow 10 a.scale

/-- Multiplies by ten as often as asked while 96 bits suffice. -/
def raise : (places m : Nat) → Nat
  | 0, m => m
  | places + 1, m => if m * 10 < mantissaLimit then raise places (m * 10) else m

/-- Drops places; the first one dropped decides the rounding, away from zero from 5 on. -/
def lower : (places m : Nat) → Nat
  | 0, m => m
  | places + 1, m =>
    let kept := m / Nat.pow 10 (places + 1)
    if 5 ≤ m / Nat.pow 10 places % 10 then kept + 1 else kept

/-- The mantissa at another scale, as far as 96 bits allow. -/
def rescaled (d : Decimal) (scale : Nat) : Int :=
  let m := d.mantissa.natAbs
  let magnitude := if d.scale ≤ scale then raise (scale - d.scale) m else lower (d.scale - scale) m
  if d.mantissa < 0 then -magnitude else magnitude

def text (d : Decimal) : String :=
  Numeral.signed (d.mantissa < 0) (Numeral.fixed d.mantissa.natAbs d.scale)

end Decimal

/-- The number `value / 10 ^ scale`, as a DECIMAL slot and its column give it. -/
structure ScaledInt where
  value : Word .i128
  scale : Nat
deriving DecidableEq

namespace ScaledInt

def zero : ScaledInt := ⟨0, 0⟩

def text (d : ScaledInt) : String :=
  Numeral.signed (d.value.val < 0) (Numeral.fixed d.value.val.natAbs d.scale)

def toDecimal (d : ScaledInt) : Except Decimal.Fault Decimal :=
  Decimal.ofScaled d.value.val d.scale

/-- The value is rounded, the power of ten at every squaring and product, and then their quotient. -/
def toDouble (d : ScaledInt) : Binary .double :=
  (Binary.ofInt .double d.value.val).div
    (.mulPower (.ofInt .double 1) (.ofInt .double 10) d.scale)

end ScaledInt
end TypedColumns
