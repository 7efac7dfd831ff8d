/-!
IEEE interchange formats as bit patterns: comparison, widening, and rounding of an exact quotient
to the nearest representable number.
-/
namespace TypedColumns

inductive FloatFormat where
  | single | double
deriving DecidableEq, Inhabited

namespace FloatFormat

def fractionBits : FloatFormat → Nat
  | single => 23
  | double => 52

def exponentBits : FloatFormat → Nat
  | single => 8
  | double => 11

def width (f : FloatFormat) : Nat := 1 + f.exponentBits + f.fractionBits

def bytes : FloatFormat → Nat
  | single => 4
  | double => 8

/-- Exponent of the last place of the subnormal numbers. -/
def minExponent : FloatFormat → Int
  | single => -149
  | double => -1074

/-- Exponent field of infinities and NaNs. -/
def specialExponent (f : FloatFormat) : Nat := Nat.pow 2 f.exponentBits - 1

end FloatFormat

structure Binary (f : FloatFormat) where
  bits : Nat
  bits_lt : bits < Nat.pow 2 f.width
deriving DecidableEq

namespace Binary

variable {f : FloatFormat}

def ofBits (f : FloatFormat) (bits : Nat) : Binary f :=
  ⟨bits % Nat.pow 2 f.width, Nat.mod_lt _ (Nat.two_pow_pos _)⟩

instance : Inhabited (Binary f) := ⟨ofBits f 0⟩

instance : OfNat (Binary f) 0 := ⟨ofBits f 0⟩

def negative (x : Binary f) : Bool := x.bits / Nat.pow 2 (f.width - 1) = 1

def exponentField (x : Binary f) : Nat :=
  x.bits / Nat.pow 2 f.fractionBits % Nat.pow 2 f.exponentBits

def fraction (x : Binary f) : Nat := x.bits % Nat.pow 2 f.fractionBits

def isNaN (x : Binary f) : Bool := x.exponentField == f.specialExponent && x.fraction != 0

def isInfinite (x : Binary f) : Bool := x.exponentField == f.specialExponent && x.fraction == 0

def isZero (x : Binary f) : Bool := x.exponentField == 0 && x.fraction == 0

/-- A finite number is `significand * 2 ^ exponent`, up to its sign. -/
def significand (x : Binary f) : Nat :=
  if x.exponentField = 0 then x.fraction else Nat.pow 2 f.fractionBits + x.fraction

def exponent (x : Binary f) : Int :=
  if x.exponentField = 0 then f.minExponent else f.minExponent + (x.exponentField - 1 : Nat)

/-- Numeric equality: a NaN differs from itself and the zeros are equal. -/
def equal (x y : Binary f) : Bool :=
  !x.isNaN && !y.isNaN && (x.bits == y.bits || (x.isZero && y.isZero))

instance : BEq (Binary f) := ⟨equal⟩

/-- Puts a sign on a magnitude given by its bits. -/
def signed (f : FloatFormat) (negative : Bool) (magnitude : Nat) : Binary f :=
  ofBits f (magnitude + if negative then Nat.pow 2 (f.width - 1) else 0)

/-- The integer nearest to `num / den`; a tie goes to the even one. -/
def divEven (num den : Nat) : Nat :=
  let q := num / den
  let r := num % den
  if 2 * r > den ∨ (2 * r = den ∧ q % 2 = 1) then q + 1 else q

/-- Bits of the magnitude nearest to `num / den`. -/
def roundMagnitude (f : FloatFormat) (num den : Nat) : Nat :=
  let scaled (e : Int) : Nat × Nat := (num * Nat.pow 2 (-e).toNat, den * Nat.pow 2 e.toNat)
  let estimate : Int := Nat.log2 num - Nat.log2 den - f.fractionBits
  let (n, d) := scaled estimate
  let exact := if n / d < Nat.pow 2 f.fractionBits then estimate - 1 else estimate
  let e := if exact < f.minExponent then f.minExponent else exact
  let (n, d) := scaled e
  let bits := (e - f.minExponent).toNat * Nat.pow 2 f.fractionBits + divEven n d
  Nat.min bits (f.specialExponent * Nat.pow 2 f.fractionBits)

/-- The representable number nearest to `num / den`. -/
def ofQuotient (f : FloatFormat) (negative : Bool) (num den : Nat) : Binary f :=
  if num = 0 then signed f negative 0 else signed f negative (roundMagnitude f num den)

def ofInt (f : FloatFormat) (n : Int) : Binary f := ofQuotient f (n < 0) n.natAbs 1

/-- Numerator and denominator of a finite magnitude. -/
def ratio (x : Binary f) : Nat × Nat :=
  (x.significand * Nat.pow 2 x.exponent.toNat, Nat.pow 2 (-x.exponent).toNat)

/-- The product of two finite numbers. -/
def mul (x y : Binary f) : Binary f :=
  ofQuotient f (x.negative != y.negative) (x.ratio.1 * y.ratio.1) (x.ratio.2 * y.ratio.2)

/-- `product * square ^ n` by squaring, where each product is rounded. -/
def mulPower (product square : Binary f) (n : Nat) : Binary f :=
  let product := if n % 2 = 1 then product.mul square else product
  if n / 2 = 0 then product else mulPower product (square.mul square) (n / 2)
termination_by n

/-- The quotient of two finite numbers, the second one not zero. -/
def div (x y : Binary f) : Binary f :=
  ofQuotient f (x.negative != y.negative) (x.ratio.1 * y.ratio.2) (x.ratio.2 * y.ratio.1)

/-- The same number in the wider format; a NaN keeps its sign and payload and becomes quiet. -/
def widen (x : Binary .single) : Binary .double :=
  if x.exponentField = FloatFormat.specialExponent .single then
    let quiet := if x.fraction = 0 then 0 else 0x8000000000000
    signed .double x.negative (0x7FF0000000000000 + ((x.fraction * 0x20000000) ||| quiet))
  else
    ofQuotient .double x.negative x.ratio.1 x.ratio.2

end Binary
end TypedColumns
