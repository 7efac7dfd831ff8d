import TypedColumns.Number.Word
import TypedColumns.Text.Numeral

/-!
Integers of any length as sign and magnitude, and their blobs: a header of three bytes, whose top
bit is set for numbers from zero up and whose other bits count the bytes that follow, then the
magnitude, most significant byte first. The blob of a negative number has every bit inverted, so
that blobs sort as numbers do.
-/
namespace TypedColumns

/-- The magnitude has its most significant byte first and no zero byte in front. Zero has no bytes
and no sign, so that every integer has one form. -/
structure VarInt where
  ofParts ::
  negative : Bool
  magnitude : List UInt8
  no_leading_zero : magnitude.head? ≠ some 0
  zero_unsigned : magnitude = [] → negative = false
deriving DecidableEq

namespace VarInt

inductive Fault where
  | tooShort (bytes : Nat)
  | length (declared following : Nat)
deriving DecidableEq

def Fault.message : Fault → String
  | tooShort n => s!"VARINT blob of {n} bytes is too short"
  | length declared n => s!"VARINT header declares {declared} bytes but {n} follow"

def appendByte (n : Nat) (b : UInt8) : Nat := n * 256 + b.toNat

/-- The natural number of big-endian bytes. -/
def natOfBytes (bytes : List UInt8) : Nat := bytes.foldl appendByte 0

/-- Big-endian bytes without a leading zero. -/
def bytesOfNat (n : Nat) : List UInt8 :=
  if n = 0 then [] else bytesOfNat (n / 256) ++ [UInt8.ofNat n]
termination_by n

theorem head?_dropZeros (bytes : List UInt8) : (bytes.dropWhile (· == 0)).head? ≠ some 0 := by
  intro zero
  have first := List.head?_dropWhile_not (· == 0) bytes
  rw [zero] at first
  contradiction

/-- Zero bytes in front are dropped, and so is the sign of zero. -/
def ofBytes (negative : Bool) (bytes : List UInt8) : VarInt :=
  let magnitude := bytes.dropWhile (· == 0)
  .ofParts (negative && !magnitude.isEmpty) magnitude (head?_dropZeros bytes) (by
    intro empty
    rw [empty]
    exact Bool.and_false negative)

def zero : VarInt := .ofBytes false []

def mk (n : Int) : VarInt := .ofBytes (n < 0) (bytesOfNat n.natAbs)

/-- The integer of a sign and big-endian bytes. -/
def signed (negative : Bool) (bytes : List UInt8) : Int :=
  if negative then -natOfBytes bytes else natOfBytes bytes

def toInt (v : VarInt) : Int := signed v.negative v.magnitude

/-- The integer, if 128 bits hold it. The least of them has no counterpart above zero. -/
def toWord? (v : VarInt) : Option (Word .i128) :=
  let magnitude : Int := natOfBytes v.magnitude
  if 16 < v.magnitude.length then none
  else if v.negative = false then Word.ofInt? .i128 magnitude
  else if magnitude = -IntKind.i128.min then some ⟨IntKind.i128.min, by decide⟩
  else (Word.ofInt? .i128 magnitude).map fun n => .wrap .i128 (-n.val)

def invert (negative : Bool) (bytes : List UInt8) : List UInt8 :=
  if negative then bytes.map (255 - ·) else bytes

def lengthMask : Nat := 0x7FFFFF

/-- Leading zero bytes are accepted, and so is a zero with a minus sign. -/
def ofBlob : List UInt8 → Except Fault VarInt
  | a :: b :: c :: payload =>
    if payload = [] then .error (.tooShort 3)
    else
      let negative := a.toNat < 0x80
      let header := natOfBytes (invert negative [a, b, c])
      let declared := header % (lengthMask + 1)
      if declared = payload.length then .ok (.ofBytes negative (invert negative payload))
      else .error (.length declared payload.length)
  | short => .error (.tooShort short.length)

def toBlob (v : VarInt) : List UInt8 :=
  let payload := if v.magnitude = [] then [0] else v.magnitude
  let header := 0x800000 + payload.length
  let headerBytes := [UInt8.ofNat (header / 65536), UInt8.ofNat (header / 256), UInt8.ofNat header]
  invert v.negative (headerBytes ++ payload)

/-- Long division by ten from the most significant byte down, after `remainder`. -/
def divideByTen : (remainder : Nat) → List UInt8 → List UInt8 × Nat
  | remainder, [] => ([], remainder)
  | remainder, b :: rest =>
    let current := remainder * 256 + b.toNat
    let (quotient, last) := divideByTen (current % 10) rest
    (UInt8.ofNat (current / 10) :: quotient, last)

/-- The quotient and the remainder stand for the dividend, whatever quotient `n` came before. -/
theorem divideByTen_spec (bytes : List UInt8) (n remainder : Nat) (h : remainder < 10) :
    bytes.foldl appendByte (n * 10 + remainder) =
        (divideByTen remainder bytes).1.foldl appendByte n * 10 + (divideByTen remainder bytes).2 ∧
      (divideByTen remainder bytes).2 < 10 := by
  induction bytes generalizing n remainder with
  | nil => exact ⟨rfl, h⟩
  | cons b rest ih =>
    have byte := b.toNat_lt
    have quotient : (UInt8.ofNat ((remainder * 256 + b.toNat) / 10)).toNat =
        (remainder * 256 + b.toNat) / 10 := by
      rw [UInt8.toNat_ofNat']
      omega
    have next := ih (n * 256 + (remainder * 256 + b.toNat) / 10)
      ((remainder * 256 + b.toNat) % 10) (Nat.mod_lt _ (by decide))
    simp only [divideByTen, List.foldl_cons, appendByte, quotient]
    refine ⟨Eq.trans (congrArg (rest.foldl _) ?_) next.1, next.2⟩
    omega

theorem natOfBytes_divideByTen (bytes : List UInt8) :
    natOfBytes bytes = natOfBytes (divideByTen 0 bytes).1 * 10 + (divideByTen 0 bytes).2 ∧
      (divideByTen 0 bytes).2 < 10 :=
  divideByTen_spec bytes 0 0 (by decide)

theorem zeros_of_foldl_eq_zero {bytes : List UInt8} {n : Nat}
    (h : bytes.foldl appendByte n = 0) : n = 0 ∧ bytes.all (· == 0) = true := by
  induction bytes generalizing n with
  | nil => exact ⟨h, rfl⟩
  | cons b rest ih =>
    obtain ⟨front, others⟩ := ih h
    obtain ⟨first, last⟩ : n * 256 = 0 ∧ b.toNat = 0 := Nat.add_eq_zero_iff.mp front
    obtain rfl : b = 0 := UInt8.toNat_inj.mp last
    refine ⟨by omega, ?_⟩
    rw [List.all_cons, others]
    rfl

/-- Decimal digits, least significant first; none are left of zero bytes. -/
def digits (remaining : List UInt8) : List Char :=
  if remaining.all (· == 0) then []
  else
    let division := divideByTen 0 remaining
    Nat.digitChar division.2 :: digits division.1
termination_by natOfBytes remaining
decreasing_by
  rename_i some
  have nonzero : natOfBytes remaining ≠ 0 := fun zero => some (zeros_of_foldl_eq_zero zero).2
  have split := (natOfBytes_divideByTen remaining).1
  omega

def text (v : VarInt) : String :=
  if v.magnitude = [] then "0"
  else Numeral.signed v.negative (String.ofList (digits v.magnitude).reverse)

end VarInt
end TypedColumns
