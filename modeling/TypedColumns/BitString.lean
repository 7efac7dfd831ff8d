/-!
Strings of bits and their blobs: a count of filler bits, then the bits in bytes, most significant
first and after the filler.
-/
namespace TypedColumns

structure BitString where
  bytes : List UInt8
  padding : Nat
  padding_lt : padding < 8
  padding_eq : bytes = [] → padding = 0
deriving DecidableEq

namespace BitString

inductive Fault where
  | missingPadding
  | padding (padding dataBytes : Nat)
deriving DecidableEq

def Fault.message : Fault → String
  | missingPadding => "BIT value is missing its padding byte"
  | padding p n => s!"BIT value has invalid padding {p} for {n} data bytes"

def empty : BitString := ⟨[], 0, by decide, by simp⟩

def ofBlob : List UInt8 → Except Fault BitString
  | [] => .error .missingPadding
  | p :: bytes =>
    if h : p.toNat < 8 ∧ (bytes = [] → p.toNat = 0) then .ok ⟨bytes, p.toNat, h.1, h.2⟩
    else .error (.padding p.toNat bytes.length)

def toBlob (b : BitString) : List UInt8 := UInt8.ofNat b.padding :: b.bytes

def length (b : BitString) : Nat := b.bytes.length * 8 - b.padding

def isEmpty (b : BitString) : Bool := b.length == 0

/-- The byte whose only set bit is bit `i`, counted from the most significant one. -/
def mask (i : Nat) : UInt8 := 0x80 >>> UInt8.ofNat i

/-- Bit `i` of a byte, counted from the most significant one. -/
def bitOfByte (byte : UInt8) (i : Nat) : Bool := byte &&& mask i != 0

/-- The filler and a bit before the end are in the bytes together. -/
theorem position_lt (b : BitString) {i : Nat} (h : i < b.length) :
    (i + b.padding) / 8 < b.bytes.length := by
  unfold length at h
  omega

def get? (b : BitString) (i : Nat) : Option Bool :=
  if h : i < b.length then
    have inside := b.position_lt h
    some (bitOfByte b.bytes[(i + b.padding) / 8] ((i + b.padding) % 8))
  else none

def toList (b : BitString) : List Bool := (List.range b.length).filterMap b.get?

/-- Sets bit `position`, counted from the most significant one of the first byte. -/
def setBit (bytes : List UInt8) (position : Nat) : List UInt8 :=
  bytes.modify (position / 8) (· ||| mask (position % 8))

/-- Sets those bits from `position` on that are set in `bits`. -/
def write : (bytes : List UInt8) → (position : Nat) → (bits : List Bool) → List UInt8
  | bytes, _, [] => bytes
  | bytes, position, bit :: rest =>
    write (if bit then setBit bytes position else bytes) (position + 1) rest

@[simp] theorem length_write (bytes : List UInt8) (position : Nat) (bits : List Bool) :
    (write bytes position bits).length = bytes.length := by
  induction bits generalizing bytes position with
  | nil => rfl
  | cons bit rest ih =>
    rw [write, ih]
    cases bit with
    | false => rfl
    | true => exact List.length_modify _ _ _

/-- The filler bits that `ofList` writes are set. -/
def ofList (bits : List Bool) : BitString :=
  let padding := (8 - bits.length % 8) % 8
  let blank := List.replicate ((bits.length + padding) / 8) 0
  let filled := write blank 0 (List.replicate padding true)
  ⟨write filled padding bits, padding, by omega, by
    intro none
    have := congrArg List.length none
    simp only [filled, blank, length_write, List.length_replicate, List.length_nil] at this
    omega⟩

def text (b : BitString) : String :=
  String.ofList (b.toList.map fun bit => if bit then '1' else '0')

end BitString
end TypedColumns
