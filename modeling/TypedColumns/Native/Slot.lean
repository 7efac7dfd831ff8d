import TypedColumns.Error

/-!
Slots that refer to other memory. A string slot starts with its length; up to 12 bytes stand in the
slot, of longer strings only the first four and a reference to the rest of the memory. A list slot
is a span of child rows.
-/
namespace TypedColumns

def Binary.toBytes {f : FloatFormat} (x : Binary f) : List UInt8 := bytesOfNat f.bytes x.bits

def Binary.ofBytes (f : FloatFormat) (bytes : List UInt8) : Binary f :=
  Binary.ofBits f (natOfBytes bytes)

namespace StringSlot

def inlineLength : Nat := 12

/-- The slot of a payload; a long one is found at `reference`. -/
def encode (payload : List UInt8) (reference : Nat) : Result (List UInt8) :=
  let n := payload.length
  if 0x100000000 ≤ n then .error (.argument (.payloadTooLong n))
  else if n ≤ inlineLength then
    .ok (bytesOfNat 4 n ++ payload ++ List.replicate (inlineLength - n) 0)
  else .ok (bytesOfNat 4 n ++ payload.take 4 ++ bytesOfNat 8 reference)

/-- The payload of a slot among the long payloads of its vector. -/
def decode? (heap : Array (List UInt8)) (slot : List UInt8) : Option (List UInt8) :=
  let n := natOfBytes (slot.take 4)
  if n ≤ inlineLength then some ((slot.drop 4).take n)
  else match heap[natOfBytes (slot.drop 8)]? with
    | some payload => if n ≤ payload.length then some (payload.take n) else none
    | none => none

end StringSlot

/-- A row's span of child rows. -/
structure ListEntry where
  offset : Word .u64
  length : Word .u64
deriving DecidableEq

namespace ListEntry

/-- One past the last child row, unless that exceeds 64 bits. -/
def end? (e : ListEntry) : Option (Word .u64) := Word.ofInt? .u64 (e.offset.val + e.length.val)

def toBytes (e : ListEntry) : List UInt8 := e.offset.toBytes ++ e.length.toBytes

def ofBytes (bytes : List UInt8) : ListEntry :=
  ⟨.ofBytes .u64 (bytes.take 8), .ofBytes .u64 (bytes.drop 8)⟩

end ListEntry
end TypedColumns
