/-!
Byte strings as UTF-8 text. A refused byte string is described by the first place where no
character can be completed.
-/
namespace TypedColumns.Utf8

/-- The character starting at `index` is broken after `length` bytes, or cut off by the end of the
byte string when there is no length. -/
structure Fault where
  index : Nat
  length : Option Nat
deriving DecidableEq

def Fault.message (fault : Fault) : String :=
  match fault.length with
  | some n => s!"invalid utf-8 sequence of {n} bytes from index {fault.index}"
  | none => s!"incomplete utf-8 byte sequence from index {fault.index}"

/-- Bytes of a character still to come: how many, and the least and greatest next one. -/
structure Owed where
  count : Nat
  low : Nat
  high : Nat

/-- What a first byte announces; `none` when no character starts with it. -/
def announced? (b : Nat) : Option Owed :=
  if b ≤ 0x7F then some ⟨0, 0, 0⟩
  else if b < 0xC2 then none
  else if b ≤ 0xDF then some ⟨1, 0x80, 0xBF⟩
  else if b = 0xE0 then some ⟨2, 0xA0, 0xBF⟩
  else if b = 0xED then some ⟨2, 0x80, 0x9F⟩
  else if b ≤ 0xEF then some ⟨2, 0x80, 0xBF⟩
  else if b = 0xF0 then some ⟨3, 0x90, 0xBF⟩
  else if b ≤ 0xF3 then some ⟨3, 0x80, 0xBF⟩
  else if b = 0xF4 then some ⟨3, 0x80, 0x8F⟩
  else none

/-- The first fault of `bytes`, read on after `seen` bytes of the character that starts at
`start`. -/
def faultFrom : (start seen : Nat) → Owed → List UInt8 → Fault
  | start, _, _, [] => ⟨start, none⟩
  | start, seen, owed, b :: rest =>
    if owed.count = 0 then
      match announced? b.toNat with
      | none => ⟨start + seen, some 1⟩
      | some next => faultFrom (start + seen) 1 next rest
    else if owed.low ≤ b.toNat ∧ b.toNat ≤ owed.high then
      faultFrom start (seen + 1) ⟨owed.count - 1, 0x80, 0xBF⟩ rest
    else ⟨start, some seen⟩

def decode (bytes : List UInt8) : Except Fault String :=
  match String.fromUTF8? ⟨bytes.toArray⟩ with
  | some text => .ok text
  | none => .error (faultFrom 0 0 ⟨0, 0, 0⟩ bytes)

def encode (text : String) : List UInt8 := text.toUTF8.data.toList

theorem decode_encode (text : String) : decode (encode text) = .ok text := by
  have h : String.fromUTF8? ⟨(encode text).toArray⟩ = some text := by
    simp [encode, String.fromUTF8?, text.isValidUTF8]
    rfl
  simp [decode, h]

end TypedColumns.Utf8
