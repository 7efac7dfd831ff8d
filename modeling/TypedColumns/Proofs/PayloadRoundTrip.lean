import TypedColumns.Native.Encode
import TypedColumns.Proofs.BitStrings
import TypedColumns.Proofs.DirectReading
import TypedColumns.Proofs.VarIntBlobs

/-!
Leaf values and their payloads: texts, blobs, bit strings and integers of any length are read again
from the bytes that they are written as.
-/
namespace TypedColumns

open NativeVector

/-- The value has a payload, and is what is read where a vector has that payload. -/
def LogicalType.HasPayload (type : LogicalType) (x : Value) : Prop :=
  ∃ payload, type.payloadOf x = .ok payload ∧
    ∀ (v : NativeVector) (row : Nat), v.payload? row = some payload → v.leafAt type row = .ok x

/-- A reader that decodes the payload of a row. -/
theorem LogicalType.hasPayload_of_decode {type : LogicalType} (decode : List UInt8 → Result Value)
    (reads : ∀ (v : NativeVector) row,
      v.leafAt type row = ColumnView.loaded (v.payload? row) >>= decode)
    (writes : ∀ payload x, decode payload = .ok x →
      ∃ payload', type.payloadOf x = .ok payload' ∧ decode payload' = .ok x)
    {v : NativeVector} {row : Nat} {x : Value} (hx : v.leafAt type row = .ok x) :
    type.HasPayload x := by
  rw [reads] at hx
  cases hp : v.payload? row with
  | none =>
    rw [hp] at hx
    contradiction
  | some payload =>
    rw [hp] at hx
    obtain ⟨payload', hw, hd⟩ := writes payload x hx
    refine ⟨payload', hw, ?_⟩
    intro v' row' hp'
    rw [reads, hp']
    exact hd

/-- A reader that decodes the payload and boxes what it finds, when that is written as a payload of
the same meaning. -/
theorem LogicalType.hasPayload_of_codec {type : LogicalType} {α ε : Type}
    (decode : List UInt8 → Except ε α) (fault : ε → Error) (box : α → Value)
    (reads : ∀ (v : NativeVector) row, v.leafAt type row = ColumnView.loaded (v.payload? row) >>=
      fun payload => (decode payload).mapError fault >>= fun a => .ok (box a))
    (writes : ∀ payload a, decode payload = .ok a →
      ∃ payload', type.payloadOf (box a) = .ok payload' ∧ decode payload' = .ok a)
    {v : NativeVector} {row : Nat} {x : Value} (hx : v.leafAt type row = .ok x) :
    type.HasPayload x := by
  refine hasPayload_of_decode _ reads ?_ hx
  intro payload x hd
  cases found : decode payload with
  | error e =>
    rw [found] at hd
    contradiction
  | ok a =>
    rw [found] at hd
    cases hd
    obtain ⟨payload', hw, hd⟩ := writes payload a found
    refine ⟨payload', hw, ?_⟩
    rw [hd]
    rfl

namespace LogicalType

theorem leaf_of_stringLike {kind : Kind} (h : kind.isStringLike) :
    (scalar kind).kind.isNested = false := by
  cases kind <;> first | rfl | simp [Kind.isStringLike] at h

theorem check_of_stringLike {kind : Kind} (h : kind.isStringLike) : (scalar kind).check = .ok () := by
  cases kind <;> first | rfl | simp [Kind.isStringLike] at h

theorem slotWidth_of_stringLike {kind : Kind} (h : kind.isStringLike) :
    (scalar kind).storage.slotWidth? = some 16 := by
  cases kind <;> first | rfl | simp [Kind.isStringLike] at h

theorem text_hasPayload (s : String) : (scalar .varchar).HasPayload (.text s) := by
  refine ⟨Utf8.encode s, rfl, ?_⟩
  intro v row hp
  show (ColumnView.loaded (v.payload? row) >>= _) >>= _ = _
  rw [hp]
  show Except.mapError _ (Utf8.decode (Utf8.encode s)) >>= _ = _
  rw [Utf8.decode_encode]
  rfl

theorem blob_hasPayload (bytes : List UInt8) : (scalar .blob).HasPayload (.blob bytes) := by
  refine ⟨bytes, rfl, ?_⟩
  intro v row hp
  show Except.map _ (ColumnView.loaded (v.payload? row)) = _
  rw [hp]
  rfl

theorem leafAt_varchar (v : NativeVector) (row : Nat) : v.leafAt (scalar .varchar) row =
    ColumnView.loaded (v.payload? row) >>= fun payload =>
      (Utf8.decode payload).mapError (fun e => .domain (.utf8 e)) >>= fun s => .ok (.text s) := by
  show (ColumnView.loaded (v.payload? row) >>= _) >>= _ = _
  cases v.payload? row <;> rfl

theorem leafAt_blob (v : NativeVector) (row : Nat) : v.leafAt (scalar .blob) row =
    ColumnView.loaded (v.payload? row) >>= fun payload => .ok (.blob payload) := by
  show Except.map _ (ColumnView.loaded (v.payload? row)) = _
  cases v.payload? row <;> rfl

theorem leafAt_bit (v : NativeVector) (row : Nat) : v.leafAt (scalar .bit) row =
    ColumnView.loaded (v.payload? row) >>= fun payload =>
      (BitString.ofBlob payload).mapError (fun e => .domain (.bit e)) >>= fun b => .ok (.bit b) := by
  show (ColumnView.loaded (v.payload? row) >>= _) >>= _ = _
  cases v.payload? row <;> rfl

theorem leafAt_varInt (v : NativeVector) (row : Nat) : v.leafAt (scalar .varInt) row =
    ColumnView.loaded (v.payload? row) >>= fun payload =>
      (VarInt.ofBlob payload).mapError (fun e => .domain (.varInt e)) >>= fun n =>
        .ok (.varInt n) := by
  show (ColumnView.loaded (v.payload? row) >>= _) >>= _ = _
  cases v.payload? row <;> rfl

/-- Every value that is read from a payload has a payload. -/
theorem hasPayload_of_leafAt {kind : Kind} (h : kind.isStringLike) {v : NativeVector} {row : Nat}
    {x : Value} (hx : v.leafAt (scalar kind) row = .ok x) : (scalar kind).HasPayload x := by
  cases kind with
  | varchar =>
    refine hasPayload_of_codec Utf8.decode (fun e => .domain (.utf8 e)) .text leafAt_varchar ?_ hx
    intro _ text _
    exact ⟨Utf8.encode text, rfl, Utf8.decode_encode text⟩
  | blob =>
    refine hasPayload_of_decode _ leafAt_blob ?_ hx
    intro payload x hd
    cases hd
    exact ⟨payload, rfl, rfl⟩
  | bit =>
    refine hasPayload_of_codec BitString.ofBlob (fun e => .domain (.bit e)) .bit leafAt_bit ?_ hx
    intro payload b hb
    refine ⟨b.toBlob, rfl, ?_⟩
    rw [BitString.toBlob_of_ofBlob hb, hb]
  | varInt =>
    refine hasPayload_of_codec VarInt.ofBlob (fun e => .domain (.varInt e)) .varInt leafAt_varInt ?_
      hx
    intro payload n hn
    exact ⟨n.toBlob, rfl, VarInt.ofBlob_toBlob (VarInt.length_of_ofBlob hn)⟩
  | _ => simp [Kind.isStringLike] at h

end LogicalType
end TypedColumns
