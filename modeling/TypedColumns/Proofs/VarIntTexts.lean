import TypedColumns.Proofs.Numerals
import TypedColumns.Proofs.RowReads
import TypedColumns.Proofs.VarIntBlobs
import Mathlib.Data.List.TakeWhile

/-!
Texts of integers of any length. Each division by ten gives the last digit that is left, so what is
written is the numeral of the integer, and a row is read as the numeral of what its blob spells.
-/
namespace TypedColumns.VarInt

open Numeral

theorem natOfBytes_eq_zero_iff {bytes : List UInt8} :
    natOfBytes bytes = 0 ↔ bytes.all (· == 0) = true := by
  refine ⟨fun zero => (zeros_of_foldl_eq_zero zero).2, fun zeros => ?_⟩
  rw [← natOfBytes_dropZeros, List.dropWhile_eq_nil_iff.mpr (List.all_eq_true.mp zeros)]
  rfl

theorem digits_of_zero {bytes : List UInt8} (h : natOfBytes bytes = 0) : digits bytes = [] := by
  rw [digits, if_pos (natOfBytes_eq_zero_iff.mp h)]

/-- One pass gives the last digit; the digits in front of it are those of the quotient. -/
theorem digits_of_ne_zero {bytes : List UInt8} (h : natOfBytes bytes ≠ 0) : digits bytes =
    Nat.digitChar (natOfBytes bytes % 10) :: digits (divideByTen 0 bytes).1 := by
  obtain ⟨split, small⟩ := natOfBytes_divideByTen bytes
  rw [digits, if_neg (mt natOfBytes_eq_zero_iff.mpr h),
    show natOfBytes bytes % 10 = (divideByTen 0 bytes).2 by omega]

theorem natOfBytes_quotient (bytes : List UInt8) :
    natOfBytes (divideByTen 0 bytes).1 = natOfBytes bytes / 10 := by
  obtain ⟨split, small⟩ := natOfBytes_divideByTen bytes
  omega

/-- The passes end with the first digit, and what they give is the numeral of the bytes. -/
theorem reverse_digits {bytes : List UInt8} (h : natOfBytes bytes ≠ 0) :
    (digits bytes).reverse = Nat.toDigits 10 (natOfBytes bytes) := by
  induction n : natOfBytes bytes using Nat.strongRecOn generalizing bytes with
  | _ n ih =>
    subst n
    have quotient := natOfBytes_quotient bytes
    rw [digits_of_ne_zero h, List.reverse_cons, Nat.toDigits_eq_if (by decide)]
    by_cases last : natOfBytes bytes < 10
    · rw [digits_of_zero (by omega), if_pos last, Nat.mod_eq_of_lt last]
      rfl
    · rw [if_neg last, ih _ (by omega) (by omega) quotient]

theorem text_eq (v : VarInt) : v.text = toString v.toInt := by
  unfold text
  by_cases zero : v.magnitude = []
  · have value : v.toInt = 0 := by
      rw [← Int.natAbs_eq_zero, natAbs_toInt]
      exact natOfBytes_magnitude_eq_zero.mpr zero
    rw [if_pos zero, value]
    rfl
  · have positive : natOfBytes v.magnitude ≠ 0 := mt natOfBytes_magnitude_eq_zero.mp zero
    have sign : v.negative = decide (v.toInt < 0) := by
      rw [Bool.eq_iff_iff, negative_iff, decide_eq_true_iff]
    rw [if_neg zero, toString_eq, sign, natAbs_toInt, reverse_digits positive,
      Nat.toString_eq_ofList_toDigits]

theorem length_toBlob_lt {v : VarInt} (few : v.magnitude.length ≤ lengthMask) :
    v.toBlob.length < 0x100000000 := by
  have short := length_payload_le (by decide) few
  rw [toBlob_eq, length_blobOf]
  unfold lengthMask at short
  omega

/-- A row is read as the text of the integer in its blob. -/
theorem rowReads_text {n : NativeVector} {row : Nat} {blob : List UInt8} {v : VarInt}
    (holds : n.HoldsPayload (.scalar .varInt) row blob) (h : ofBlob blob = .ok v) :
    n.RowReads row .string (.ok v.text) := by
  refine holds.reads_typed rfl rfl rfl fun view stored => ?_
  show (Reader.varInt view row >>= fun v => .ok v.text) = _
  rw [Reader.varInt, stored, Result.ok_bind, h]
  rfl

/-- The text of every integer is its numeral: `0`, or digits without a zero in front, after a minus
sign below zero. So are the texts of the integers that blobs spell, also where these are read from
rows, and of 128-bit integers. -/
theorem texts_are_numerals :
    (∀ v : VarInt, IsInteger v.text v.toInt ∧ v.text = toString v.toInt) ∧
    (∀ blob v, ofBlob blob = .ok v → IsInteger v.text (spelled blob)) ∧
    (∀ n : Word .i128, IsInteger (mk n.val).text n.val) ∧ zero.text = "0" ∧
    ∀ (n : NativeVector) (row : Nat) (blob : List UInt8) (v : VarInt),
      n.HoldsPayload (.scalar .varInt) row blob → ofBlob blob = .ok v →
        n.RowReads row .string (.ok v.text) := by
  have numeral (v : VarInt) : IsInteger v.text v.toInt := isInteger_iff.mpr v.text_eq
  refine ⟨fun v => ⟨numeral v, v.text_eq⟩, fun blob v h => ?_, fun n => ?_, rfl,
    fun n row blob v holds h => rowReads_text holds h⟩
  · obtain ⟨negative, payload, -, few, rfl, rfl⟩ := ofBlob_eq_ok h
    rw [spelled_blobOf few, ← toInt_ofBytes]
    exact numeral _
  · have value := numeral (mk n.val)
    rwa [toInt_mk] at value

/-- A number of 17 bytes below zero, behind a missing row. -/
theorem texts_are_numerals_beyond_words :
    ∃ n v, ofBlob (blobOf true (1 :: List.replicate 16 0)) = .ok v ∧ IsInteger v.text (-2 ^ 128) ∧
      NativeVector.ofValues (.scalar .varInt) [.null, .varInt v] = .ok n ∧
        n.RowReads 1 .string (.ok "-340282366920938463463374607431768211456") := by
  obtain ⟨-, spells, -, -, rows⟩ := texts_are_numerals
  obtain ⟨v, read⟩ : ∃ v, ofBlob (blobOf true (1 :: List.replicate 16 0)) = .ok v :=
    ⟨_, ofBlob_blobOf (List.cons_ne_nil _ _) (by decide)⟩
  have numeral : IsInteger v.text (-2 ^ 128) := by
    have value : spelled (blobOf true (1 :: List.replicate 16 0)) = -2 ^ 128 := by decide
    have found := spells _ v read
    rwa [value] at found
  have text : v.text = "-340282366920938463463374607431768211456" :=
    (isInteger_iff.mp numeral).trans (by decide)
  have few := length_of_ofBlob read
  have written : ∀ x ∈ [Value.null, .varInt v], x.isNull = false → ∃ payload,
      (LogicalType.scalar .varInt).payloadOf x = .ok payload ∧ payload.length < 0x100000000 := by
    intro x hx there
    obtain rfl | rfl := List.mem_pair.mp hx
    · contradiction
    · exact ⟨v.toBlob, rfl, length_toBlob_lt few⟩
  obtain ⟨n, taken, holds⟩ :=
    NativeVector.ofValues_payloads rfl written (show 2 < sizeModulus by decide)
  refine ⟨n, v, read, numeral, taken, ?_⟩
  rw [← text]
  exact rows n 1 v.toBlob v (holds 1 Nat.one_lt_two _ rfl rfl) (ofBlob_toBlob few)

end TypedColumns.VarInt
