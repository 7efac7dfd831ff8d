import TypedColumns.Proofs.Bytes
import TypedColumns.Proofs.VarIntBlobs

/-!
Blobs of integers sort as the integers do. Headers compare first: by the sign, then by the number
of bytes, up for numbers from zero on and down below zero. Behind equal headers are as many bytes,
and these compare as their numbers do.
-/
namespace TypedColumns.VarInt

theorem compare_append {a b c d : List UInt8} (same : a.length = b.length) :
    compare (a ++ c) (b ++ d) = (compare a b).then (compare c d) := by
  induction a generalizing b with
  | nil =>
    obtain rfl : b = [] := List.length_eq_zero_iff.mp same.symm
    rfl
  | cons x a ih =>
    obtain ⟨y, b, rfl⟩ := List.exists_cons_of_length_pos (by rw [← same]; exact Nat.succ_pos _)
    have rest := ih (Nat.succ.inj same)
    simp only [List.cons_append, List.compare_cons_cons, rest, Ordering.then_assoc]

theorem compare_toNat (a b : UInt8) : compare a b = compare (a.toNat : Int) b.toNat := by
  rcases Nat.lt_trichotomy a.toNat b.toNat with lt | eq | gt
  · rw [Std.compare_eq_lt.mpr (UInt8.lt_iff_toNat_lt.mpr lt), Std.compare_eq_lt.mpr (by omega)]
  · obtain rfl := UInt8.toNat_inj.mp eq
    rw [Std.compare_self, Std.compare_self]
  · rw [Std.compare_eq_gt.mpr (UInt8.lt_iff_toNat_lt.mpr gt), Std.compare_eq_gt.mpr (by omega)]

/-- Bytes of one length compare as their numbers do. -/
theorem compare_bytes {a b : List UInt8} (same : a.length = b.length) :
    compare a b = compare (natOfBytes a : Int) (natOfBytes b) := by
  induction a using List.reverseRecOn generalizing b with
  | nil =>
    obtain rfl : b = [] := List.length_eq_zero_iff.mp same.symm
    rfl
  | append_singleton a x ih =>
    rcases List.eq_nil_or_concat b with rfl | ⟨b, y, rfl⟩
    · simp at same
    · have shorter : a.length = b.length := by simpa using same
      have hx := x.toNat_lt
      have hy := y.toNat_lt
      rw [List.concat_eq_append, compare_append shorter, ih shorter, List.compare_cons_cons,
        List.compare_nil_nil, Ordering.then_eq, compare_toNat, natOfBytes_concat, natOfBytes_concat]
      push_cast
      rw [compare_digits (by omega) (by omega)]

/-- Inverted bytes are what is missing to all bits set. -/
theorem natOfBytes_inverted (bytes : List UInt8) :
    natOfBytes (invert true bytes) + natOfBytes bytes + 1 = 256 ^ bytes.length := by
  induction bytes using List.reverseRecOn with
  | nil => rfl
  | append_singleton bytes b ih =>
    have byte := b.toNat_lt
    have last : (255 - b).toNat = 255 - b.toNat := by
      simp only [UInt8.toNat_sub, UInt8.reduceToNat]
      omega
    rw [invert_append, natOfBytes_concat, List.length_append, List.length_singleton, Nat.pow_succ,
      ← ih]
    show natOfBytes (invert true bytes ++ [255 - b]) + _ + _ = _
    rw [natOfBytes_concat, last]
    omega

section Order

variable {a b : VarInt} (ha : a.payload.length ≤ lengthMask) (hb : b.payload.length ≤ lengthMask)

/-- The number in the header, which is inverted below zero. -/
def headerNumber (v : VarInt) : Int :=
  if v.negative then 0x7FFFFF - v.payload.length else 0x800000 + v.payload.length

/-- The number in the bytes after the header, which are inverted below zero. -/
def payloadNumber (v : VarInt) : Int := natOfBytes (invert v.negative v.payload)

include ha in
theorem natOfBytes_header :
    (natOfBytes (invert a.negative (headerBytes a.payload.length)) : Int) = headerNumber a := by
  have plain := natOfBytes_headerBytes ha
  have inverted := natOfBytes_inverted (headerBytes a.payload.length)
  rw [length_headerBytes] at inverted
  unfold headerNumber
  cases a.negative with
  | false =>
    simp only [Bool.false_eq_true, if_false]
    show (natOfBytes (headerBytes a.payload.length) : Int) = _
    omega
  | true =>
    simp only [if_true]
    omega

include ha hb

theorem same_of_header (h : headerNumber a = headerNumber b) :
    a.negative = b.negative ∧ a.payload.length = b.payload.length := by
  unfold headerNumber at h
  unfold lengthMask at ha hb
  split_ifs at h with below below' below'
  · exact ⟨below.trans below'.symm, by omega⟩
  · omega
  · omega
  · exact ⟨(Bool.eq_false_of_not_eq_true below).trans (Bool.eq_false_of_not_eq_true below').symm,
      by omega⟩

/-- The header decides; behind equal headers the bytes do. -/
theorem compare_toBlob : compare a.toBlob b.toBlob =
    (compare (headerNumber a) (headerNumber b)).then
      (compare (payloadNumber a) (payloadNumber b)) := by
  have headers : (invert a.negative (headerBytes a.payload.length)).length =
      (invert b.negative (headerBytes b.payload.length)).length := by
    rw [length_invert, length_invert, length_headerBytes, length_headerBytes]
  rw [toBlob_eq, toBlob_eq, blobOf, blobOf, invert_append, invert_append, compare_append headers,
    compare_bytes headers, natOfBytes_header ha, natOfBytes_header hb]
  by_cases same : headerNumber a = headerNumber b
  · obtain ⟨-, length⟩ := same_of_header ha hb same
    rw [compare_bytes (by rw [length_invert, length_invert, length])]
    rfl
  · rcases lt_or_gt_of_ne same with lt | gt
    · rw [Std.compare_eq_lt.mpr lt]
      rfl
    · rw [Std.compare_eq_gt.mpr gt]
      rfl

end Order

/-- Of two magnitudes the one with more bytes is the larger one. -/
theorem natOfBytes_lt_of_length {a b : VarInt} (h : a.payload.length < b.payload.length) :
    natOfBytes a.payload < natOfBytes b.payload := by
  by_contra small
  have bound := natOfBytes_lt a.payload
  have fewer : b.magnitude.length ≤ a.payload.length := by
    apply length_magnitude_le
    rw [← natOfBytes_payload]
    omega
  have length := length_payload_le (List.length_pos_iff.mpr a.payload_ne_nil) fewer
  omega

theorem toInt_below {v : VarInt} (h : v.negative = true) : v.toInt = -natOfBytes v.payload := by
  rw [toInt, signed, if_pos h, natOfBytes_payload]

theorem toInt_above {v : VarInt} (h : ¬v.negative = true) : v.toInt = natOfBytes v.payload := by
  rw [toInt, signed, if_neg h, natOfBytes_payload]

/-- Numbers are in the order of their headers, where these differ. -/
theorem toInt_lt_of_header {a b : VarInt} (ha : a.payload.length ≤ lengthMask)
    (hb : b.payload.length ≤ lengthMask) (h : headerNumber a < headerNumber b) :
    a.toInt < b.toInt := by
  unfold headerNumber at h
  unfold lengthMask at ha hb
  split_ifs at h with below below' below'
  · have longer : b.payload.length < a.payload.length := by omega
    have magnitudes := natOfBytes_lt_of_length longer
    rw [toInt_below below, toInt_below below']
    omega
  · have sign := a.negative_iff.mp below
    rw [toInt_above below']
    omega
  · omega
  · have longer : a.payload.length < b.payload.length := by omega
    have magnitudes := natOfBytes_lt_of_length longer
    rw [toInt_above below, toInt_above below']
    omega

/-- Behind equal headers, numbers are in the order of their bytes. -/
theorem compare_payloadNumber {a b : VarInt} (sign : a.negative = b.negative)
    (length : a.payload.length = b.payload.length) :
    compare (payloadNumber a) (payloadNumber b) = compare a.toInt b.toInt := by
  unfold payloadNumber
  by_cases below : b.negative = true
  · have missing := natOfBytes_inverted a.payload
    have missing' := natOfBytes_inverted b.payload
    rw [length] at missing
    rw [sign, below, toInt_below (sign.trans below), toInt_below below]
    exact compare_congr (by omega) (by omega)
  · rw [toInt_above (sign ▸ below), toInt_above below, sign, Bool.eq_false_of_not_eq_true below]
    rfl

/-- Blobs compare byte for byte as their numbers do, whatever signs and lengths these have. -/
theorem blobs_sort {a b : VarInt} (ha : a.Obtained) (hb : b.Obtained) :
    compare a.toBlob b.toBlob = compare a.toInt b.toInt := by
  have few := length_payload_le (by decide) ha.length_le
  have few' := length_payload_le (by decide) hb.length_le
  rw [compare_toBlob few few']
  rcases lt_trichotomy (headerNumber a) (headerNumber b) with lt | same | gt
  · rw [Std.compare_eq_lt.mpr lt, Std.compare_eq_lt.mpr (toInt_lt_of_header few few' lt)]
    rfl
  · obtain ⟨sign, length⟩ := same_of_header few few' same
    rw [same, Std.compare_self, compare_payloadNumber sign length]
    rfl
  · rw [Std.compare_eq_gt.mpr gt, Std.compare_eq_gt.mpr (toInt_lt_of_header few' few gt)]
    rfl

/-- A number of 17 bytes below zero is in front of the least 128-bit integer. -/
theorem blobs_sort_beyond_words :
    ∃ v, ofBlob (blobOf true (1 :: List.replicate 16 0)) = .ok v ∧
      compare v.toBlob (mk IntKind.i128.min).toBlob = .lt := by
  have read : ofBlob (blobOf true (1 :: List.replicate 16 0)) =
      .ok (ofBytes true (1 :: List.replicate 16 0)) :=
    ofBlob_blobOf (List.cons_ne_nil _ _) (by decide)
  have sorted := blobs_sort (.ofBlob read) (.ofWord ⟨IntKind.i128.min, by decide⟩)
  rw [toInt_ofBytes, toInt_mk] at sorted
  exact ⟨_, read, sorted.trans (by decide)⟩

end TypedColumns.VarInt
