import TypedColumns.Proofs.DecimalColumns

/-!
Unscaled numbers in DECIMAL columns. A number with no more digits than the column has is stored
exactly, and read as a decimal of the host as far as that has the places and the bits.
-/
namespace TypedColumns

/-- Decimals of the host have at most 28 places and 96 bits. -/
theorem Decimal.ofScaled_iff {m : ℤ} {scale : ℕ} :
    (∃ x, Decimal.ofScaled m scale = .ok x) ↔ scale ≤ 28 ∧ |m| < 2 ^ 96 := by
  have bits : m.natAbs < mantissaLimit ↔ |m| < 2 ^ 96 := by
    rw [Int.abs_eq_natAbs, mantissaLimit]
    omega
  unfold ofScaled
  split_ifs <;> simp_all

/-- What is read of a row that holds the number `d`: exactly this number, and a decimal of the host
where there is one. Boxed it is that decimal, or else still the number. -/
structure NativeVector.ReadsNumber (n : NativeVector) (row : ℕ) (d : ScaledInt) : Prop where
  scaled : n.RowReads row .scaledInt (.ok d)
  inside : d.scale ≤ 28 ∧ |d.value.val| < 2 ^ 96 → ∃ x : Decimal,
    x.mantissa = d.value.val ∧ x.scale = d.scale ∧
      n.RowReads row .decimal (.ok x) ∧ n.RowReads row .value (.ok (.decimal x))
  outside : ¬(d.scale ≤ 28 ∧ |d.value.val| < 2 ^ 96) → ∃ fault,
    n.RowReads row .decimal (.error (.domain (.decimal d fault))) ∧
      n.RowReads row .value (.ok (.scaledInt d))

namespace NativeVector

open LogicalType

variable {width scale : ℕ} {rows : List Value} {n : NativeVector} {row : ℕ}

/-- The word of a DECIMAL slot is read as the number that it is, at the scale of the column. -/
theorem HasWord.readsNumber {w : Word (decimalStorage width)}
    (h : n.HasWord (.decimal width scale) row w) :
    n.ReadsNumber row ⟨w.widen .i128, scale⟩ := by
  have boxed := h.reads_boxed rfl (decimal_wordSlots h.valid)
  have scaled (view : ColumnView) (hc : view.column.type = .decimal width scale)
      (word : view.intAt (decimalStorage width) row = .ok w) :
      Reader.scaled (decimalStorage width) view row = .ok ⟨w.widen .i128, scale⟩ := by
    rw [Reader.scaled, word, Column.scale, hc]
    rfl
  have decimal : n.RowReads row .decimal
      ((ScaledInt.toDecimal ⟨w.widen .i128, scale⟩).mapError fun fault =>
        .domain (.decimal ⟨w.widen .i128, scale⟩ fault)) := by
    refine h.reads_typed rfl rfl rfl fun view hc word => ?_
    rw [Reader.decimal, scaled view hc word, Result.ok_bind]
  refine ⟨h.reads_typed rfl rfl rfl scaled, fun inside => ?_, fun outside => ?_⟩
  · obtain ⟨x, hx⟩ := Decimal.ofScaled_iff.mpr inside
    obtain ⟨mantissa, places⟩ := Decimal.ofScaled_ok hx
    simp only [numberOf, Reader.orRaw, ScaledInt.toDecimal, hx] at boxed decimal
    exact ⟨x, mantissa, places, decimal, boxed⟩
  · cases hx : Decimal.ofScaled (w.widen .i128).val scale with
    | ok x => exact absurd (Decimal.ofScaled_iff.mp ⟨x, hx⟩) outside
    | error fault =>
      simp only [numberOf, Reader.orRaw, ScaledInt.toDecimal, hx] at boxed decimal
      exact ⟨fault, decimal, boxed⟩

/-- A number with as many digits as the column has is its own slot. -/
theorem slotOf_digits (scale : ℕ) (small : width ≤ 38) {m : ℤ} (digits : |m| < 10 ^ width) :
    ∃ w : Word (decimalStorage width), w.val = m ∧
      (decimal width scale).slotOf (.scaledInt ⟨.wrap .i128 m, scale⟩) = .ok w.toBytes := by
  have holds : (decimalStorage width).Holds m := by
    apply decimalStorage_holds small
    zify
    exact digits
  let w : Word (decimalStorage width) := ⟨m, holds⟩
  have number : (Word.wrap .i128 m).val = w.val := widen_decimal w
  refine ⟨w, rfl, ?_⟩
  show (do (decimal width scale).intSlot _ (← (decimal width scale).mantissaOf scale _) _) = _
  simp only [mantissaOf, if_true, Result.ok_bind, number, intSlot_val]

/-- Numbers with no more digits than the column has are taken, each is in its row, and it is read
exactly: as a decimal of the host if that has the places and the bits, and boxed in any case. A
number of another scale is never taken, and reported where it is the first one. -/
theorem digits_kept (valid : (LogicalType.decimal width scale).check = .ok ())
    (room : rows.length * (decimalStorage width).bytes < sizeModulus)
    (digits : ∀ v ∈ rows, v = .null ∨
      ∃ m : ℤ, |m| < 10 ^ width ∧ v = .scaledInt ⟨.wrap .i128 m, scale⟩) :
    (∃ n, ofValues (.decimal width scale) rows = .ok n ∧ n.rows = rows.length ∧
      ∀ (row : ℕ) (hrow : row < rows.length) (m : ℤ), |m| < 10 ^ width →
        rows[row] = .scaledInt ⟨.wrap .i128 m, scale⟩ →
          (Word.wrap .i128 m).val = m ∧ n.ReadsNumber row ⟨.wrap .i128 m, scale⟩) ∧
    (∀ (d : ScaledInt) (after : List Value), d.scale ≠ scale →
      ofValues (.decimal width scale) (rows ++ .scaledInt d :: after) =
        .error (.argument (.unexpectedValue "RawDecimal" .decimal))) ∧
    ∀ (others : List Value) (d : ScaledInt), .scaledInt d ∈ others → d.scale ≠ scale →
      ∃ e, ofValues (.decimal width scale) others = .error e := by
  have small : width ≤ 38 := by
    by_contra large
    simp [check, decimalAllowed, large] at valid
  have refused {d : ScaledInt} (other : d.scale ≠ scale) :
      (decimal width scale).slotOf (.scaledInt d) =
        .error (.argument (.unexpectedValue "RawDecimal" .decimal)) := by
    show (do (decimal width scale).intSlot _ (← (decimal width scale).mantissaOf scale _) _) = _
    simp only [mantissaOf, if_neg other]
    rfl
  have slots : ∀ v ∈ rows, v.isNull = false → ∃ w : Word (decimalStorage width),
      (decimal width scale).slotOf v = .ok w.toBytes := by
    intro v hv there
    rcases digits v hv with rfl | ⟨m, fits, rfl⟩
    · contradiction
    · obtain ⟨w, -, hs⟩ := slotOf_digits scale small fits
      exact ⟨w, hs⟩
  refine ⟨?_, fun d after other => ?_, fun others d there other => ?_⟩
  · obtain ⟨n, hn, count, words⟩ := ofValues_words valid rfl rfl room slots
    refine ⟨n, hn, count, fun row hrow m fits hm => ?_⟩
    obtain ⟨w, rfl, hs⟩ := slotOf_digits scale small fits
    have stored := words row hrow w (by rw [hm]; rfl) (by rw [hm]; exact hs)
    exact ⟨widen_decimal w, stored.readsNumber⟩
  · have written : ∀ v ∈ rows, v.isNull = false →
        ∃ slot, (decimal width scale).slotOf v = .ok slot := by
      intro v hv present
      obtain ⟨w, hs⟩ := slots v hv present
      exact ⟨_, hs⟩
    exact ofValues_first_error valid rfl written rfl (refused other)
  · cases h : ofValues (.decimal width scale) others with
    | error e => exact ⟨e, rfl⟩
    | ok n =>
      obtain ⟨slot, hs⟩ := (slotOf_of_ofValues rfl h).2 _ there rfl
      rw [refused other] at hs
      contradiction

/-- The largest mantissa of a host decimal and the next one, in a column of 38 digits. -/
theorem digits_kept_at_the_limit :
    let last : ScaledInt := ⟨.wrap .i128 (2 ^ 96 - 1), 10⟩
    let next : ScaledInt := ⟨.wrap .i128 (2 ^ 96), 10⟩
    ∃ n, ofValues (.decimal 38 10) [.null, .scaledInt last, .scaledInt next] = .ok n ∧
      (∃ x : Decimal, x.mantissa = 2 ^ 96 - 1 ∧ x.scale = 10 ∧
        n.RowReads 1 .decimal (.ok x) ∧ n.RowReads 1 .value (.ok (.decimal x))) ∧
      (∃ fault, n.RowReads 2 .decimal (.error (.domain (.decimal next fault)))) ∧
      n.RowReads 2 .value (.ok (.scaledInt next)) := by
  intro last next
  have digits : ∀ v ∈ [Value.null, .scaledInt last, .scaledInt next], v = .null ∨
      ∃ m : ℤ, |m| < 10 ^ 38 ∧ v = .scaledInt ⟨.wrap .i128 m, 10⟩ := by
    intro v hv
    simp only [List.mem_cons, List.not_mem_nil, or_false] at hv
    rcases hv with rfl | rfl | rfl
    · exact .inl rfl
    · exact .inr ⟨2 ^ 96 - 1, by norm_num, rfl⟩
    · exact .inr ⟨2 ^ 96, by norm_num, rfl⟩
  have valid : (LogicalType.decimal 38 10).check = .ok () := rfl
  obtain ⟨⟨n, hn, -, reads⟩, -⟩ := digits_kept valid (by decide) digits
  obtain ⟨value, first⟩ := reads 1 (by decide) (2 ^ 96 - 1) (by norm_num) rfl
  obtain ⟨value', second⟩ := reads 2 (by decide) (2 ^ 96) (by norm_num) rfl
  obtain ⟨x, mantissa, places, typed, boxed⟩ := first.inside (by simp only [value]; norm_num)
  obtain ⟨fault, typed', boxed'⟩ := second.outside (by simp only [value']; norm_num)
  exact ⟨n, hn, ⟨x, mantissa.trans value, places, typed, boxed⟩, ⟨fault, typed'⟩, boxed'⟩

end NativeVector
end TypedColumns
