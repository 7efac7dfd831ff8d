import Mathlib.Algebra.Order.Field.Rat
import Mathlib.Tactic.FieldSimp
import Mathlib.Tactic.Linarith
import Mathlib.Tactic.Positivity
import Mathlib.Tactic.Ring
import TypedColumns.Proofs.RowReads

/-!
Decimals in DECIMAL columns. A decimal is stored at the scale of its column: places that the column
lacks are rounded off, and places that it has more are filled up as far as 96 bits go. Beyond that
another number is stored.
-/
namespace TypedColumns

namespace Decimal

/-- The number that the decimal stands for. -/
def toRat (d : Decimal) : ℚ := d.mantissa / 10 ^ d.scale

/-- 96 bits hold the mantissa at `scale`, as they always do where it has no more places. -/
def FitsAt (d : Decimal) (scale : Nat) : Prop :=
  d.mantissa.natAbs * 10 ^ (scale - d.scale) < mantissaLimit

instance (d : Decimal) (scale : Nat) : Decidable (d.FitsAt scale) :=
  inferInstanceAs (Decidable (_ < _))

theorem raise_of_lt {places m : Nat} (h : m * 10 ^ places < mantissaLimit) :
    raise places m = m * 10 ^ places := by
  induction places generalizing m with
  | zero => simp [raise]
  | succ places ih =>
    have whole : m * 10 ^ (places + 1) = m * 10 * 10 ^ places := by ring
    have step : m * 10 < mantissaLimit := by
      calc m * 10 ≤ m * 10 * 10 ^ places := Nat.le_mul_of_pos_right _ (by positivity)
        _ < mantissaLimit := whole ▸ h
    rw [raise, if_pos step, ih (whole ▸ h), whole]

/-- A mantissa that is not raised all the way is at most a tenth of what was asked for. -/
theorem raise_of_le {places m : Nat} (small : m < mantissaLimit)
    (h : mantissaLimit ≤ m * 10 ^ places) :
    0 < raise places m ∧ raise places m * 10 ≤ m * 10 ^ places := by
  induction places generalizing m with
  | zero => omega
  | succ places ih =>
    have whole : m * 10 ^ (places + 1) = m * 10 * 10 ^ places := by ring
    rw [whole] at h ⊢
    by_cases step : m * 10 < mantissaLimit
    · rw [raise, if_pos step]
      exact ih step h
    · rw [raise, if_neg step]
      refine ⟨?_, Nat.le_mul_of_pos_right _ (by positivity)⟩
      by_contra zero
      simp [Nat.eq_zero_of_not_pos zero, mantissaLimit] at h

/-- Dropping places rounds to a nearest number. -/
theorem lower_near (places m : Nat) :
    2 * m ≤ 2 * (lower places m * 10 ^ places) + 10 ^ places ∧
      2 * (lower places m * 10 ^ places) ≤ 2 * m + 10 ^ places := by
  cases places with
  | zero => simp [lower]
  | succ places =>
    have unit : 0 < 10 ^ places := by positivity
    have split := Nat.div_add_mod m (10 ^ places)
    have rest := Nat.mod_lt m unit
    have digits := Nat.div_add_mod (m / 10 ^ places) 10
    have digit := Nat.mod_lt (m / 10 ^ places) (show 0 < 10 by decide)
    have kept : m / 10 ^ (places + 1) = m / 10 ^ places / 10 := by
      rw [pow_succ, Nat.div_div_eq_div_mul]
    simp only [lower, Nat.pow_eq, kept]
    rw [pow_succ]
    generalize 10 ^ places = p at *
    generalize m / p = a at *
    generalize m % p = r at *
    generalize a / 10 = b at *
    generalize a % 10 = c at *
    subst split digits
    split
    · next up =>
      have low := Nat.mul_le_mul_left p up
      have high := Nat.mul_le_mul_left p (Nat.le_of_lt_succ digit)
      constructor <;> linarith
    · next down =>
      have low := Nat.zero_le (p * c)
      have high := Nat.mul_le_mul_left p (Nat.le_of_lt_succ (Nat.lt_of_not_le down))
      constructor <;> linarith

/-- The mantissa at `scale`, without its sign. -/
def magnitudeAt (d : Decimal) (scale : Nat) : Nat :=
  if d.scale ≤ scale then raise (scale - d.scale) d.mantissa.natAbs
  else lower (d.scale - scale) d.mantissa.natAbs

theorem rescaled_eq (d : Decimal) (scale : Nat) : d.rescaled scale =
    if d.mantissa < 0 then -(d.magnitudeAt scale : ℤ) else (d.magnitudeAt scale : ℤ) := rfl

/-- The sign has no part in the error of a mantissa. -/
theorem rescaled_error (d : Decimal) (scale : Nat) :
    |(d.rescaled scale : ℚ) - d.toRat * 10 ^ scale| =
      |(d.magnitudeAt scale : ℚ) - d.mantissa.natAbs / 10 ^ d.scale * 10 ^ scale| := by
  rw [rescaled_eq, toRat]
  by_cases negative : d.mantissa < 0
  · have sign : (d.mantissa : ℚ) = -(d.mantissa.natAbs : ℚ) := by
      rw [Nat.cast_natAbs, abs_of_neg negative]
      push_cast
      ring
    rw [if_pos negative, sign, ← abs_neg]
    push_cast
    congr 1
    ring
  · have sign : (d.mantissa : ℚ) = (d.mantissa.natAbs : ℚ) := by
      rw [Nat.cast_natAbs, abs_of_nonneg (not_lt.mp negative)]
    rw [if_neg negative, sign, Int.cast_natCast]

theorem scaled_up (m : ℚ) {places scale : Nat} (h : places ≤ scale) :
    m / 10 ^ places * 10 ^ scale = m * 10 ^ (scale - places) := by
  rw [← Nat.sub_add_cancel h, pow_add, Nat.add_sub_cancel]
  field_simp

theorem scaled_down (m : ℚ) {places scale : Nat} (h : scale ≤ places) :
    m / 10 ^ places * 10 ^ scale = m / 10 ^ (places - scale) := by
  rw [← Nat.sub_add_cancel h, pow_add, Nat.add_sub_cancel]
  field_simp

/-- A mantissa that 96 bits hold is off by at most half a unit of the last place. -/
theorem rescaled_near {d : Decimal} {scale : Nat} (fits : d.FitsAt scale) :
    |(d.rescaled scale : ℚ) - d.toRat * 10 ^ scale| ≤ 1 / 2 := by
  rw [rescaled_error, magnitudeAt]
  split
  · next up =>
    rw [raise_of_lt fits, scaled_up _ up]
    push_cast
    rw [sub_self, abs_zero]
    norm_num
  · next down =>
    rw [scaled_down _ (Nat.le_of_not_le down)]
    obtain ⟨above, below⟩ := lower_near (d.scale - scale) d.mantissa.natAbs
    generalize d.scale - scale = places at *
    generalize lower places d.mantissa.natAbs = kept at *
    have unit : (0 : ℚ) < 10 ^ places := by positivity
    have above' : 2 * (d.mantissa.natAbs : ℚ) ≤ 2 * (kept * 10 ^ places) + 10 ^ places := by
      exact_mod_cast above
    have below' : 2 * (kept * 10 ^ places : ℚ) ≤ 2 * d.mantissa.natAbs + 10 ^ places := by
      exact_mod_cast below
    have least : (kept : ℚ) - 1 / 2 ≤ d.mantissa.natAbs / 10 ^ places := by
      rw [le_div_iff₀ unit]
      linarith
    have most : (d.mantissa.natAbs : ℚ) / 10 ^ places ≤ kept + 1 / 2 := by
      rw [div_le_iff₀ unit]
      linarith
    rw [abs_le]
    constructor <;> linarith

/-- A mantissa that 96 bits do not hold is another number. -/
theorem rescaled_far {d : Decimal} {scale : Nat} (far : ¬ d.FitsAt scale) :
    1 / 2 < |(d.rescaled scale : ℚ) - d.toRat * 10 ^ scale| := by
  have limit : mantissaLimit ≤ d.mantissa.natAbs * 10 ^ (scale - d.scale) := Nat.not_lt.mp far
  have up : d.scale ≤ scale := by
    by_contra down
    rw [Nat.sub_eq_zero_of_le (Nat.le_of_not_le down)] at limit
    have := d.mantissa_lt
    omega
  obtain ⟨positive, tenth⟩ := raise_of_le d.mantissa_lt limit
  rw [rescaled_error, magnitudeAt, if_pos up, scaled_up _ up, abs_sub_comm]
  generalize raise (scale - d.scale) d.mantissa.natAbs = raised at *
  have one : (1 : ℚ) ≤ raised := by exact_mod_cast positive
  have less : (raised : ℚ) * 10 ≤ d.mantissa.natAbs * 10 ^ (scale - d.scale) := by
    exact_mod_cast tenth
  refine lt_of_lt_of_le ?_ (le_abs_self _)
  linarith

end Decimal

namespace NativeVector

open LogicalType

variable {width scale : Nat} {rows : List Value} {n : NativeVector} {row : Nat} {d : Decimal}

/-- A decimal that is taken is in the slot of its row, at the scale of the column. -/
theorem hasWord_of_decimal (h : ofValues (.decimal width scale) rows = .ok n)
    (hrow : row < rows.length) (hd : rows[row] = .decimal d) :
    ∃ w : Word (decimalStorage width), w.val = d.rescaled scale ∧
      n.HasWord (.decimal width scale) row w := by
  have there : rows[row].isNull = false := by rw [hd]; rfl
  obtain ⟨-, written⟩ := slotOf_of_ofValues rfl h
  obtain ⟨slot, hs⟩ := written _ (List.getElem_mem hrow) there
  have stored := hs
  rw [hd] at stored
  obtain ⟨w, hw, rfl⟩ := intSlot_eq_ok stored
  exact ⟨w, hw, hasWord_of_ofValues rfl h hrow there hs⟩

/-- The word is read back as it is. -/
theorem HasWord.reads_scaled {w : Word (decimalStorage width)}
    (h : n.HasWord (.decimal width scale) row w) :
    ∃ view plan, ColumnView.ofNative n n.rows = .ok view ∧
      view.column.resolve .scaledInt = .ok plan ∧ plan.prepare view = .ok plan ∧
      ∀ require, plan.convert view row require = .ok ⟨w.widen .i128, scale⟩ := by
  let column : Column := ⟨.decimal width scale, h.valid⟩
  let view : ColumnView := ⟨column, n.rows, n, []⟩
  let read : Reader ScaledInt := Reader.scaled (decimalStorage width)
  let plan : Converter Target.scaledInt := .ofReading column.type (.closed read) false
  refine ⟨view, plan, ?_, rfl, rfl, fun require => ?_⟩
  · rw [ColumnView.ofNative, h.typed, Column.ofType_of_check h.valid]
    exact ColumnView.firstRows_of_le (Nat.le_refl _) _ _
  · have source : plan.checkSource view = .ok () := Converter.checkSource_of_eq rfl rfl rfl
    have valid : view.isValid row = .ok true := ColumnView.isValid_of_bit h.inside h.there
    have word : view.intAt (decimalStorage width) row = .ok w := wordAt_of_slot h.slot
    calc plan.convert view row require = read view row :=
          Converter.convert_valid source read valid require
      _ = .ok ⟨w.widen .i128, scale⟩ := by
        simp only [read, Reader.scaled, word]
        rfl

/-- Decimals that a column takes are kept. What is read back from the row of a decimal is a number
at the scale of the column, off by at most half a unit of its last place exactly if 96 bits hold the
mantissa at that scale; then it is the same number where the column has all its places. A decimal
that 96 bits hold at that scale and no slot holds, however rounded, is refused. -/
theorem decimals_kept (hrow : row < rows.length) (hd : rows[row] = .decimal d) :
    (∀ n, ofValues (.decimal width scale) rows = .ok n →
      ∃ view plan, ∃ w : Word .i128, ColumnView.ofNative n rows.length = .ok view ∧
        view.column.resolve .scaledInt = .ok plan ∧ plan.prepare view = .ok plan ∧
        (∀ require, plan.convert view row require = .ok ⟨w, scale⟩) ∧
        (|(w.val : ℚ) - d.toRat * 10 ^ scale| ≤ 1 / 2 ↔ d.FitsAt scale) ∧
        (d.FitsAt scale → ∀ m : ℤ, (m : ℚ) = d.toRat * 10 ^ scale → w.val = m)) ∧
    (d.FitsAt scale →
      (∀ m : ℤ, |(m : ℚ) - d.toRat * 10 ^ scale| ≤ 1 / 2 → ¬ (decimalStorage width).Holds m) →
      ∃ e, ofValues (.decimal width scale) rows = .error e) := by
  constructor
  · intro n h
    obtain ⟨w, hw, slot⟩ := hasWord_of_decimal h hrow hd
    obtain ⟨view, plan, opened, resolved, prepared, reads⟩ := slot.reads_scaled
    rw [(slotOf_of_ofValues rfl h).1] at opened
    have stored : (w.widen .i128).val = d.rescaled scale := by rw [widen_decimal, hw]
    refine ⟨view, plan, w.widen .i128, opened, resolved, prepared, reads, ?_, ?_⟩
    · rw [stored]
      refine ⟨fun near => ?_, Decimal.rescaled_near⟩
      by_contra far
      exact absurd near (not_le.mpr (Decimal.rescaled_far far))
    · intro fits m exact
      have near := Decimal.rescaled_near fits
      rw [← exact, ← stored, ← Int.cast_sub, ← Int.cast_abs] at near
      have small : |(w.widen .i128).val - m| < 1 := by
        exact_mod_cast lt_of_le_of_lt near (by norm_num : (1 / 2 : ℚ) < 1)
      exact sub_eq_zero.mp (Int.abs_lt_one_iff.mp small)
  · intro fits outside
    cases h : ofValues (.decimal width scale) rows with
    | error e => exact ⟨e, rfl⟩
    | ok n =>
      obtain ⟨w, hw, -⟩ := hasWord_of_decimal h hrow hd
      exact absurd w.holds (hw ▸ outside _ (Decimal.rescaled_near fits))

/-- 12.345 in a column of two places, after a missing row. -/
theorem decimals_kept_rounded :
    let d : Decimal := ⟨12345, 3, by decide, by decide⟩
    let rows : List Value := [.null, .decimal d]
    rows[1] = .decimal d ∧ ∃ n view plan, ∃ w : Word .i128,
      ofValues (.decimal 9 2) rows = .ok n ∧ ColumnView.ofNative n 2 = .ok view ∧
      view.column.resolve .scaledInt = .ok plan ∧ plan.prepare view = .ok plan ∧
      plan.convert view 1 true = .ok ⟨w, 2⟩ ∧ |(w.val : ℚ) - d.toRat * 10 ^ 2| ≤ 1 / 2 := by
  intro d rows
  have taken : (ofValues (.decimal 9 2) rows).isOk := by
    subst rows d
    rfl
  obtain ⟨n, hn⟩ := Result.isOk_iff.mp taken
  have second : rows[1] = .decimal d := rfl
  obtain ⟨view, plan, w, opened, resolved, prepared, reads, near, -⟩ :=
    (decimals_kept (by decide) second).1 n hn
  exact ⟨rfl, n, view, plan, w, hn, opened, resolved, prepared, reads true, near.mpr (by decide)⟩

/-- Ten places take 10^19 out of 96 bits. What is stored instead reads as 10^18. -/
theorem decimals_not_kept :
    let d : Decimal := ⟨10 ^ 19, 0, by decide, by decide⟩
    let readBack : Result ScaledInt := do
      let n ← ofValues (.decimal 38 10) [.decimal d]
      let view ← ColumnView.ofNative n 1
      let plan ← view.column.resolve .scaledInt
      let conv ← plan.prepare view
      conv.convert view 0 true
    readBack = .ok ⟨.wrap .i128 (10 ^ 28), 10⟩ ∧
      ¬ |((10 ^ 28 : ℤ) : ℚ) - d.toRat * 10 ^ 10| ≤ 1 / 2 := by
  intro d readBack
  constructor
  · have taken : (ofValues (.decimal 38 10) [.decimal d]).isOk := by
      subst readBack d
      rfl
    obtain ⟨n, hn⟩ := Result.isOk_iff.mp taken
    have rows : n.rows = 1 := (slotOf_of_ofValues rfl hn).1
    obtain ⟨w, hw, slot⟩ := hasWord_of_decimal hn Nat.one_pos rfl
    obtain ⟨view, plan, opened, resolved, prepared, reads⟩ := slot.reads_scaled
    have stored : d.rescaled 10 = (Word.wrap .i128 (10 ^ 28)).val := by
      subst readBack d
      decide
    have word : w.widen .i128 = .wrap .i128 (10 ^ 28) := by
      apply Word.ext
      rw [widen_decimal, hw, stored]
    rw [rows] at opened
    simp only [readBack, hn, opened, resolved, prepared, reads, word, Result.ok_bind]
  · have number : d.toRat = 10 ^ 19 := by norm_num [Decimal.toRat, d]
    rw [number]
    norm_num

end NativeVector
end TypedColumns
