import TypedColumns.Decimal
import TypedColumns.Proofs.Numerals
import Mathlib.Algebra.Order.Field.Rat
import Mathlib.Tactic.FieldSimp
import Mathlib.Tactic.Positivity
import Mathlib.Tactic.Ring

/-!
Texts of fixed-point decimals. The digits of the scaled integer are split before the last `scale` of
them, behind zeros where there are too few. Read as a decimal number, the text is the integer
divided by a power of ten, and its places tell which one, so decimals have different texts.
-/
namespace TypedColumns

namespace Numeral

/-- As many decimal digits as there are places, and `n` is their number. -/
structure IsFraction (digits : List Char) (places n : Nat) : Prop where
  digit : ∀ c ∈ digits, c.isDigit
  length : digits.length = places
  value : Nat.ofDigitChars 10 digits 0 = n

/-- Digits of the whole part, then a point and those of the places if there are any. -/
def IsFixed (text : List Char) (n places : Nat) : Prop :=
  ∃ whole fraction, text = whole ++ (if places = 0 then [] else '.' :: fraction) ∧
    IsWhole whole (n / 10 ^ places) ∧ IsFraction fraction places (n % 10 ^ places)

theorem toList_padded (width n : Nat) : (padded width n).toList =
    List.replicate (width - (Nat.toDigits 10 n).length) '0' ++ Nat.toDigits 10 n := by
  have count : (toString n).length = (Nat.toDigits 10 n).length := by
    rw [Nat.toString_eq_repr, ← String.length_toList, Nat.toList_repr]
  rw [padded, String.toList_append, zeros, String.toList_ofList, count, Nat.toString_eq_repr,
    Nat.toList_repr]

theorem length_padded (width n : Nat) :
    (padded width n).toList.length = max width (Nat.toDigits 10 n).length := by
  rw [toList_padded, List.length_append, List.length_replicate]
  omega

theorem isDigit_of_mem_padded {width n : Nat} {c : Char} (h : c ∈ (padded width n).toList) :
    c.isDigit := by
  rw [toList_padded, List.mem_append] at h
  rcases h with zero | digit
  · rw [List.eq_of_mem_replicate zero]
    rfl
  · exact (isWhole_toDigits n).digit c digit

theorem value_padded (width n : Nat) :
    Nat.ofDigitChars 10 (padded width n).toList 0 = n := by
  rw [toList_padded, Nat.ofDigitChars_append, Nat.ofDigitChars_replicate_zero, Nat.mul_zero,
    Nat.ofDigitChars_ten_toDigits]

/-- Cut before the last digits, a numeral is divided by a power of ten. -/
theorem value_cut {digits : List Char} (h : ∀ c ∈ digits, c.isDigit) {places : Nat}
    (few : places ≤ digits.length) :
    let cut := digits.length - places
    Nat.ofDigitChars 10 (digits.take cut) 0 = Nat.ofDigitChars 10 digits 0 / 10 ^ places ∧
      IsFraction (digits.drop cut) places (Nat.ofDigitChars 10 digits 0 % 10 ^ places) := by
  intro cut
  have digit (c : Char) (hc : c ∈ digits.drop cut) : c.isDigit := h c (List.mem_of_mem_drop hc)
  have length : (digits.drop cut).length = places := by
    rw [List.length_drop]
    omega
  have small := ofDigitChars_lt digit
  have split : Nat.ofDigitChars 10 digits 0 =
      10 ^ places * Nat.ofDigitChars 10 (digits.take cut) 0 +
        Nat.ofDigitChars 10 (digits.drop cut) 0 := by
    conv_lhs => rw [← List.take_append_drop cut digits]
    rw [Nat.ofDigitChars_append, Nat.ofDigitChars_eq_ofDigitChars_zero, length]
  rw [length] at small
  obtain ⟨quotient, remainder⟩ := (Nat.div_mod_unique (Nat.pow_pos (by decide))).mpr
    ⟨(Nat.add_comm _ _).trans split.symm, small⟩
  exact ⟨quotient.symm, digit, length, remainder.symm⟩

/-- Zeros are put in front only where they make up the one digit before the point. -/
theorem no_leading_zero_padded {places n : Nat} (there : places ≠ 0)
    (h : ((padded (places + 1) n).toList.take
      ((padded (places + 1) n).toList.length - places)).head? = some '0') :
    (padded (places + 1) n).toList.take ((padded (places + 1) n).toList.length - places) =
      ['0'] := by
  rw [length_padded] at h ⊢
  by_cases long : places + 1 < (Nat.toDigits 10 n).length
  · have positive := Nat.pos_of_ne_zero there
    have plain : (padded (places + 1) n).toList = Nat.toDigits 10 n := by
      rw [toList_padded, Nat.sub_eq_zero_of_le long.le]
      rfl
    rw [plain, List.head?_take, if_neg (by omega)] at h
    rw [head?_toDigits h, Nat.toDigits_zero, List.length_singleton] at long
    omega
  · rw [show max (places + 1) (Nat.toDigits 10 n).length - places = 1 by omega] at h ⊢
    rw [List.head?_take, if_neg Nat.one_ne_zero] at h
    rw [List.take_one, h]
    rfl

theorem fixed_isFixed (n places : Nat) : IsFixed (fixed n places).toList n places := by
  unfold fixed
  by_cases none : places = 0
  · subst none
    refine ⟨Nat.toDigits 10 n, [], by simp, ?_, by simp, rfl, ?_⟩
    · rw [pow_zero, Nat.div_one]
      exact isWhole_toDigits n
    · rw [pow_zero, Nat.mod_one, Nat.ofDigitChars_nil]
  · have digit : ∀ c ∈ (padded (places + 1) n).toList, c.isDigit := fun _ => isDigit_of_mem_padded
    have few : places < (padded (places + 1) n).toList.length := by
      rw [length_padded]
      omega
    obtain ⟨value, fraction⟩ := value_cut digit few.le
    rw [value_padded] at value fraction
    refine ⟨_, _, by simp [none], ⟨fun c hc => digit c (List.mem_of_mem_take hc), ?_,
      no_leading_zero_padded none, value⟩, fraction⟩
    apply List.ne_nil_of_length_pos
    rw [List.length_take]
    omega

/-! ## Reading a text -/

/-- The number of decimal digits, of which there has to be one. -/
def number? (digits : List Char) : Option Nat :=
  if !digits.isEmpty && digits.all Char.isDigit then some (Nat.ofDigitChars 10 digits 0) else none

/-- A whole number, or a whole part and a fraction on the two sides of a point. -/
def magnitude? (text : List Char) : Option ℚ :=
  match text.dropWhile (· ≠ '.') with
  | [] => do return (← number? text : ℚ)
  | _ :: fraction => do
    let whole ← number? (text.takeWhile (· ≠ '.'))
    let part ← number? fraction
    return whole + part / 10 ^ fraction.length

/-- The number that a decimal text denotes. -/
def read? (text : String) : Option ℚ :=
  if text.toList.head? = some '-' then (magnitude? text.toList.tail).map fun x => -x
  else magnitude? text.toList

/-- How many characters follow the first point. -/
def placesOf (text : List Char) : Nat := (text.dropWhile (· ≠ '.')).tail.length

theorem number?_of_isDigit {digits : List Char} (nonempty : digits ≠ [])
    (h : ∀ c ∈ digits, c.isDigit) : number? digits = some (Nat.ofDigitChars 10 digits 0) := by
  rw [number?, List.all_eq_true.mpr h, List.isEmpty_eq_false_iff.mpr nonempty]
  rfl

theorem ne_point_of_isDigit {c : Char} (h : c.isDigit) : decide (c ≠ '.') = true := by
  rw [decide_eq_true_iff]
  rintro rfl
  contradiction

theorem cast_div_add_mod (n places : Nat) : ((n / 10 ^ places : Nat) : ℚ) +
    (n % 10 ^ places : Nat) / 10 ^ places = n / 10 ^ places := by
  have split : (n : ℚ) = 10 ^ places * (n / 10 ^ places : Nat) + (n % 10 ^ places : Nat) := by
    exact_mod_cast (Nat.div_add_mod n (10 ^ places)).symm
  rw [split]
  field_simp

theorem IsFixed.magnitude? {text : List Char} {n places : Nat} (h : IsFixed text n places) :
    magnitude? text = some ((n : ℚ) / 10 ^ places) := by
  obtain ⟨whole, fraction, rfl, head, tail⟩ := h
  have pass (c : Char) (hc : c ∈ whole) := ne_point_of_isDigit (head.digit c hc)
  have read := number?_of_isDigit head.nonempty head.digit
  rw [head.value] at read
  unfold Numeral.magnitude?
  rw [List.dropWhile_append_of_pos pass, List.takeWhile_append_of_pos pass]
  by_cases none : places = 0
  · subst none
    rw [if_pos rfl, List.append_nil, read]
    simp
  · have nonempty : fraction ≠ [] := by
      apply List.ne_nil_of_length_pos
      rw [tail.length]
      exact Nat.pos_of_ne_zero none
    have read' := number?_of_isDigit nonempty tail.digit
    rw [tail.value] at read'
    rw [if_neg none, List.dropWhile_cons_of_neg (by simp), List.takeWhile_cons_of_neg (by simp),
      List.append_nil, read]
    show (do return ((n / 10 ^ places : Nat) : ℚ) + (← number? fraction) / 10 ^ fraction.length) = _
    rw [read', tail.length]
    exact congrArg some (cast_div_add_mod n places)

theorem IsFixed.placesOf {text : List Char} {n places : Nat} (h : IsFixed text n places) :
    placesOf text = places := by
  obtain ⟨whole, fraction, rfl, head, tail⟩ := h
  rw [Numeral.placesOf, List.dropWhile_append_of_pos fun c hc => ne_point_of_isDigit (head.digit c hc)]
  by_cases none : places = 0
  · rw [if_pos none, none]
    rfl
  · rw [if_neg none, List.dropWhile_cons_of_neg (by simp)]
    exact tail.length

/-- A text without a sign begins with a digit. -/
theorem IsFixed.head?_ne {text : List Char} {n places : Nat} (h : IsFixed text n places) :
    text.head? ≠ some '-' := by
  obtain ⟨whole, fraction, rfl, head, -⟩ := h
  rw [List.head?_append_of_ne_nil _ head.nonempty]
  intro minus
  have digit := head.digit _ (List.mem_of_mem_head? minus)
  contradiction

end Numeral

namespace ScaledInt

open Numeral

/-- The number that the decimal stands for. -/
def toRat (d : ScaledInt) : ℚ := d.value.val / 10 ^ d.scale

variable (d : ScaledInt)

theorem toList_text :
    d.text.toList = signOf d.value.val ++ (fixed d.value.val.natAbs d.scale).toList :=
  toList_signed _ _

theorem read?_text : read? d.text = some d.toRat := by
  have unsigned := fixed_isFixed d.value.val.natAbs d.scale
  rw [read?, toList_text, signOf, toRat]
  by_cases below : d.value.val < 0
  · have negated : (d.value.val : ℚ) = -(d.value.val.natAbs : ℚ) := by
      rw [Nat.cast_natAbs, abs_of_neg below]
      push_cast
      ring
    rw [if_pos below, List.singleton_append, List.head?_cons, if_pos rfl, List.tail_cons,
      unsigned.magnitude?, Option.map_some, negated, neg_div]
  · have same : (d.value.val : ℚ) = (d.value.val.natAbs : ℚ) := by
      rw [Nat.cast_natAbs, abs_of_nonneg (not_lt.mp below)]
    rw [if_neg below, List.nil_append, if_neg unsigned.head?_ne, unsigned.magnitude?, same]

theorem placesOf_text : placesOf d.text.toList = d.scale := by
  have unsigned := fixed_isFixed d.value.val.natAbs d.scale
  have sign : ∀ c ∈ signOf d.value.val, decide (c ≠ '.') = true := by
    unfold signOf
    split_ifs <;> simp
  rw [← unsigned.placesOf, toList_text, placesOf, List.dropWhile_append_of_pos sign]
  rfl

/-- The text of a decimal is a minus sign below zero, a whole part without a zero in front of other
digits, and a point with as many digits as the scale says if it says any. It denotes the integer
divided by this power of ten, and no other decimal has it. -/
theorem texts_exact :
    (∀ d : ScaledInt, ∃ magnitude, d.text.toList = signOf d.value.val ++ magnitude ∧
      IsFixed magnitude d.value.val.natAbs d.scale) ∧
    (∀ d : ScaledInt, read? d.text = some ((d.value.val : ℚ) / 10 ^ d.scale)) ∧
    ∀ d e : ScaledInt, d.text = e.text ↔ d = e := by
  refine ⟨fun d => ⟨_, d.toList_text, fixed_isFixed _ _⟩, read?_text, fun d e => ⟨?_, congrArg _⟩⟩
  intro same
  have scales : d.scale = e.scale := by rw [← d.placesOf_text, same, e.placesOf_text]
  have numbers : d.toRat = e.toRat := by
    apply Option.some.inj
    rw [← d.read?_text, same, e.read?_text]
  have unit : (10 : ℚ) ^ e.scale ≠ 0 := by positivity
  have values : d.value = e.value := by
    rw [toRat, toRat, scales, div_left_inj' unit] at numbers
    exact Word.ext (by exact_mod_cast numbers)
  cases d
  cases e
  simp_all

/-- The least 128-bit integer has more digits than places, and five thousandths fewer. -/
example : (ScaledInt.mk ⟨IntKind.i128.min, by decide⟩ 38).text =
      "-1.70141183460469231731687303715884105728" ∧
    (ScaledInt.mk (.wrap .i128 (-5)) 3).text = "-0.005" := by
  decide

end ScaledInt
end TypedColumns
