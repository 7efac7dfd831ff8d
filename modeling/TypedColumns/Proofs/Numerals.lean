import TypedColumns.Text.Numeral
import Mathlib.Algebra.Ring.Nat
import Mathlib.Data.List.Basic
import Mathlib.Data.List.Induction

/-!
Decimal numerals and the numbers that they denote. Digits without a zero in front of others are
those of their number, so a number has one numeral, and so has an integer with its sign.
-/
namespace TypedColumns.Numeral

/-- At least one decimal digit, no zero in front of others, and `n` is their number. -/
structure IsWhole (digits : List Char) (n : Nat) : Prop where
  digit : ∀ c ∈ digits, c.isDigit
  nonempty : digits ≠ []
  no_leading_zero : digits.head? = some '0' → digits = ['0']
  value : Nat.ofDigitChars 10 digits 0 = n

theorem toNat_of_isDigit {c : Char} (h : c.isDigit) : 48 ≤ c.toNat ∧ c.toNat ≤ 57 := by
  simpa [Char.isDigit, UInt32.le_iff_toNat_le] using h

theorem digitChar_toNat {c : Char} (h : c.isDigit) : Nat.digitChar (c.toNat - 48) = c := by
  obtain ⟨lower, upper⟩ := toNat_of_isDigit h
  apply Char.toNat_inj.mp
  rw [Nat.toNat_digitChar_of_lt_ten (by omega)]
  omega

theorem ofDigitChars_concat (digits : List Char) (c : Char) :
    Nat.ofDigitChars 10 (digits ++ [c]) 0 = 10 * Nat.ofDigitChars 10 digits 0 + (c.toNat - 48) := by
  rw [Nat.ofDigitChars_append, Nat.ofDigitChars_cons, Nat.ofDigitChars_nil]
  rfl

theorem ofDigitChars_lt {digits : List Char} (h : ∀ c ∈ digits, c.isDigit) :
    Nat.ofDigitChars 10 digits 0 < 10 ^ digits.length := by
  induction digits using List.reverseRecOn with
  | nil => exact Nat.one_pos
  | append_singleton digits c ih =>
    have front := ih fun d hd => h d (List.mem_append_left _ hd)
    obtain ⟨-, upper⟩ := toNat_of_isDigit (h c (by simp))
    rw [ofDigitChars_concat, List.length_append, List.length_singleton, Nat.pow_succ]
    omega

theorem head?_toDigits {n : Nat} (h : (Nat.toDigits 10 n).head? = some '0') : n = 0 := by
  induction n using Nat.strongRecOn with
  | _ n ih =>
    rw [Nat.toDigits_eq_if (by decide)] at h
    split at h
    · simpa using h
    · next large =>
      rw [List.head?_append_of_ne_nil _ Nat.toDigits_ne_nil] at h
      have smaller := ih (n / 10) (by omega) h
      omega

theorem isWhole_toDigits (n : Nat) : IsWhole (Nat.toDigits 10 n) n where
  digit _ hc := Nat.isDigit_of_mem_toDigits (by decide) (by decide) hc
  nonempty := Nat.toDigits_ne_nil
  no_leading_zero h := by rw [head?_toDigits h, Nat.toDigits_zero]
  value := Nat.ofDigitChars_ten_toDigits

/-- A natural number has one numeral. -/
theorem IsWhole.eq_toDigits {digits : List Char} {n : Nat} (h : IsWhole digits n) :
    digits = Nat.toDigits 10 n := by
  induction digits using List.reverseRecOn generalizing n with
  | nil => exact absurd rfl h.nonempty
  | append_singleton front c ih =>
    have last := h.digit c (by simp)
    obtain ⟨lower, upper⟩ := toNat_of_isDigit last
    have value := h.value
    rw [ofDigitChars_concat] at value
    by_cases alone : front = []
    · subst alone
      have single : n = c.toNat - 48 := by simpa using value.symm
      rw [single, Nat.toDigits_of_lt_base (by omega), digitChar_toNat last]
      rfl
    · -- The digits in front have no zero in front either, so they are not zero.
      have nonzero : front.head? ≠ some '0' := by
        intro zero
        have short := h.no_leading_zero (by rwa [List.head?_append_of_ne_nil _ alone])
        have length := congrArg List.length short
        have := List.length_pos_iff.mpr alone
        simp only [List.length_append, List.length_singleton] at length
        omega
      have front_eq := ih ⟨fun d hd => h.digit d (List.mem_append_left _ hd), alone,
        fun zero => absurd zero nonzero, rfl⟩
      have positive : 0 < Nat.ofDigitChars 10 front 0 := by
        apply Nat.pos_of_ne_zero
        intro zero
        rw [front_eq, zero] at nonzero
        exact nonzero rfl
      have step := Nat.toDigits_append_toDigits (b := 10) (by decide) positive
        (show c.toNat - 48 < 10 by omega)
      rw [← value, ← step, ← front_eq, Nat.toDigits_of_lt_base (by omega), digitChar_toNat last]

/-- A minus sign for numbers below zero. -/
def signOf (n : Int) : List Char := if n < 0 then ['-'] else []

/-- The numeral of an integer: digits, after a minus sign if it is below zero. -/
def IsInteger (text : String) (n : Int) : Prop :=
  ∃ digits, text.toList = signOf n ++ digits ∧ IsWhole digits n.natAbs

theorem toList_signed (n : Int) (digits : String) :
    (signed (decide (n < 0)) digits).toList = signOf n ++ digits.toList := by
  unfold signed signOf
  by_cases below : n < 0
  · simp [below]
  · simp [below]

theorem toString_eq (n : Int) : toString n = signed (decide (n < 0)) (toString n.natAbs) := by
  rw [Int.toString_eq_repr, Int.repr_eq_if, signed]
  by_cases below : n < 0
  · rw [if_neg (by omega), if_pos (by simpa using below), show (-n).toNat = n.natAbs by omega]
    rfl
  · rw [if_pos (by omega), if_neg (by simpa using below), show n.toNat = n.natAbs by omega]
    rfl

/-- An integer has one numeral. -/
theorem isInteger_iff {text : String} {n : Int} : IsInteger text n ↔ text = toString n := by
  have digits : (toString n).toList = signOf n ++ Nat.toDigits 10 n.natAbs := by
    rw [toString_eq, toList_signed, Nat.toString_eq_repr, Nat.toList_repr]
  constructor
  · rintro ⟨found, form, whole⟩
    apply String.toList_inj.mp
    rw [form, digits, whole.eq_toDigits]
  · rintro rfl
    exact ⟨_, digits, isWhole_toDigits _⟩

end TypedColumns.Numeral
