import TypedColumns.Native.Slot
import Mathlib.Algebra.Order.Ring.Int
import Mathlib.Tactic.Linarith

/-!
What is written as bytes is read back from them: words, floating-point numbers, entries and the
slots of strings. What is packed side by side compares by its first part, then by its second.
-/
namespace TypedColumns

/-- Two pairs of numbers compare alike if they are in the same order. -/
theorem compare_congr {a b c d : Int} (less : a < b ↔ c < d) (greater : b < a ↔ d < c) :
    compare a b = compare c d := by
  rcases lt_trichotomy a b with lt | rfl | gt
  · rw [Std.compare_eq_lt.mpr lt, Std.compare_eq_lt.mpr (less.mp lt)]
  · obtain rfl : c = d := by omega
    rw [Std.compare_self, Std.compare_self]
  · rw [Std.compare_eq_gt.mpr gt, Std.compare_eq_gt.mpr (greater.mp gt)]

/-- Numbers of two digits compare by the first digit, then by the second. -/
theorem compare_digits {base a b c d : Int} (hb : 0 ≤ b ∧ b < base) (hd : 0 ≤ d ∧ d < base) :
    compare (a * base + b) (c * base + d) = (compare a c).then (compare b d) := by
  rcases lt_trichotomy a c with lt | rfl | gt
  · have first : a * base + b < c * base + d := by nlinarith
    rw [Std.compare_eq_lt.mpr lt, Std.compare_eq_lt.mpr first]
    rfl
  · rw [Std.compare_self, Ordering.then]
    exact compare_congr (by omega) (by omega)
  · have first : c * base + d < a * base + b := by nlinarith
    rw [Std.compare_eq_gt.mpr gt, Std.compare_eq_gt.mpr first]
    rfl

namespace IntKind

/-- A kind has as many integers as its bytes have states. -/
theorem modulus_eq (k : IntKind) : k.modulus = (Nat.pow 256 k.bytes : Nat) := by
  cases k <;> decide

theorem modulus_pos (k : IntKind) : 0 < k.modulus := by
  cases k <;> decide

end IntKind

namespace Word

variable {k : IntKind}

/-- Words are told apart by their remainders. -/
theorem wrap_emod (n : Word k) : wrap k (n.val % k.modulus) = n := by
  apply Word.ext
  obtain ⟨n, lower, upper⟩ := n
  have hm := k.modulus_pos
  have shift : (n % k.modulus - k.min) % k.modulus = n - k.min := by
    rw [Int.sub_emod, Int.emod_emod_of_dvd n (dvd_refl k.modulus), ← Int.sub_emod]
    apply Int.emod_eq_of_lt
    · omega
    · simp only [IntKind.modulus]
      omega
  simp only [wrap, shift]
  omega

theorem natOfBytes_toBytes (n : Word k) : (natOfBytes n.toBytes : Int) = n.val % k.modulus := by
  have hm := k.modulus_pos
  have lower := Int.emod_nonneg n.val hm.ne'
  have upper := Int.emod_lt_of_pos n.val hm
  unfold toBytes
  rw [natOfBytes_bytesOfNat]
  · exact Int.toNat_of_nonneg lower
  · have size := k.modulus_eq
    omega

@[simp] theorem ofBytes_toBytes (n : Word k) : ofBytes k n.toBytes = n := by
  unfold ofBytes
  rw [natOfBytes_toBytes, wrap_emod]

theorem ofInt?_val (n : Word k) : ofInt? k n.val = some n := dif_pos n.holds

end Word

namespace Binary

variable {f : FloatFormat}

@[simp] theorem toBytes_length (x : Binary f) : x.toBytes.length = f.bytes := bytesOfNat_length _ _

@[simp] theorem ofBytes_toBytes (x : Binary f) : ofBytes f x.toBytes = x := by
  have size : Nat.pow 2 f.width = Nat.pow 256 f.bytes := by cases f <;> decide
  have read : natOfBytes x.toBytes = x.bits :=
    natOfBytes_bytesOfNat f.bytes x.bits (size ▸ x.bits_lt)
  unfold ofBytes
  rw [read]
  obtain ⟨bits, hb⟩ := x
  simp only [ofBits, Nat.mod_eq_of_lt hb]

end Binary

namespace ListEntry

@[simp] theorem toBytes_length (e : ListEntry) : e.toBytes.length = 16 := by
  simp [toBytes, IntKind.bytes]

@[simp] theorem ofBytes_toBytes (e : ListEntry) : ofBytes e.toBytes = e := by
  have first : e.toBytes.take 8 = e.offset.toBytes :=
    List.take_left' (Word.toBytes_length e.offset)
  have second : e.toBytes.drop 8 = e.length.toBytes :=
    List.drop_left' (Word.toBytes_length e.offset)
  unfold ofBytes
  rw [first, second, Word.ofBytes_toBytes, Word.ofBytes_toBytes]

end ListEntry

namespace StringSlot

/-- A long payload has to be found where its slot says. -/
def Finds (heap : Array (List UInt8)) (payload : List UInt8) (reference : Nat) : Prop :=
  inlineLength < payload.length → reference < sizeModulus ∧ heap[reference]? = some payload

/-- Every payload shorter than 4 GiB has a slot, and the payload is read back from it. -/
theorem encode_decode? {payload : List UInt8} (h : payload.length < 0x100000000) (reference : Nat) :
    ∃ slot, encode payload reference = .ok slot ∧ slot.length = 16 ∧
      ∀ heap, Finds heap payload reference → decode? heap slot = some payload := by
  have size : natOfBytes (bytesOfNat 4 payload.length) = payload.length :=
    natOfBytes_bytesOfNat 4 _ h
  have four : (bytesOfNat 4 payload.length).length = 4 := bytesOfNat_length _ _
  unfold encode
  by_cases short : payload.length ≤ inlineLength
  · refine ⟨_, by simp only [Nat.not_le.mpr h, if_false, short, if_true]; rfl, ?_, ?_⟩
    · simp only [List.length_append, four, List.length_replicate]
      unfold inlineLength at short ⊢
      omega
    · intro heap _
      unfold decode?
      simp only [List.append_assoc, List.take_left' four, List.drop_left' four, size, short, if_true]
      rw [List.take_left]
  · have long : inlineLength < payload.length := Nat.lt_of_not_le short
    have prefixLength : (bytesOfNat 4 payload.length ++ payload.take 4).length = 8 := by
      simp only [List.length_append, four, List.length_take]
      unfold inlineLength at long
      omega
    refine ⟨_, by simp only [Nat.not_le.mpr h, if_false, short]; rfl, ?_, ?_⟩
    · rw [List.length_append, prefixLength, bytesOfNat_length]
    · intro heap found
      obtain ⟨hr, hp⟩ := found long
      have reread : natOfBytes (bytesOfNat 8 reference) = reference :=
        natOfBytes_bytesOfNat 8 _ hr
      have first : ((bytesOfNat 4 payload.length ++ payload.take 4) ++ bytesOfNat 8 reference).take 4
          = bytesOfNat 4 payload.length := by
        rw [List.append_assoc, List.take_left' four]
      unfold decode?
      rw [first, List.drop_left' prefixLength]
      simp only [size, short, if_false, reread, hp, Nat.le_refl, if_true, List.take_length]

end StringSlot
end TypedColumns
