/-!
The ten fixed-width integer kinds and the integers each of them holds. `Word.wrap` is two's
complement reduction, and bytes are little-endian.
-/
namespace TypedColumns

inductive IntKind where
  | i8 | i16 | i32 | i64 | i128 | u8 | u16 | u32 | u64 | u128
deriving DecidableEq, Inhabited

namespace IntKind

def all : List IntKind := [i8, i16, i32, i64, i128, u8, u16, u32, u64, u128]

def signed : IntKind → Bool
  | i8 | i16 | i32 | i64 | i128 => true
  | u8 | u16 | u32 | u64 | u128 => false

/-- Width of a slot in bytes. -/
def bytes : IntKind → Nat
  | i8 | u8 => 1
  | i16 | u16 => 2
  | i32 | u32 => 4
  | i64 | u64 => 8
  | i128 | u128 => 16

def min : IntKind → Int
  | i8 => -0x80
  | i16 => -0x8000
  | i32 => -0x80000000
  | i64 => -0x8000000000000000
  | i128 => -0x80000000000000000000000000000000
  | u8 | u16 | u32 | u64 | u128 => 0

def max : IntKind → Int
  | i8 => 0x7F
  | i16 => 0x7FFF
  | i32 => 0x7FFFFFFF
  | i64 => 0x7FFFFFFFFFFFFFFF
  | i128 => 0x7FFFFFFFFFFFFFFFFFFFFFFFFFFFFFFF
  | u8 => 0xFF
  | u16 => 0xFFFF
  | u32 => 0xFFFFFFFF
  | u64 => 0xFFFFFFFFFFFFFFFF
  | u128 => 0xFFFFFFFFFFFFFFFFFFFFFFFFFFFFFFFF

def Holds (k : IntKind) (n : Int) : Prop := k.min ≤ n ∧ n ≤ k.max

instance (k : IntKind) (n : Int) : Decidable (k.Holds n) :=
  inferInstanceAs (Decidable (_ ∧ _))

/-- Every integer of `k` is an integer of `l`. -/
def widensTo (k l : IntKind) : Bool := l.min ≤ k.min && k.max ≤ l.max

def modulus (k : IntKind) : Int := k.max - k.min + 1

end IntKind

/-- An integer of kind `k`. -/
structure Word (k : IntKind) where
  val : Int
  holds : k.Holds val
deriving DecidableEq

namespace Word

variable {k : IntKind}

@[ext] theorem ext {a b : Word k} (h : a.val = b.val) : a = b := by
  cases a; cases b; simp_all

def ofInt? (k : IntKind) (n : Int) : Option (Word k) :=
  if h : k.Holds n then some ⟨n, h⟩ else none

/-- The integer of kind `k` congruent to `n`. -/
def wrap (k : IntKind) (n : Int) : Word k :=
  ⟨(n - k.min) % k.modulus + k.min, by
    have hm : 0 < k.modulus := by cases k <;> decide
    have h0 := Int.emod_nonneg (n - k.min) (Int.ne_of_gt hm)
    have h1 := Int.emod_lt_of_pos (n - k.min) hm
    simp only [IntKind.Holds, IntKind.modulus] at *
    omega⟩

theorem wrap_val_of_holds {n : Int} (h : k.Holds n) : (wrap k n).val = n := by
  have h1 : (n - k.min) % k.modulus = n - k.min :=
    Int.emod_eq_of_lt (by have := h.1; omega) (by
      have := h.2; simp only [IntKind.modulus]; omega)
  simp only [wrap, h1]; omega

instance : Inhabited (Word k) := ⟨wrap k 0⟩

instance : OfNat (Word k) 0 := ⟨⟨0, by cases k <;> decide⟩⟩

def widen (l : IntKind) (n : Word k) : Word l := wrap l n.val

end Word

/-- Sizes and products of sizes are counted modulo this number. -/
def sizeModulus : Nat := 0x10000000000000000

/-- The natural number of little-endian bytes. -/
def natOfBytes : List UInt8 → Nat
  | [] => 0
  | b :: rest => b.toNat + 256 * natOfBytes rest

/-- The low `width` bytes of `n`, least significant first. -/
def bytesOfNat : (width n : Nat) → List UInt8
  | 0, _ => []
  | width + 1, n => UInt8.ofNat n :: bytesOfNat width (n / 256)

@[simp] theorem bytesOfNat_length (width n : Nat) : (bytesOfNat width n).length = width := by
  induction width generalizing n with
  | zero => rfl
  | succ width ih => simp [bytesOfNat, ih]

theorem natOfBytes_bytesOfNat (width n : Nat) (h : n < Nat.pow 256 width) :
    natOfBytes (bytesOfNat width n) = n := by
  induction width generalizing n with
  | zero => simp at h; simp [bytesOfNat, natOfBytes, h]
  | succ width ih =>
    have hd : n / 256 < Nat.pow 256 width :=
      Nat.div_lt_of_lt_mul (Nat.mul_comm (Nat.pow 256 width) 256 ▸ h)
    simp only [bytesOfNat, natOfBytes, ih _ hd, UInt8.toNat_ofNat']
    omega

namespace Word

variable {k : IntKind}

def toBytes (n : Word k) : List UInt8 := bytesOfNat k.bytes (n.val % k.modulus).toNat

def ofBytes (k : IntKind) (bytes : List UInt8) : Word k := wrap k (natOfBytes bytes)

@[simp] theorem toBytes_length (n : Word k) : n.toBytes.length = k.bytes := bytesOfNat_length _ _

end Word
end TypedColumns
