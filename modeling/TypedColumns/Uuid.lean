import TypedColumns.Number.Word
import TypedColumns.Text.Numeral

/-!
UUIDs as 128-bit numbers. Slots hold the number with its top bit flipped, so that signed slots sort
as UUIDs.
-/
namespace TypedColumns

structure Uuid where
  number : Word .u128
deriving DecidableEq

namespace Uuid

def nil : Uuid := ⟨0⟩

def topBit : Int := 0x80000000000000000000000000000000

def ofSlot (slot : Word .i128) : Uuid := ⟨.wrap .u128 (slot.val + topBit)⟩

def toSlot (u : Uuid) : Word .i128 := .wrap .i128 (u.number.val - topBit)

theorem ofSlot_toSlot (u : Uuid) : ofSlot u.toSlot = u := by
  obtain ⟨⟨n, h⟩⟩ := u
  have hs : (Word.wrap .i128 (n - topBit)).val = n - topBit := Word.wrap_val_of_holds (by
    simp only [IntKind.Holds, IntKind.min, IntKind.max, topBit] at *; omega)
  simp only [ofSlot, toSlot, hs]
  congr 1
  apply Word.ext
  rw [Int.sub_add_cancel, Word.wrap_val_of_holds h]

/-- Lower-case hexadecimal digits in groups of 8, 4, 4, 4 and 12. -/
def text (u : Uuid) : String :=
  let digits := (Numeral.hex 32 u.number.val.toNat).toList
  let group (start length : Nat) := String.ofList ((digits.drop start).take length)
  String.intercalate "-" [group 0 8, group 8 4, group 12 4, group 16 4, group 20 12]

end Uuid
end TypedColumns
