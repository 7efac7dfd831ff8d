/-!
Validity bitmaps: one bit per row, 64 rows to a word, set for rows that hold a value. A vector
without a bitmap holds a value in every row.
-/
namespace TypedColumns

abbrev Bitmap := Array (BitVec 64)

namespace Bitmap

/-- Words that a bitmap of `rows` rows needs. -/
def wordCount (rows : Nat) : Nat := (rows + 63) / 64

def bit? (words : Bitmap) (row : Nat) : Option Bool :=
  words[row / 64]?.map fun word => word.getLsbD (row % 64)

def setBit (words : Bitmap) (row : Nat) (valid : Bool) : Bitmap :=
  words.modify (row / 64) fun word =>
    let mask := BitVec.twoPow 64 (row % 64)
    if valid then word ||| mask else word &&& ~~~mask

/-- Starts with every bit set and clears the rows of `rows` that hold nothing. -/
def clearMissing (words : Bitmap) : (row : Nat) → (flags : List Bool) → Bitmap
  | _, [] => words
  | row, flag :: rest =>
    clearMissing (if flag then words else words.setBit row false) (row + 1) rest

/-- The bitmap of the given flags, none when all are set. -/
def ofFlags (flags : List Bool) : Option Bitmap :=
  if flags.all id then none
  else some (clearMissing (Array.replicate (wordCount flags.length) (BitVec.allOnes 64)) 0 flags)

/-- The bit of a row, set without a bitmap. -/
def rowBit? : Option Bitmap → Nat → Option Bool
  | none, _ => some true
  | some words, row => words.bit? row

theorem wordCount_mul (rows : Nat) : rows ≤ 64 * wordCount rows := by
  simp only [wordCount]; omega

@[simp] theorem size_setBit (words : Bitmap) (row : Nat) (valid : Bool) :
    (words.setBit row valid).size = words.size := by simp [setBit]

@[simp] theorem size_clearMissing (words : Bitmap) (row : Nat) (flags : List Bool) :
    (words.clearMissing row flags).size = words.size := by
  induction flags generalizing words row with
  | nil => rfl
  | cons flag rest ih => cases flag <;> simp [clearMissing, ih]

end Bitmap
end TypedColumns
