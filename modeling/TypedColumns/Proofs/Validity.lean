import TypedColumns.Native.Validity

/-!
Bitmaps are maps from rows to flags: a row has the flag that it was given last. So the bitmap of a
list of flags has the bit of every flag.
-/
namespace TypedColumns.Bitmap

/-- Giving a row a flag leaves the others alone. -/
theorem bit?_setBit (words : Bitmap) (row : Nat) (valid : Bool) (other : Nat) :
    (words.setBit row valid).bit? other =
      (words.bit? other).map fun b => if other = row then valid else b := by
  unfold setBit bit?
  rw [Array.getElem?_modify]
  by_cases sameWord : row / 64 = other / 64
  · rw [if_pos sameWord]
    cases words[other / 64]? with
    | none => rfl
    | some word =>
      have small : other % 64 < 64 := Nat.mod_lt _ (by decide)
      have sameBit : other % 64 = row % 64 ↔ other = row := by omega
      by_cases same : other = row
      · rw [same] at small
        cases valid <;> simp [same, small]
      · cases valid <;> simp [same, small, sameBit]
  · rw [if_neg sameWord]
    have different : other ≠ row := by
      intro same
      exact sameWord (by rw [same])
    cases words[other / 64]? with
    | none => rfl
    | some word => simp [different]

/-- Gives one row after another a flag. -/
def setAll (words : Bitmap) (sets : List (Nat × Bool)) : Bitmap :=
  sets.foldl (fun words set => words.setBit set.1 set.2) words

/-- The flag that a row was given last, if it was given one. -/
def lastFlag? (row : Nat) (sets : List (Nat × Bool)) : Option Bool := sets.reverse.lookup row

theorem lastFlag?_cons (row : Nat) (set : Nat × Bool) (rest : List (Nat × Bool)) :
    lastFlag? row (set :: rest) =
      (lastFlag? row rest).or (if row = set.1 then some set.2 else none) := by
  simp [lastFlag?, List.lookup_eq_findSome?]

@[simp] theorem size_setAll (words : Bitmap) (sets : List (Nat × Bool)) :
    (words.setAll sets).size = words.size := by
  induction sets generalizing words with
  | nil => rfl
  | cons set rest ih => rw [setAll, List.foldl_cons, ← setAll, ih, size_setBit]

/-- A row has the flag that it was given last, or else the bit that it had before. -/
theorem bit?_setAll (words : Bitmap) (sets : List (Nat × Bool)) (row : Nat) :
    (words.setAll sets).bit? row =
      (words.bit? row).map fun before => (lastFlag? row sets).getD before := by
  induction sets generalizing words with
  | nil => simp [setAll, lastFlag?]
  | cons set rest ih =>
    rw [setAll, List.foldl_cons, ← setAll, ih, bit?_setBit, Option.map_map, lastFlag?_cons]
    congr 1
    funext before
    by_cases same : row = set.1 <;> cases lastFlag? row rest <;> simp [same]

theorem bit?_clearMissing (words : Bitmap) (start : Nat) (flags : List Bool) (row : Nat) :
    (words.clearMissing start flags).bit? row = (words.bit? row).map fun b =>
      b && (row < start || flags[row - start]?.getD true) := by
  induction flags generalizing words start with
  | nil => simp [clearMissing]
  | cons flag rest ih =>
    rw [clearMissing, ih]
    -- The bit of `row` is that of the first flag, or of a later one, or none of the flags has it.
    rcases Nat.lt_trichotomy row start with before | same | after
    · cases flag with
      | true => simp [before, Nat.lt_succ_of_lt before]
      | false =>
        rw [if_neg (by decide), bit?_setBit]
        cases words.bit? row <;> simp [before, Nat.lt_succ_of_lt before, Nat.ne_of_lt before]
    · subst same
      cases flag with
      | true => simp
      | false =>
        rw [if_neg (by decide), bit?_setBit]
        cases words.bit? row <;> simp
    · have later : ¬ row < start + 1 := by omega
      have step : row - start = row - (start + 1) + 1 := by omega
      cases flag with
      | true => simp [Nat.not_lt_of_gt after, later, step]
      | false =>
        rw [if_neg (by decide), bit?_setBit]
        cases words.bit? row <;>
          simp [Nat.not_lt_of_gt after, later, step, Nat.ne_of_gt after]

theorem ofFlags_eq_none {flags : List Bool} : ofFlags flags = none ↔ ∀ flag ∈ flags, flag = true := by
  simp [ofFlags]

theorem size_of_ofFlags {flags : List Bool} {words : Bitmap} (h : ofFlags flags = some words) :
    words.size = wordCount flags.length := by
  unfold ofFlags at h
  split at h
  · cases h
  · obtain rfl := Option.some.inj h
    simp

theorem rowBit?_ofFlags {flags : List Bool} {row : Nat} (h : row < flags.length) :
    rowBit? (ofFlags flags) row = some flags[row] := by
  unfold ofFlags
  by_cases complete : flags.all id
  · rw [if_pos complete]
    have set := List.all_eq_true.mp complete flags[row] (List.getElem_mem h)
    simp only [rowBit?, id] at set ⊢
    rw [set]
  · rw [if_neg complete]
    simp only [rowBit?]
    have word : row / 64 < wordCount flags.length := by
      have := wordCount_mul flags.length
      omega
    have initial : bit? (Array.replicate (wordCount flags.length) (BitVec.allOnes 64)) row =
        some true := by
      have bit : row % 64 < 64 := Nat.mod_lt _ (by decide)
      unfold bit?
      rw [Array.getElem?_replicate, if_pos word, Option.map_some, BitVec.getLsbD_allOnes]
      exact congrArg some (decide_eq_true bit)
    rw [bit?_clearMissing, initial]
    simp [h]

end TypedColumns.Bitmap
