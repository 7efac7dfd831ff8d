import TypedColumns.Proofs.BitStrings
import TypedColumns.Proofs.Keys

/-!
Equality of bit strings. Filler bits belong to no reading, but they are compared: bit strings are
equal, as values and as keys of maps, if they have the same bits behind the same filler. Where the
filler is set, as packing sets it, equality is that of the bits.
-/
namespace TypedColumns.BitString

theorem bitsOfByte_inj {x y : UInt8} (h : bitsOfByte x = bitsOfByte y) : x = y := by
  apply UInt8.toNat_inj.mp
  apply Nat.eq_of_testBit_eq
  intro i
  by_cases inside : i < 8
  · have back : 7 - (7 - i) = i := by omega
    have bit := congrArg (·[7 - i]?) h
    simpa only [getElem?_bitsOfByte _ (show 7 - i < 8 by omega), back, Option.some_inj] using bit
  · have beyond : 2 ^ 8 ≤ 2 ^ i := Nat.pow_le_pow_right (by decide) (by omega)
    rw [Nat.testBit_eq_false_of_lt (x.toNat_lt.trans_le beyond),
      Nat.testBit_eq_false_of_lt (y.toNat_lt.trans_le beyond)]

theorem bitsOfBytes_inj {a b : List UInt8} (h : bitsOfBytes a = bitsOfBytes b) : a = b := by
  induction a generalizing b with
  | nil =>
    have length := congrArg List.length h
    rw [length_bitsOfBytes, length_bitsOfBytes, List.length_nil] at length
    exact (List.eq_nil_of_length_eq_zero (by omega)).symm
  | cons x a ih =>
    cases b with
    | nil => simpa using congrArg List.length h
    | cons y b =>
      rw [bitsOfBytes_cons, bitsOfBytes_cons] at h
      obtain ⟨first, rest⟩ := List.append_inj h (by simp)
      rw [bitsOfByte_inj first, ih rest]

/-- The bits in front of those that are read. -/
def filler (b : BitString) : List Bool := (bitsOfBytes b.bytes).take b.padding

/-- All filler bits are set. -/
def IsFilled (b : BitString) : Prop := b.filler = List.replicate b.padding true

instance (b : BitString) : Decidable b.IsFilled := inferInstanceAs (Decidable (_ = _))

theorem filler_append_toList (b : BitString) : b.filler ++ b.toList = bitsOfBytes b.bytes := by
  rw [filler, toList_eq, List.take_append_drop]

@[simp] theorem length_filler (b : BitString) : b.filler.length = b.padding := by
  have few := b.padding_le
  rw [filler, List.length_take, length_bitsOfBytes, Nat.min_eq_left few]

theorem isFilled_ofList (bits : List Bool) : (ofList bits).IsFilled := by
  rw [IsFilled, filler, bitsOfBytes_ofList, List.take_left' List.length_replicate]

variable {a b : BitString}

/-- Equality sees the filler. -/
theorem eq_iff : a = b ↔ a.toList = b.toList ∧ a.filler = b.filler := by
  refine ⟨?_, fun ⟨bits, fillers⟩ => ?_⟩
  · rintro rfl
    exact ⟨rfl, rfl⟩
  · have padding : a.padding = b.padding := by rw [← a.length_filler, fillers, b.length_filler]
    have bytes : a.bytes = b.bytes := by
      apply bitsOfBytes_inj
      rw [← filler_append_toList, bits, fillers, filler_append_toList]
    cases a
    cases b
    simp_all

/-- As many bits leave room for as many filler bits. -/
theorem padding_of_length (h : a.toList.length = b.toList.length) : a.padding = b.padding := by
  have la := congrArg List.length a.filler_append_toList
  have lb := congrArg List.length b.filler_append_toList
  have ha := a.padding_lt
  have hb := b.padding_lt
  simp only [List.length_append, length_filler, length_bitsOfBytes] at la lb
  omega

theorem eq_iff_of_isFilled (ha : a.IsFilled) (hb : b.IsFilled) : a = b ↔ a.toList = b.toList := by
  refine ⟨congrArg toList, fun same => eq_iff.mpr ⟨same, ?_⟩⟩
  rw [ha, hb, padding_of_length (congrArg List.length same)]

/-- Every comparison of `a` and `b` says whether `same` holds: that of the two, that of their boxed
forms, and that of keys in a map of distinct keys and in a list of entries. -/
structure Compares (a b : BitString) (same : Prop) : Prop where
  plain : a = b ↔ same
  boxed : (Value.bit a == Value.bit b) = true ↔ same
  keys : Target.equalKeys .bitString a b = true ↔ same
  kept : ∀ {v : Target} (content : v.Host) (entries : List (BitString × v.Host)),
    let kept := Target.insertKey (k := .bitString) a content entries
    (same → Target.lookup (k := .bitString) b kept = some content) ∧
      (¬same → Target.lookup (k := .bitString) b kept =
        Target.lookup (k := .bitString) b entries)
  found : ∀ (content : Value) (rest : List (Value × Value)),
    (same → Value.entry? ((.bit a, content) :: rest) (.bit b) = some content) ∧
      (¬same → Value.entry? ((.bit a, content) :: rest) (.bit b) = Value.entry? rest (.bit b))

/-- All comparisons are that of the two. -/
theorem compares_of_iff {same : Prop} (h : a = b ↔ same) : a.Compares b same := by
  have keys : Target.equalKeys .bitString a b = true ↔ same := beq_iff_eq.trans h
  have boxed : (Value.bit a == Value.bit b) = true ↔ same := by
    show Value.equal _ _ = true ↔ same
    rw [Value.equal, beq_iff_eq, h]
  refine ⟨h, boxed, keys, fun content entries => ?_, fun content rest => ?_⟩
  · intro kept
    have inserted := Target.lookup_insertKey (k := .bitString) (Target.equalKeys_isEquality rfl)
      a b content entries
    exact ⟨fun holds => inserted.trans (if_pos (keys.mpr holds)),
      fun fails => inserted.trans (if_neg (mt keys.mp fails))⟩
  · unfold Value.entry?
    refine ⟨fun holds => ?_, fun fails => ?_⟩
    · rw [List.find?_cons_of_pos (by exact boxed.mpr holds), Option.map_some]
    · rw [List.find?_cons_of_neg (by exact mt boxed.mp fails)]

/-- Bit strings with the same filler compare as their bits do, and with different fillers they are
always different. Packed bits and blobs with a set filler compare as their bits do. -/
theorem comparisons_exact (a b : BitString) :
    (a.filler = b.filler → a.Compares b (a.toList = b.toList)) ∧
    (a.filler ≠ b.filler → a.Compares b False) ∧
    (a.IsFilled → b.IsFilled → a.Compares b (a.toList = b.toList)) ∧
    (∀ bits, (ofList bits).IsFilled) ∧ empty.IsFilled := by
  refine ⟨fun same => ?_, fun differ => ?_, fun ha hb => ?_, isFilled_ofList, rfl⟩
  · exact compares_of_iff (eq_iff.trans (and_iff_left same))
  · exact compares_of_iff ⟨fun equal => differ (congrArg filler equal), False.elim⟩
  · exact compares_of_iff (eq_iff_of_isFilled ha hb)

/-- A blob of the bits 101 with its filler set is what packing them gives, and found under them. One
with its filler clear is not. -/
theorem comparisons_exact_of_three_bits :
    ∃ a b, ofBlob [5, 0xFD] = .ok a ∧ ofBlob [5, 0x05] = .ok b ∧ a = ofList [true, false, true] ∧
      Value.entry? [(.bit a, .null)] (.bit (ofList [true, false, true])) = some .null ∧
      Value.entry? [(.bit b, .null)] (.bit (ofList [true, false, true])) = none := by
  let a : BitString := ⟨[0xFD], 5, by decide, by decide⟩
  let b : BitString := ⟨[0x05], 5, by decide, by decide⟩
  obtain ⟨same, -, filled, packed, -⟩ := comparisons_exact a (ofList [true, false, true])
  obtain ⟨-, differ, -⟩ := comparisons_exact b (ofList [true, false, true])
  have equal := filled (by decide) (packed [true, false, true])
  have set := same (by decide)
  have clear := differ (by decide)
  exact ⟨a, b, rfl, rfl, equal.plain.mpr (by decide), (set.found .null []).1 (by decide),
    (clear.found .null []).2 id⟩

/-- Two blobs of the bits 101 that differ in their filler are not equal, and as keys they are two;
the bits are not found under the key that has them. -/
theorem comparisons_see_filler :
    ∃ a b, ofBlob [5, 0xFD] = .ok a ∧ ofBlob [5, 0x05] = .ok b ∧ a.toList = b.toList ∧ a ≠ b ∧
      (Value.bit a == Value.bit b) = false ∧
      Target.distinctKeys (k := .bitString) (v := .bool) [(a, true), (b, false)] =
        [(a, true), (b, false)] ∧
      Value.entry? [(.bit a, .null)] (.bit b) = none := by
  let a : BitString := ⟨[0xFD], 5, by decide, by decide⟩
  let b : BitString := ⟨[0x05], 5, by decide, by decide⟩
  have compared : a.Compares b False := compares_of_iff ⟨by decide, False.elim⟩
  exact ⟨a, b, rfl, rfl, by decide, by decide, Bool.eq_false_iff.mpr compared.boxed.mp, by decide,
    (compared.found .null []).2 id⟩

end TypedColumns.BitString
