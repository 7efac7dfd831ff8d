import TypedColumns.Proofs.ArrowSlices
import TypedColumns.Proofs.Constructors

/-!
Flags of rows and the bitmaps that keep them. A bitmap that is made from flags, those of an Arrow
array among them, is absent where all flags are set, has the words that the rows need and no more,
and gives back the flag of every row, by itself and in every view of those rows.
-/
namespace TypedColumns

open Arrow (PhysicalArray)

/-- What a bitmap that is made from flags says about rows. -/
structure Bitmap.Keeps (bitmap : Option Bitmap) (flags : List Bool) : Prop where
  absent : bitmap = none ↔ ∀ flag ∈ flags, flag = true
  words : ∀ words, bitmap = some words → words.size = wordCount flags.length
  bits : ∀ row flag, flags[row]? = some flag → rowBit? bitmap row = some flag

/-- Rows of a view have the flags of its bitmap, and there are no others. -/
def ColumnView.ShowsFlags (view : ColumnView) (flags : List Bool) : Prop :=
  ∀ row, (view.rows ≤ row → view.isValid row = .error (.indexOutOfRange row view.rows)) ∧
    (row < view.rows → ∃ flag, flags[row]? = some flag ∧ view.isValid row = .ok flag)

namespace Bitmap

theorem keeps_ofFlags (flags : List Bool) : Keeps (ofFlags flags) flags := by
  refine ⟨ofFlags_eq_none, fun words => size_of_ofFlags, fun row flag found => ?_⟩
  obtain ⟨inside, rfl⟩ := List.getElem?_eq_some_iff.mp found
  exact rowBit?_ofFlags inside

theorem Keeps.shows {flags : List Bool} {view : ColumnView}
    (h : Keeps view.native.bitmap flags) (covered : view.rows ≤ flags.length) :
    view.ShowsFlags flags := by
  refine fun row => ⟨fun beyond => ?_, fun inside => ?_⟩
  · rw [ColumnView.isValid, ColumnView.checkIndex, if_neg (Nat.not_lt.mpr beyond)]
    rfl
  · have found := List.getElem?_eq_getElem (Nat.lt_of_lt_of_le inside covered)
    exact ⟨_, found, ColumnView.isValid_of_bit inside (h.bits row _ found)⟩

/-- A row in range has the flag that it is given last, and its first bit until it is given one. -/
theorem flag_of_sets (words : Bitmap) (sets : List (Nat × Bool)) {row : Nat}
    (inside : row < 64 * words.size) : ∃ word, words[row / 64]? = some word ∧
      (words.setAll sets).bit? row = some ((lastFlag? row sets).getD (word.getLsbD (row % 64))) := by
  have word : row / 64 < words.size := by omega
  refine ⟨words[row / 64], Array.getElem?_eq_getElem word, ?_⟩
  rw [bit?_setAll, bit?, Array.getElem?_eq_getElem word]
  rfl

end Bitmap

/-- Slots are copied as long as their bytes can be counted. -/
theorem Arrow.PhysicalArray.toVector_of_rawSlots {a : PhysicalArray} {slots : List UInt8}
    {flags : List Bool} (copied : a.rawSlots? = some (slots, flags))
    (fits : slots.length < sizeModulus) : ∃ n, a.toVector = .ok n := by
  obtain ⟨α, type, bytes, value, cells, h, -⟩ := copied_slice (a := a) (by rw [copied]; rfl)
  obtain ⟨width, hw, wide⟩ := h.slotWidth
  have same := h.slots.symm.trans copied
  obtain ⟨rfl, -⟩ := Prod.mk.inj (Option.some.inj same)
  rw [length_flatten_uniform wide, List.length_map] at fits
  obtain ⟨n, hn, -⟩ := h.toVector_ok hw fits
  exact ⟨n, hn⟩

namespace Bitmap

/-- A bitmap is a map from rows to flags: whatever flags rows in range are given, in whatever order,
each row has the last one of its own, or the bit that it started with, and the words stay as many.
So a bitmap that is made from flags keeps them, and every view of their rows shows them. So does the
bitmap of an Arrow array whose cells are copied as slots. -/
theorem flags_kept :
    (∀ (words : Bitmap) (sets : List (Nat × Bool)), (∀ set ∈ sets, set.1 < 64 * words.size) →
      (words.setAll sets).size = words.size ∧
      ∀ row < 64 * words.size, ∃ word, words[row / 64]? = some word ∧
        (words.setAll sets).bit? row =
          some ((lastFlag? row sets).getD (word.getLsbD (row % 64)))) ∧
    (∀ flags : List Bool, Keeps (ofFlags flags) flags ∧
      ∀ view : ColumnView, view.native.bitmap = ofFlags flags → view.rows ≤ flags.length →
        view.ShowsFlags flags) ∧
    ∀ (a : PhysicalArray) (slots : List UInt8) (flags : List Bool),
      a.rawSlots? = some (slots, flags) →
        (slots.length < sizeModulus → ∃ n, a.toVector = .ok n) ∧
        ∀ n, a.toVector = .ok n → n.rows = a.rows ∧ Keeps n.bitmap a.validity ∧
          ∀ view : ColumnView, view.native = n → view.rows ≤ n.rows →
            view.ShowsFlags a.validity := by
  refine ⟨fun words sets _ => ⟨size_setAll words sets, fun row => flag_of_sets words sets⟩,
    fun flags => ⟨keeps_ofFlags flags, fun view made covered => ?_⟩,
    fun a slots flags copied => ⟨PhysicalArray.toVector_of_rawSlots copied, fun n made => ?_⟩⟩
  · exact Keeps.shows (made ▸ keeps_ofFlags flags) covered
  · obtain ⟨type, -, rfl⟩ := PhysicalArray.toVector_eq_ok copied made
    refine ⟨rfl, keeps_ofFlags a.validity, fun view native covered => ?_⟩
    have keeps : Keeps view.native.bitmap a.validity := native ▸ keeps_ofFlags a.validity
    exact keeps.shows covered

/-- Row 70 is set and cleared again, and row 64 stays as it was. Of 65 booleans the last one is
missing, behind a full word; of two dates the second one. -/
theorem flags_kept_across_words :
    let words : Bitmap := #[0, 5]
    let sets := [(70, true), (3, true), (70, false)]
    let n := NativeVector.ofBooleans (List.replicate 64 (some false) ++ [none])
    let dates := PhysicalArray.date32 [⟨0, true⟩, ⟨0, false⟩]
    (words.setAll sets).bit? 70 = some false ∧ (words.setAll sets).bit? 3 = some true ∧
      (words.setAll sets).bit? 64 = some true ∧
      (∃ view, ColumnView.ofNative n 65 = .ok view ∧ view.isValid 63 = .ok true ∧
        view.isValid 64 = .ok false ∧ view.isValid 65 = .error (.indexOutOfRange 65 65)) ∧
      ∃ copy, dates.toVector = .ok copy ∧ copy.bit? 1 = some false := by
  intro words sets n dates
  obtain ⟨sequences, lists, arrays⟩ := flags_kept
  obtain ⟨-, bits⟩ := sequences words sets (by decide)
  obtain ⟨_, -, cleared⟩ := bits 70 (by decide)
  obtain ⟨_, -, set⟩ := bits 3 (by decide)
  obtain ⟨_, ⟨⟩, kept⟩ := bits 64 (by decide)
  let view : ColumnView := ⟨⟨.scalar .boolean, rfl⟩, 65, n, []⟩
  have shows := (lists (List.replicate 64 true ++ [false])).2 view rfl (by decide)
  obtain ⟨_, ⟨⟩, full⟩ := (shows 63).2 (by decide)
  obtain ⟨_, ⟨⟩, missing⟩ := (shows 64).2 (by decide)
  have beyond := (shows 65).1 (by decide)
  obtain ⟨taken, keeps⟩ := arrays dates _ _ rfl
  obtain ⟨copy, made⟩ := taken (by decide)
  have first : (words[64 / 64]).getLsbD (64 % 64) = true := by decide
  exact ⟨cleared, set, kept.trans (congrArg some first), ⟨view, rfl, full, missing, beyond⟩, copy,
    made, (keeps copy made).2.1.bits 1 false rfl⟩

end Bitmap
end TypedColumns
