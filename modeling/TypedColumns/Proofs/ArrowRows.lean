import TypedColumns.Proofs.ArrowElements

/-!
What the rows of nested arrays take from their children, as maps over row numbers; and items that are
drawn in order from rows, some of them left out.
-/
namespace TypedColumns.Arrow.PhysicalArray

open LogicalType

section Rows

variable {β γ : Type}

/-- Values in the rows whose flag is set. -/
theorem masked_range (valid : List Bool) (f : Nat → Value) :
    masked valid ((List.range valid.length).map f) =
      (List.range valid.length).map fun row => whereValid valid row (f row) := by
  apply List.ext_getElem
  · simp [masked]
  · intro row _ inside
    have inside : row < valid.length := by simpa using inside
    simp [masked, whereValid, inside]

theorem spans_eq (items : List β) (offsets : List Nat) : spans items offsets =
    (List.range (offsets.length - 1)).map fun row =>
      window (offsets[row]?.getD 0) (offsets[row + 1]?.getD 0 - offsets[row]?.getD 0) items := by
  induction offsets with
  | nil => rfl
  | cons start rest ih =>
    cases rest with
    | nil => rfl
    | cons stop rest =>
      rw [spans, ih]
      simp [List.range_succ_eq_map]

theorem runs_eq (size rows : Nat) (items : List β) : runs size rows items =
    (List.range rows).map fun row => window (row * size) size items := by
  induction rows generalizing items with
  | zero => rfl
  | succ rows ih =>
    rw [runs, ih]
    simp [List.range_succ_eq_map, window, Nat.succ_mul, Nat.add_comm]

theorem transpose_eq (rows : Nat) (columns : List (List Value)) : transpose rows columns =
    (List.range rows).map fun row => columns.map fun column => column[row]?.getD .null := by
  induction rows generalizing columns with
  | zero => rfl
  | succ rows ih =>
    rw [transpose, ih]
    simp [List.range_succ_eq_map, List.headD_eq_head?_getD, List.head?_eq_getElem?]

theorem window_range {n start count : Nat} (inside : start + count ≤ n) :
    window start count (List.range n) = List.range' start count := by
  apply List.ext_getElem
  · simp [window]
    omega
  · intro i _ _
    simp [window]

theorem window_sublist (start count : Nat) (items : List β) :
    (window start count items).Sublist items :=
  (List.take_sublist _ _).trans (List.drop_sublist _ _)

/-- A segment of related lists. -/
theorem window_related {R : β → γ → Prop} {items : List β} {f : Nat → γ} {n start count : Nat}
    (h : List.Forall₂ R items ((List.range n).map f)) (inside : start + count ≤ n) :
    List.Forall₂ R (window start count items) ((List.range' start count).map f) := by
  rw [← window_range inside]
  unfold window
  rw [List.map_take, List.map_drop]
  exact List.forall₂_take _ (List.forall₂_drop _ h)

theorem zip_related {β' γ' : Type} {R : β → γ → Prop} {R' : β' → γ' → Prop} {items : List β}
    {found : List γ} {items' : List β'} {found' : List γ'} (h : List.Forall₂ R items found)
    (h' : List.Forall₂ R' items' found') :
    List.Forall₂ (fun pair other => R pair.1 other.1 ∧ R' pair.2 other.2) (items.zip items')
      (found.zip found') := by
  induction h generalizing items' found' with
  | nil => exact .nil
  | cons first _ ih =>
    cases h' with
    | nil => exact .nil
    | cons second rest => exact .cons ⟨first, second⟩ (ih rest)

end Rows

section Spans

variable {offsets : List Nat} {rows childRows : Nat}

/-- One offset more than there are rows, in ascending order and inside the child. -/
structure Offsets (offsets : List Nat) (rows childRows : Nat) : Prop where
  count : offsets.length = rows + 1
  ascending : offsets.Pairwise (· ≤ ·)
  inside : ∀ offset ∈ offsets, offset ≤ childRows

theorem Offsets.span (h : Offsets offsets rows childRows) {row : Nat} (inside : row < rows) :
    offsets[row]?.getD 0 ≤ offsets[row + 1]?.getD 0 ∧ offsets[row + 1]?.getD 0 ≤ childRows := by
  have first : row < offsets.length := by rw [h.count]; omega
  have second : row + 1 < offsets.length := by rw [h.count]; omega
  rw [List.getElem?_eq_getElem first, List.getElem?_eq_getElem second]
  exact ⟨List.pairwise_iff_getElem.mp h.ascending _ _ _ _ (Nat.lt_succ_self row),
    h.inside _ (List.getElem_mem second)⟩

/-- Between the offsets of all rows, the child rows follow one another. -/
theorem spanRows_flatten (h : Offsets offsets rows childRows) :
    ((List.range rows).map (spanRows offsets)).flatten.Sublist (List.range childRows) := by
  let offset (row : Nat) : Nat := offsets[row]?.getD 0
  have upTo : ∀ k ≤ rows, offset 0 ≤ offset k ∧ offset k ≤ childRows ∧
      ((List.range k).map (spanRows offsets)).flatten =
        List.range' (offset 0) (offset k - offset 0) := by
    intro k
    induction k with
    | zero =>
      intro _
      have inside : 0 < offsets.length := by rw [h.count]; omega
      have first : offset 0 ≤ childRows := by
        simp only [offset, List.getElem?_eq_getElem inside]
        exact h.inside _ (List.getElem_mem inside)
      exact ⟨Nat.le_refl _, first, by simp⟩
    | succ k ih =>
      intro hk
      obtain ⟨lower, upper, flat⟩ := ih (by omega)
      obtain ⟨ascending, last⟩ : offset k ≤ offset (k + 1) ∧ offset (k + 1) ≤ childRows :=
        h.span (by omega)
      refine ⟨Nat.le_trans lower ascending, last, ?_⟩
      have next : spanRows offsets k =
          List.range' (offset 0 + (offset k - offset 0)) (offset (k + 1) - offset k) := by
        rw [Nat.add_sub_cancel' lower]
        rfl
      rw [List.range_succ, List.map_append, List.flatten_append, flat]
      simp only [List.map_cons, List.map_nil, List.flatten_cons, List.flatten_nil, List.append_nil]
      rw [next, List.range'_append_1]
      congr 1
      omega
  obtain ⟨ascending, last, flat⟩ := upTo rows (Nat.le_refl _)
  rw [flat, ← window_range (show offset 0 + (offset rows - offset 0) ≤ childRows by omega)]
  exact window_sublist _ _ _

/-- The child rows of all rows of a fixed-size list follow one another. -/
theorem blocks_flatten (size rows : Nat) :
    ((List.range rows).map fun row => List.range' (row * size) size).flatten =
      List.range (rows * size) := by
  induction rows with
  | zero => simp
  | succ rows ih =>
    rw [List.range_succ, List.map_append, List.flatten_append, ih, List.range_eq_range',
      List.range_eq_range']
    simp only [List.map_cons, List.map_nil, List.flatten_cons, List.flatten_nil, List.append_nil]
    have next := List.range'_append_1 (s := 0) (m := rows * size) (n := size)
    rw [Nat.zero_add] at next
    rw [next, Nat.succ_mul]

end Spans

section Drawn

variable {β : Type} {R : Value → Nat → Prop} {S : β → Nat → Prop}

theorem length_le_of_sublistForall₂ {items : List β} {rows : List Nat}
    (h : List.SublistForall₂ S items rows) : items.length ≤ rows.length := by
  obtain ⟨chosen, each, sub⟩ := List.sublistForall₂_iff.mp h
  rw [each.length_eq]
  exact sub.length_le

theorem sublistForall₂_map {f : Nat → β} {rows : List Nat} (h : ∀ row, S (f row) row) :
    List.SublistForall₂ S (rows.map f) rows := by
  refine List.sublistForall₂_iff.mpr ⟨rows, ?_, List.Sublist.refl _⟩
  rw [List.forall₂_map_left_iff, List.forall₂_same]
  exact fun row _ => h row

theorem sublistForall₂_mono {items : List β} {rows others : List Nat}
    (h : List.SublistForall₂ S items rows) (sub : rows.Sublist others) :
    List.SublistForall₂ S items others := by
  obtain ⟨chosen, each, sub'⟩ := List.sublistForall₂_iff.mp h
  exact List.sublistForall₂_iff.mpr ⟨chosen, each, sub'.trans sub⟩

theorem sublistForall₂_imp {S' : β → Nat → Prop} {items : List β} {rows : List Nat}
    (h : List.SublistForall₂ S items rows) (imp : ∀ item row, S item row → S' item row) :
    List.SublistForall₂ S' items rows := by
  induction h with
  | nil => exact .nil
  | cons first _ ih => exact .cons (imp _ _ first) ih
  | cons_right _ ih => exact .cons_right ih

theorem sublistForall₂_append {first rest : List β} {rows others : List Nat}
    (h : List.SublistForall₂ S first rows) (h' : List.SublistForall₂ S rest others) :
    List.SublistForall₂ S (first ++ rest) (rows ++ others) := by
  obtain ⟨chosen, each, sub⟩ := List.sublistForall₂_iff.mp h
  obtain ⟨chosen', each', sub'⟩ := List.sublistForall₂_iff.mp h'
  exact List.sublistForall₂_iff.mpr ⟨chosen ++ chosen', List.rel_append each each', sub.append sub'⟩

/-- A row that may have been made null is null or has its value. -/
theorem null_or_value {valid : List Bool} {row : Nat} {v x : Value}
    (h : v = .null ∨ v = whereValid valid row x) : v = .null ∨ v = x := by
  unfold whereValid at h
  split at h
  · exact h
  · exact .inl (h.elim id id)

/-- The parts of rows that are drawn are drawn from the parts of all rows. -/
theorem drawn_flatten (parts : Value → List β) (part : Nat → List Nat) {rows : List Value}
    {indices : List Nat} (h : List.SublistForall₂ R rows indices)
    (each : ∀ v row, R v row → List.SublistForall₂ S (parts v) (part row)) :
    List.SublistForall₂ S (rows.map parts).flatten (indices.map part).flatten := by
  induction h with
  | nil => exact .nil
  | cons first _ ih => exact sublistForall₂_append (each _ _ first) ih
  | cons_right _ ih => exact sublistForall₂_append .nil ih

end Drawn

section DrawnFrom

variable {content keyContent : Nat → Value} {count : Nat} {rows : List Value}

/-- Rows with the given contents in their order, some of them left out and some made null. -/
def DrawnFrom (content : Nat → Value) (count : Nat) (rows : List Value) : Prop :=
  List.SublistForall₂ (fun v row => v = .null ∨ v = content row) rows (List.range count)

namespace DrawnFrom

theorem all (content : Nat → Value) (count : Nat) :
    DrawnFrom content count ((List.range count).map content) :=
  sublistForall₂_map fun _ => .inr rfl

theorem length_le (h : DrawnFrom content count rows) : rows.length ≤ count := by
  have few := length_le_of_sublistForall₂ h
  rwa [List.length_range] at few

/-- The contents of rows outside of the count make no difference. -/
theorem congr {other : Nat → Value} (h : DrawnFrom content count rows)
    (same : ∀ row < count, content row = other row) : DrawnFrom other count rows := by
  obtain ⟨indices, each, sub⟩ := List.sublistForall₂_iff.mp h
  refine List.sublistForall₂_iff.mpr ⟨indices, ?_, sub⟩
  rw [List.forall₂_iff_get] at each ⊢
  refine ⟨each.1, fun i hi hj => ?_⟩
  have inside := List.mem_range.mp (sub.subset (List.getElem_mem hj))
  exact (each.2 i hi hj).imp id fun h => h.trans (same _ inside)

variable {offsets : List Nat} {valid : List Bool} {childRows : Nat}

/-- The elements of rows that are drawn from lists are drawn from the child. -/
theorem list (laid : Offsets offsets count childRows)
    (h : DrawnFrom (fun row => whereValid valid row (.list ((spanRows offsets row).map content)))
      count rows) : DrawnFrom content childRows (rows.map elements).flatten := by
  refine sublistForall₂_mono (drawn_flatten elements (spanRows offsets) h ?_)
    (spanRows_flatten laid)
  intro v row h
  obtain rfl | rfl := null_or_value h
  · exact .nil
  · exact sublistForall₂_map fun j => .inr rfl

theorem fixedList {size : Nat} (laid : count * size ≤ childRows)
    (h : DrawnFrom (fun row => whereValid valid row
      (.list ((List.range' (row * size) size).map content))) count rows) :
    DrawnFrom content childRows (rows.map (arrayElements size)).flatten := by
  have blocks : ((List.range count).map fun row => List.range' (row * size) size).flatten.Sublist
      (List.range childRows) := by
    rw [blocks_flatten]
    exact List.range_sublist.mpr laid
  refine sublistForall₂_mono (drawn_flatten (arrayElements size) _ h ?_) blocks
  intro v row h
  obtain rfl | rfl := null_or_value h
  · have nulls : List.replicate size Value.null = (List.range' (row * size) size).map
        fun _ => .null := by
      rw [List.map_const', List.length_range']
    show List.SublistForall₂ _ (List.replicate size Value.null) _
    rw [nulls]
    exact sublistForall₂_map fun _ => .inl rfl
  · exact sublistForall₂_map fun j => .inr rfl

/-- The entries of rows that are drawn from maps are drawn from the keys and the values. -/
theorem map (laid : Offsets offsets count childRows)
    (h : DrawnFrom (fun row => whereValid valid row
      (.map ((spanRows offsets row).map fun j => (keyContent j, content j)))) count rows) :
    DrawnFrom keyContent childRows ((rows.map entries).flatten.map Prod.fst) ∧
      DrawnFrom content childRows ((rows.map entries).flatten.map Prod.snd) := by
  have pairs : List.SublistForall₂ (fun pair row => pair = (keyContent row, content row))
      (rows.map entries).flatten (List.range childRows) := by
    refine sublistForall₂_mono (drawn_flatten entries (spanRows offsets) h ?_)
      (spanRows_flatten laid)
    intro v row h
    obtain rfl | rfl := null_or_value h
    · exact .nil
    · exact sublistForall₂_map fun j => rfl
  constructor <;> rw [DrawnFrom, List.sublistForall₂_map_left_iff]
  · exact sublistForall₂_imp pairs fun _ _ pair => .inr (congrArg Prod.fst pair)
  · exact sublistForall₂_imp pairs fun _ _ pair => .inr (congrArg Prod.snd pair)

end DrawnFrom

/-- Rows of cells in their order, some of them left out and some made null in all cells. -/
def CellsDrawnFrom (contents : List (Nat → Value)) (count : Nat) (cells : List (List Value)) : Prop :=
  List.SublistForall₂ (fun cell row => cell = List.replicate contents.length .null ∨
    cell = contents.map fun content => content row) cells (List.range count)

namespace CellsDrawnFrom

variable {contents : List (Nat → Value)} {cells : List (List Value)}

theorem head (h : CellsDrawnFrom (content :: contents) count cells) :
    DrawnFrom content count (cells.map fun cell => cell.headD .null) := by
  rw [DrawnFrom, List.sublistForall₂_map_left_iff]
  refine sublistForall₂_imp h ?_
  rintro cell row (rfl | rfl)
  · exact .inl rfl
  · exact .inr rfl

theorem tail (h : CellsDrawnFrom (content :: contents) count cells) :
    CellsDrawnFrom contents count (cells.map List.tail) := by
  rw [CellsDrawnFrom, List.sublistForall₂_map_left_iff]
  refine sublistForall₂_imp h ?_
  rintro cell row (rfl | rfl)
  · exact .inl rfl
  · exact .inr rfl

end CellsDrawnFrom

/-- The cells of rows that are drawn from structs. -/
theorem DrawnFrom.struct {names : List String} {contents : List (Nat → Value)} {valid : List Bool}
    (same : names.length = contents.length)
    (h : DrawnFrom (fun row => whereValid valid row
      (.struct (names.zip (contents.map fun content => content row)))) count rows) :
    CellsDrawnFrom contents count (rows.map (memberCells contents.length)) := by
  rw [CellsDrawnFrom, List.sublistForall₂_map_left_iff]
  refine sublistForall₂_imp h fun v row drawn => ?_
  obtain rfl | rfl := null_or_value drawn
  · exact .inl rfl
  · refine .inr (List.map_snd_zip ?_)
    rw [List.length_map, same]

end DrawnFrom

end TypedColumns.Arrow.PhysicalArray
