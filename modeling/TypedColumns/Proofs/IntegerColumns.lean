import TypedColumns.Proofs.RowReads
import TypedColumns.Proofs.SlotRoundTrip

/-!
Columns of integers. What is written has any of the ten kinds and is taken if its number is one of
the column's kind; the targets that it is then read as are those that hold every number of that kind,
and they read the number that was written.
-/
namespace TypedColumns

namespace IntKind

/-- Kinds of the same signedness that are at least as wide, and wider signed ones for unsigned
kinds. -/
def Widens (k l : IntKind) : Prop :=
  k.signed = l.signed ∧ k.bytes ≤ l.bytes ∨
    k.signed = false ∧ l.signed = true ∧ k.bytes < l.bytes

instance (k l : IntKind) : Decidable (k.Widens l) := inferInstanceAs (Decidable (_ ∨ _))

theorem widensTo_iff (k l : IntKind) : k.widensTo l = true ↔ k.Widens l := by
  cases k <;> cases l <;> decide

theorem Widens.holds {k l : IntKind} (wide : k.Widens l) {n : Int} (h : k.Holds n) : l.Holds n := by
  have limits := (widensTo_iff k l).mpr wide
  rw [widensTo, Bool.and_eq_true, decide_eq_true_eq, decide_eq_true_eq] at limits
  exact ⟨Int.le_trans limits.1 h.1, Int.le_trans h.2 limits.2⟩

end IntKind

/-- Widening leaves the number alone. -/
theorem Word.widen_val {k l : IntKind} (wide : k.Widens l) (w : Word k) :
    (w.widen l).val = w.val :=
  wrap_val_of_holds (wide.holds w.holds)

/-- Integer targets that do not hold every number of the column's kind are refused at resolution. -/
theorem Column.refuses_narrower {c : Column} {k l : IntKind} (hc : c.type = .scalar (.int k))
    (narrow : ¬ k.Widens l) : ∀ t ∈ [Target.int l, .option (.int l)],
      c.resolve t = .error (.typeMismatch (.int k) (.int k) (.target t)) ∧
      c.resolveVariant t = .error (.typeMismatch (.int k) (.int k) (.target t)) := by
  have refused : k.widensTo l = false := by
    rw [← Bool.not_eq_true, IntKind.widensTo_iff]
    exact narrow
  have plain : ¬ c.type.accepts (.int l) := by
    rw [hc, Bool.not_eq_true]
    exact refused
  have check (t : Target) (h : ¬ c.type.accepts t) :
      c.checkTarget t = .error (.typeMismatch (.int k) (.int k) (.target t)) := by
    rw [checkTarget, if_neg h, mismatch, kind, storage, hc]
    rfl
  have both (t : Target) (h : ¬ c.type.accepts t) :
      c.resolve t = .error (.typeMismatch (.int k) (.int k) (.target t)) ∧
      c.resolveVariant t = .error (.typeMismatch (.int k) (.int k) (.target t)) := by
    rw [resolve, resolveVariant, check t h]
    exact ⟨rfl, rfl⟩
  intro t ht
  simp only [List.mem_cons, List.not_mem_nil, or_false] at ht
  rcases ht with rfl | rfl
  · exact both _ plain
  · exact both _ (by rwa [LogicalType.accepts])

namespace NativeVector

open LogicalType

variable {n : NativeVector} {type : LogicalType} {row : Nat} {k : IntKind} {w : Word k}

/-- Every integer target that holds the numbers of kind `k` reads `number`, and so do options. -/
def ReadsWider (n : NativeVector) (k : IntKind) (row : Nat) (number : Int) : Prop :=
  ∀ l, k.Widens l → ∃ x : Word l, x.val = number ∧ n.RowReads row (.int l) (.ok x) ∧
    n.RowReads row (.option (.int l)) (.ok (some x))

/-- Every integer target that holds the numbers of the slots reads the number of the row's slot. -/
theorem HasWord.readsWider (h : n.HasWord type row w) (slots : type.intSlot? = some k) :
    n.ReadsWider k row w.val := by
  intro l wide
  have reader : Reader.typed? type (.int l) = some (Reader.widened k l) := by
    simp only [Reader.typed?, slots, IntKind.sources_contains, (IntKind.widensTo_iff k l).mpr wide,
      if_true]
  have reads (view : ColumnView) (word : view.intAt k row = .ok w) :
      Reader.widened k l view row = .ok (w.widen l) := by
    rw [Reader.widened, word]
    rfl
  exact ⟨w.widen l, w.widen_val wide,
    h.reads_typed rfl rfl reader fun view _ word => reads view word,
    h.reads_optional rfl rfl reader fun view _ word => reads view word⟩

/-- The integers of all rows are there to be seen at once. -/
theorem HasWord.inSpan (h : n.HasWord (.scalar (.int k)) row w)
    (size : n.data.size = n.rows * k.bytes) {rows : Nat} (below : row < rows)
    (few : rows ≤ n.rows) : ∃ view words, ColumnView.ofNative n rows = .ok view ∧
      view.intSpan k = .ok words ∧ words.length = rows ∧ words[row]? = some w := by
  let word (row : Nat) : Word k := Word.ofBytes k ((n.slot? k.bytes row).getD [])
  let view : ColumnView := ⟨⟨.scalar (.int k), h.valid⟩, rows, n, []⟩
  have made : ColumnView.ofNative n rows = .ok view := by
    rw [ColumnView.ofNative, h.typed, Column.ofType_of_check h.valid]
    exact ColumnView.firstRows_of_le few _ _
  have loads : ∀ row ∈ List.range rows, view.intAt k row = .ok (word row) := by
    intro row hr
    have below := List.mem_range.mp hr
    have inside : k.bytes * row + k.bytes ≤ n.data.size := by
      rw [size, ← Nat.mul_succ, Nat.mul_comm]
      exact Nat.mul_le_mul_right _ (by omega)
    simp only [ColumnView.intAt, view, word, slot?, if_pos inside]
    rfl
  refine ⟨view, (List.range rows).map word, made, ?_, by simp, ?_⟩
  · have spans : view.checkSpan (.int k) = .ok () := if_pos rfl
    rw [ColumnView.intSpan, spans, Result.ok_bind]
    exact Result.mapM_eq_map loads
  · simp only [List.getElem?_map, List.getElem?_range below, Option.map_some, word, h.slot,
      Option.getD_some, Word.ofBytes_toBytes]

/-- The row of a column of integers of kind `k` is read as `w`. -/
structure ReadsInteger (n : NativeVector) (row : Nat) {k : IntKind} (w : Word k) : Prop where
  wider : n.ReadsWider k row w.val
  boxed : n.RowReads row .value (.ok (.int k w))
  span : ∀ rows, row < rows → rows ≤ n.rows → ∃ view words, ColumnView.ofNative n rows = .ok view ∧
    view.intSpan k = .ok words ∧ words.length = rows ∧ words[row]? = some w

variable {rows : List Value}

/-- Integers of any kinds are taken into a column of kind `k` exactly if their numbers are of that
kind, and what is refused is a wrong argument. Every integer target that holds the numbers of kind
`k` then reads the number that was written, the boxed read has it as an integer of kind `k` and so
has the span of all rows; every other integer target is a mismatch at resolution. -/
theorem integers_kept (integers : ∀ v ∈ rows, v = .null ∨ ∃ l w, v = .int l w)
    (room : rows.length * k.bytes < sizeModulus) :
    ((∃ n, ofValues (.scalar (.int k)) rows = .ok n) ↔
      ∀ l (w : Word l), .int l w ∈ rows → k.Holds w.val) ∧
    (∀ e, ofValues (.scalar (.int k)) rows = .error e → ∃ fault, e = .argument fault) ∧
    (∀ n, ofValues (.scalar (.int k)) rows = .ok n → n.rows = rows.length ∧
      ∀ (row : Nat) (hrow : row < rows.length) l (w : Word l), rows[row] = .int l w →
        ∃ stored : Word k, stored.val = w.val ∧ n.ReadsInteger row stored) ∧
    ∀ c : Column, c.type = .scalar (.int k) → ∀ l, ¬ k.Widens l →
      ∀ t ∈ [Target.int l, .option (.int l)],
        c.resolve t = .error (.typeMismatch (.int k) (.int k) (.target t)) ∧
        c.resolveVariant t = .error (.typeMismatch (.int k) (.int k) (.target t)) := by
  have valid : (scalar (.int k)).check = .ok () := rfl
  have slotted : (scalar (.int k)).isSlotted := rfl
  have taken := ofValues_iff valid slotted rfl room
  refine ⟨taken.trans ⟨?_, ?_⟩, ofValues_isArgument valid slotted nofun rfl room, ?_,
    fun c hc l narrow => Column.refuses_narrower hc narrow⟩
  · intro written l w hw
    exact (slotOf_int_iff w).mp (written _ hw rfl)
  · intro inside v hv there
    rcases integers v hv with rfl | ⟨l, w, rfl⟩
    · cases there
    · exact (slotOf_int_iff w).mpr (inside l w hv)
  · intro n hn
    obtain ⟨count, written⟩ := slotOf_of_ofValues slotted hn
    refine ⟨count, fun row hrow l w hw => ?_⟩
    have hv : Value.int l w ∈ rows := hw ▸ List.getElem_mem hrow
    let stored : Word k := ⟨w.val, (slotOf_int_iff w).mp (written _ hv rfl)⟩
    have word : n.HasWord (.scalar (.int k)) row stored :=
      hasWord_of_ofValues slotted hn hrow (by rw [hw]; rfl)
        (by rw [hw]; exact slotOf_int stored w rfl)
    have size : n.data.size = n.rows * k.bytes := by
      rw [ofValues_slotted valid slotted] at hn
      rw [(ofSlotValues_hasRows slotted hn).1.slots, count]
      rfl
    exact ⟨stored, rfl, word.readsWider rfl, word.reads_boxed rfl (int_wordSlots k),
      fun rows => word.inSpan size⟩

/-- A signed byte has room for 127 that is written as an unsigned integer of 128 bits, and for -128,
but not for 128. -/
theorem integers_kept_in_a_byte :
    let largest : Value := .int .u128 (.wrap .u128 127)
    let smallest : Value := .int .i64 (.wrap .i64 (-128))
    (∃ n, ofValues (.scalar (.int .i8)) [.null, largest, smallest] = .ok n ∧
      n.RowReads 1 (.int .i8) (.ok (.wrap .i8 127)) ∧
      n.RowReads 2 (.option (.int .i128)) (.ok (some (.wrap .i128 (-128))))) ∧
    ∃ fault, ofValues (.scalar (.int .i8)) [largest, .int .u8 (.wrap .u8 128)] =
      .error (.argument fault) := by
  intro largest smallest
  constructor
  · have integers : ∀ v ∈ [.null, largest, smallest], v = .null ∨ ∃ l w, v = .int l w := by
      simp [largest, smallest]
    obtain ⟨taken, -, reads, -⟩ := integers_kept (k := .i8) integers (by decide)
    have inside : ∀ l (w : Word l), .int l w ∈ [Value.null, largest, smallest] →
        IntKind.i8.Holds w.val := by
      intro l w hw
      simp only [List.mem_cons, List.not_mem_nil, or_false, reduceCtorEq, false_or, largest,
        smallest] at hw
      rcases hw with hw | hw
      · cases hw
        decide
      · cases hw
        decide
    obtain ⟨n, hn⟩ := taken.mpr inside
    obtain ⟨-, rows⟩ := reads n hn
    obtain ⟨first, hf, ⟨wider, -, -⟩⟩ := rows 1 (by decide) _ _ rfl
    obtain ⟨x, hx, plain, -⟩ := wider .i8 (by decide)
    obtain ⟨second, hs, ⟨wider', -, -⟩⟩ := rows 2 (by decide) _ _ rfl
    obtain ⟨y, hy, -, option⟩ := wider' .i128 (by decide)
    obtain rfl : x = .wrap .i8 127 := Word.ext (hx.trans hf)
    obtain rfl : y = .wrap .i128 (-128) := Word.ext (hy.trans hs)
    exact ⟨n, hn, plain, option⟩
  · have integers : ∀ v ∈ [largest, .int .u8 (.wrap .u8 128)], v = .null ∨ ∃ l w, v = .int l w := by
      simp [largest]
    obtain ⟨taken, refused, -⟩ := integers_kept (k := .i8) integers (by decide)
    cases made : ofValues (.scalar (.int .i8)) [largest, .int .u8 (.wrap .u8 128)] with
    | error e =>
      obtain ⟨fault, rfl⟩ := refused e made
      exact ⟨fault, rfl⟩
    | ok n =>
      have inside := taken.mp ⟨n, made⟩ .u8 (.wrap .u8 128) (by simp)
      exact absurd inside (by decide)

end NativeVector
end TypedColumns
