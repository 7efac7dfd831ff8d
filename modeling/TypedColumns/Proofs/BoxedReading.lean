import TypedColumns.Proofs.Binding
import TypedColumns.Proofs.DirectReading
import TypedColumns.Proofs.Resolution

/-!
The plans for boxed values read what the direct recursion over the vectors reads. Binding a plan
succeeds exactly when every child has the rows that the rows above need, and fails with a fault of
the vectors otherwise.
-/
namespace TypedColumns

namespace ColumnView

theorem firstRows_of_le {native : NativeVector} {rows : Nat} (h : rows ≤ native.rows)
    (column : Column) (path : List ViewStep) :
    firstRows native column rows path = .ok ⟨column, rows, native, path⟩ :=
  if_neg (Nat.not_lt.mpr h)

theorem firstRows_of_lt {native : NativeVector} {rows : Nat} (h : native.rows < rows)
    (column : Column) (path : List ViewStep) :
    firstRows native column rows path =
      .error (.native (.tooFewRows column.kind native.rows rows)) :=
  if_pos h

variable {view : ColumnView}

theorem listChildren_list {child : LogicalType} {c : NativeVector}
    (hc : view.column.type = .list child) (ht : view.native.type = .list child)
    (hv : view.native.children = [c]) :
    ∃ column : Column, column.type = child ∧
      view.listChildren = firstRows c column view.native.childRows (view.path ++ [.list]) := by
  obtain ⟨⟨type, valid⟩, rows, native, path⟩ := view
  subst hc
  refine ⟨⟨child, valid⟩, rfl, ?_⟩
  simp only at ht hv
  simp [listChildren, NativeVector.listChild, NativeVector.kind, ht, hv, LogicalType.kind,
    Column.child]

theorem listChildren_map {key content : LogicalType} {entries : NativeVector}
    (hc : view.column.type = .map key content) (ht : view.native.type = .map key content)
    (hv : view.native.children = [entries]) :
    ∃ column : Column, column.type = .entry key content ∧
      view.listChildren = firstRows entries column view.native.childRows (view.path ++ [.list]) := by
  obtain ⟨⟨type, valid⟩, rows, native, path⟩ := view
  subst hc
  refine ⟨⟨_, LogicalType.check_entry valid⟩, rfl, ?_⟩
  simp only at ht hv
  simp [listChildren, NativeVector.listChild, NativeVector.kind, ht, hv, LogicalType.kind,
    Column.child]

theorem arrayChildren_array {child : LogicalType} {size : Nat} {c : NativeVector}
    (hc : view.column.type = .array child size) (ht : view.native.type = .array child size)
    (hv : view.native.children = [c]) :
    ∃ column : Column, column.type = child ∧
      view.arrayChildren =
        if sizeModulus ≤ view.rows * size then .error (.native (.arrayOverflow view.rows size))
        else firstRows c column (view.rows * size) (view.path ++ [.array]) := by
  obtain ⟨⟨type, valid⟩, rows, native, path⟩ := view
  subst hc
  refine ⟨⟨child, by rwa [LogicalType.check_array] at valid⟩, rfl, ?_⟩
  simp only at ht hv
  simp [arrayChildren, Column.arraySize?, NativeVector.arrayChild, NativeVector.kind, ht, hv,
    LogicalType.kind, Column.child]

end ColumnView

theorem Column.types_members (c : Column) : c.members.map Column.type = c.type.memberTypes := by
  simp [members]

theorem ColumnView.member_eq (view : ColumnView) {index : Nat} {type : LogicalType}
    {c : NativeVector} (hk : view.column.kind = .struct ∨ view.column.kind = .union)
    (hn : view.native.kind = .struct ∨ view.native.kind = .union)
    (ht : view.column.type.memberTypes[index]? = some type)
    (hv : view.native.children[index]? = some c) :
    ∃ column : Column, column.type = type ∧
      view.member index = firstRows c column view.rows (view.path ++ [.member index]) := by
  rw [← Column.types_members, List.getElem?_map, Option.map_eq_some_iff] at ht
  obtain ⟨column, hm, hct⟩ := ht
  refine ⟨column, hct, ?_⟩
  have hcol : view.column.member index = .ok column := by
    unfold Column.member
    rcases hk with hk | hk <;> rw [hk] <;> simp only [hm]
  have hnat : view.native.member index = .ok c := by
    unfold NativeVector.member
    rcases hn with hn | hn <;> rw [hn] <;> simp only [hv]
  simp [ColumnView.member, hcol, hnat]

/-- The first of the members from `index` on, and those after it. -/
theorem ColumnView.member_of_drop (view : ColumnView) {index : Nat} {m : String × LogicalType}
    {members : List (String × LogicalType)} {v : NativeVector} {vectors : List NativeVector}
    (hk : view.column.kind = .struct ∨ view.column.kind = .union)
    (hn : view.native.kind = .struct ∨ view.native.kind = .union)
    (ht : view.column.type.memberTypes.drop index = (m :: members).map Prod.snd)
    (hv : view.native.children.drop index = v :: vectors) :
    (∃ column : Column, column.type = m.2 ∧
      view.member index = firstRows v column view.rows (view.path ++ [.member index])) ∧
    view.column.type.memberTypes.drop (index + 1) = members.map Prod.snd ∧
    view.native.children.drop (index + 1) = vectors := by
  have type : view.column.type.memberTypes[index]? = some m.2 := by
    rw [← List.head?_drop, ht]
    rfl
  have vector : view.native.children[index]? = some v := by
    rw [← List.head?_drop, hv]
    rfl
  refine ⟨member_eq view hk hn type vector, ?_, ?_⟩
  · rw [← List.tail_drop, ht]
    rfl
  · rw [← List.tail_drop, hv]
    rfl

/-- The keys and values of the entries of a MAP. -/
theorem ColumnView.member_entry {key content : LogicalType} {column : Column}
    {entries k w : NativeVector} (rows : Nat) (path : List ViewStep)
    (hc : column.type = .entry key content) (ht : entries.type = .entry key content)
    (hv : entries.children = [k, w]) :
    (∃ keyColumn : Column, keyColumn.type = key ∧
      member ⟨column, rows, entries, path⟩ 0 = firstRows k keyColumn rows (path ++ [.member 0])) ∧
    (∃ contentColumn : Column, contentColumn.type = content ∧
      member ⟨column, rows, entries, path⟩ 1 =
        firstRows w contentColumn rows (path ++ [.member 1])) := by
  have hck : column.kind = .struct := by rw [Column.kind, hc]; rfl
  have hnk : entries.kind = .struct := by rw [NativeVector.kind, ht]; rfl
  have htypes : column.type.memberTypes = [key, content] := by rw [hc]; rfl
  constructor
  · exact member_eq ⟨column, rows, entries, path⟩ (.inl hck) (.inl hnk)
      (by simp only [htypes]; rfl) (by simp only [hv]; rfl)
  · exact member_eq ⟨column, rows, entries, path⟩ (.inl hck) (.inl hnk)
      (by simp only [htypes]; rfl) (by simp only [hv]; rfl)

namespace Converter

variable {type : LogicalType} {plan : Converter Target.value} {view : ColumnView}

theorem checkSource_of_eq {c : Target} {plan : Converter c} (hk : plan.kind = type.kind)
    (hs : plan.storage = type.storage) (hc : view.column.type = type) :
    plan.checkSource view = .ok () := by
  unfold checkSource
  rw [hk, hs]
  exact if_pos ⟨congrArg LogicalType.kind hc, congrArg LogicalType.storage hc⟩

/-- A closed converter reads the rows that hold a value; for the others the null policy decides. -/
theorem convert_closed {c : Target} (plan : Converter c) (hk : plan.kind = type.kind)
    (hs : plan.storage = type.storage) {read : Reader c.Host} (hr : plan.reading = .closed read)
    (hc : view.column.type = type) {row : Nat} (h : row < view.rows) (require : Bool) :
    plan.convert view row require = view.native.whenPresent row (read view row)
      (if require && !plan.defaultIsInvalid then .error (.nullViolation row plan.target)
        else .ok c.missing) := by
  have valid := ColumnView.isValid_inside h
  unfold convert tryConvert NativeVector.whenPresent
  rw [hr]
  simp only [checkSource_of_eq hk hs hc, valid, Result.ok_bind]
  cases ColumnView.loaded (view.native.bit? row) with
  | error e => rfl
  | ok b =>
    cases b with
    | false => rfl
    | true =>
      simp only [Result.ok_bind, if_true]
      cases read view row <;> rfl

/-- For boxed values a missing row is null, whether or not a value is required. -/
theorem convert_boxed (plan : Converter Target.value) (hk : plan.kind = type.kind)
    (hs : plan.storage = type.storage) (policy : plan.defaultIsInvalid = true)
    {read : Reader Value} (hr : plan.reading = .closed read) (hc : view.column.type = type)
    {row : Nat} (h : row < view.rows) (require : Bool) :
    plan.convert view row require =
      view.native.whenPresent row (read view row) (.ok .null) := by
  rw [convert_closed plan hk hs hr hc h, policy, Bool.not_true, Bool.and_false]
  rfl

/-- Preparing an unbound plan binds it. -/
theorem prepare_unbound (hp : plan.IsPlan type .value) {bind : Binder Value}
    (hb : plan.reading = .unbound bind) (hc : view.column.type = type) :
    plan.prepare view = (bind view).map fun read => { plan with reading := .closed read } := by
  have unbound : plan.isBound = false := by
    unfold isBound
    rw [hb]
  unfold prepare bindTo
  rw [unbound, hb]
  simp only [checkSource_of_eq hp.kind hp.storage hc, Result.ok_bind]
  cases bind view <;> rfl

/-- A plan for the boxed values of `type`. Where all children have enough rows it reads what the
direct recursion reads, elsewhere preparing it fails with a fault of the vectors. -/
structure Computes (type : LogicalType) (plan : Converter Target.value) : Prop where
  prepares (view : ColumnView) : view.column.type = type → view.native.HasType type →
    view.native.Covers type view.rows → ∃ conv, plan.prepare view = .ok conv ∧
      ∀ row < view.rows, ∀ require, conv.convert view row require = view.native.read type row
  refuses (view : ColumnView) : view.column.type = type → view.native.HasType type →
    ¬ view.native.Covers type view.rows → ∃ fault, plan.prepare view = .error (.native fault)

theorem Computes.of_binder (hp : plan.IsPlan type .value) {bind : Binder Value}
    (hb : plan.reading = .unbound bind)
    (binds : ∀ view : ColumnView, view.column.type = type → view.native.HasType type →
      view.native.Covers type view.rows → ∃ read, bind view = .ok read ∧
        ∀ row < view.rows, read view row = view.native.readPresent type row)
    (refuses : ∀ view : ColumnView, view.column.type = type → view.native.HasType type →
      ¬ view.native.Covers type view.rows → ∃ fault, bind view = .error (.native fault)) :
    Computes type plan := by
  constructor
  · intro view hc ht hcov
    obtain ⟨read, hread, direct⟩ := binds view hc ht hcov
    refine ⟨{ plan with reading := .closed read }, ?_, ?_⟩
    · rw [prepare_unbound hp hb hc, hread, Result.map_ok]
    · intro row hrow require
      -- Binding changes nothing but the reading.
      have closed := convert_boxed { plan with reading := .closed read } hp.kind hp.storage
        hp.policy rfl hc hrow require
      rw [closed, direct row hrow]
      rfl
  · intro view hc ht hcov
    obtain ⟨fault, hf⟩ := refuses view hc ht hcov
    exact ⟨fault, by rw [prepare_unbound hp hb hc, hf, Result.map_error]⟩

end Converter

namespace Binder

variable {α : Type} {f g : Nat → Result α}

/-- Only the rows of the child matter. -/
theorem mapChildren_congr (view : ColumnView) (row : Nat) (size? : Option Nat) {childRows : Nat}
    (h : ∀ j < childRows, f j = g j) :
    mapChildren view row size? childRows f = mapChildren view row size? childRows g := by
  unfold mapChildren childSpan
  cases entryOf view row size? with
  | error e => rfl
  | ok entry =>
    obtain ⟨offset, length⟩ := entry
    by_cases inside : offset + length ≤ childRows
    · simp only [Result.ok_bind, inside, if_true]
      apply Result.mapM_congr
      intro j hj
      rw [List.mem_range'_1] at hj
      exact h j (by omega)
    · simp only [Result.ok_bind, inside, if_false, Result.error_bind]

theorem mapChildren_entry (view : ColumnView) (row : Nat) :
    mapChildren view row none view.native.childRows f =
      view.native.entryRows row >>= fun rows => rows.mapM f := by
  unfold mapChildren childSpan entryOf NativeVector.entryRows ColumnView.entryAt
  cases ColumnView.loaded (view.native.entry? row) with
  | error e => rfl
  | ok entry =>
    simp only [Result.map_ok, Result.ok_bind]
    by_cases inside : entry.offset.val.toNat + entry.length.val.toNat ≤ view.native.childRows
    · simp only [inside, if_true, Result.ok_bind, mapSpan, Nat.add_sub_cancel_left]
    · simp only [inside, if_false, Result.error_bind]

theorem mapChildren_array (view : ColumnView) {row rows size : Nat} (hrow : row < rows)
    (hsize : rows * size < sizeModulus) :
    mapChildren view row (some size) (rows * size) f =
      (List.range' (row * size) size).mapM f := by
  obtain ⟨entry, last⟩ := entryOf_array view hrow hsize
  unfold mapChildren childSpan
  simp only [entry, Result.ok_bind, last, if_true, mapSpan, Nat.add_sub_cancel_left]

end Binder

/-- The boxed reader of a slot depends on the column and the vector alone. -/
theorem Reader.boxed?_eq_leafAt {type : LogicalType} {read : Reader Value}
    (hr : Reader.boxed? type = some read) {view : ColumnView} (hc : view.column.type = type)
    (row : Nat) : read view row = view.native.leafAt type row := by
  obtain ⟨⟨type', valid⟩, rows, native, path⟩ := view
  obtain rfl : type' = type := hc
  unfold NativeVector.leafAt
  simp only [Column.ofType_of_check valid, hr, Result.ok_bind]
  cases type' with
  | scalar kind => cases kind <;> cases hr <;> rfl
  | decimal width scale => cases hr; rfl
  | enum dictionary => cases hr; rfl
  | _ => cases hr

namespace Converter.Computes

variable {type : LogicalType} {plan : Converter Target.value}

open NativeVector

theorem leaf (leaf : type.kind.isNested = false) {read : Reader Value}
    (hr : Reader.boxed? type = some read) :
    Computes type (Converter.ofReading (c := .value) type (.closed read) false) := by
  constructor
  · intro view hc _ _
    refine ⟨_, rfl, ?_⟩
    intro row hrow require
    rw [convert_boxed _ rfl rfl rfl rfl hc hrow require, Reader.boxed?_eq_leafAt hr hc]
    unfold NativeVector.read
    rw [readPresent_leaf leaf]
  · intro view _ _ hcov
    exact absurd (covers_leaf leaf view.native view.rows) hcov

/-- A plan on the first `rows` rows of a child. -/
theorem child (h : Computes type plan) {v : NativeVector} (ht : v.HasType type) {column : Column}
    (hc : column.type = type) (rows : Nat) (path : List ViewStep) :
    (rows ≤ v.rows ∧ v.Covers type rows → ∃ conv,
      ColumnView.firstRows v column rows path = .ok ⟨column, rows, v, path⟩ ∧
      plan.prepare ⟨column, rows, v, path⟩ = .ok conv ∧
      ∀ row < rows, ∀ require,
        conv.convert ⟨column, rows, v, path⟩ row require = v.read type row) ∧
    (¬ (rows ≤ v.rows ∧ v.Covers type rows) → ∃ fault,
      (ColumnView.firstRows v column rows path >>= plan.prepare) = .error (.native fault)) := by
  constructor
  · rintro ⟨hrows, hcov⟩
    obtain ⟨conv, hconv, direct⟩ := h.prepares ⟨column, rows, v, path⟩ hc ht hcov
    exact ⟨conv, ColumnView.firstRows_of_le hrows column path, hconv, direct⟩
  · intro hcov
    by_cases hrows : rows ≤ v.rows
    · obtain ⟨fault, hf⟩ := h.refuses ⟨column, rows, v, path⟩ hc ht fun hv => hcov ⟨hrows, hv⟩
      exact ⟨fault, by rw [ColumnView.firstRows_of_le hrows, Result.ok_bind, hf]⟩
    · exact ⟨_, by rw [ColumnView.firstRows_of_lt (Nat.lt_of_not_le hrows), Result.error_bind]⟩

/-- Binding a LIST or ARRAY, once it is known which rows of which child hold the elements. -/
theorem bind_elements {view : ColumnView} {size? : Option Nat} {v : NativeVector} {column : Column}
    {rows : Nat} {path : List ViewStep} (h : Computes type plan) (ht : v.HasType type)
    (hc : column.type = type)
    (helements : Binder.elements view size? = ColumnView.firstRows v column rows path) :
    (rows ≤ v.rows ∧ v.Covers type rows → ∃ bound,
      Binder.list plan size? Value.list view = .ok bound ∧
      ∀ row, bound view row = do
        return .list (← Binder.mapChildren view row size? rows (v.read type))) ∧
    (¬ (rows ≤ v.rows ∧ v.Covers type rows) → ∃ fault,
      Binder.list plan size? Value.list view = .error (.native fault)) := by
  obtain ⟨binds, refuses⟩ := h.child ht hc rows path
  constructor
  · intro hcov
    obtain ⟨conv, hrows, hconv, direct⟩ := binds hcov
    have bound : Binder.list plan size? Value.list view = .ok fun view row => do
        return .list (← Binder.mapChildren view row size? rows fun j =>
          conv.convert ⟨column, rows, v, path⟩ j true) := by
      unfold Binder.list
      rw [helements, hrows, Result.ok_bind, hconv]
      rfl
    refine ⟨_, bound, ?_⟩
    intro row
    rw [Binder.mapChildren_congr view row size? fun j hj => direct j hj true]
  · intro hcov
    obtain ⟨fault, hf⟩ := refuses hcov
    refine ⟨fault, ?_⟩
    unfold Binder.list
    rw [helements]
    exact Result.bind_bind_error hf

theorem list (h : Computes type plan) :
    Computes (.list type) (Converter.ofReading (c := .value) (.list type)
      (.unbound (Binder.list plan none Value.list)) false) := by
  apply of_binder (.of_unbound (c := .value) rfl _) rfl
  · intro view hc ht hcov
    obtain ⟨htype, c, hv, hchild⟩ := ht
    obtain ⟨c', hv', hcov⟩ := hcov
    obtain rfl : c = c' := by simpa [hv] using hv'
    obtain ⟨column, hcolumn, helements⟩ := ColumnView.listChildren_list hc htype hv
    change Binder.elements view none = _ at helements
    obtain ⟨bound, hbound, direct⟩ := (h.bind_elements hchild hcolumn helements).1 hcov
    refine ⟨bound, hbound, ?_⟩
    intro row _
    rw [direct, Binder.mapChildren_entry, readPresent, hv]
    simp only [bind_assoc]
    rfl
  · intro view hc ht hcov
    obtain ⟨htype, c, hv, hchild⟩ := ht
    obtain ⟨column, hcolumn, helements⟩ := ColumnView.listChildren_list hc htype hv
    change Binder.elements view none = _ at helements
    exact (h.bind_elements hchild hcolumn helements).2 fun hc => hcov ⟨c, hv, hc⟩

theorem array (h : Computes type plan) (size : Nat) :
    Computes (.array type size) (Converter.ofReading (c := .value) (.array type size)
      (.unbound (Binder.list plan (some size) Value.list)) false) := by
  apply of_binder (.of_unbound (c := .value) rfl _) rfl
  · intro view hc ht hcov
    obtain ⟨htype, c, hv, hchild⟩ := ht
    obtain ⟨hsize, c', hv', hcov⟩ := hcov
    obtain rfl : c = c' := by simpa [hv] using hv'
    obtain ⟨column, hcolumn, helements⟩ := ColumnView.arrayChildren_array hc htype hv
    change Binder.elements view (some size) = _ at helements
    rw [if_neg (Nat.not_le.mpr hsize)] at helements
    obtain ⟨bound, hbound, direct⟩ := (h.bind_elements hchild hcolumn helements).1 hcov
    refine ⟨bound, hbound, ?_⟩
    intro row hrow
    rw [direct, Binder.mapChildren_array view hrow hsize, readPresent, hv]
    rfl
  · intro view hc ht hcov
    obtain ⟨htype, c, hv, hchild⟩ := ht
    obtain ⟨column, hcolumn, helements⟩ := ColumnView.arrayChildren_array hc htype hv
    change Binder.elements view (some size) = _ at helements
    by_cases hsize : sizeModulus ≤ view.rows * size
    · rw [if_pos hsize] at helements
      refine ⟨.arrayOverflow view.rows size, ?_⟩
      unfold Binder.list
      rw [helements]
      rfl
    · rw [if_neg hsize] at helements
      exact (h.bind_elements hchild hcolumn helements).2 fun hc =>
        hcov ⟨Nat.lt_of_not_le hsize, c, hv, hc⟩

/-- Binding the members from `index` on. -/
theorem bind_members {members : List (String × LogicalType)} {plans : List (Converter Target.value)}
    (h : List.Forall₂ (fun m plan => Computes m.2 plan) members plans) {view : ColumnView}
    (hk : view.column.kind = .struct ∨ view.column.kind = .union)
    (hn : view.native.kind = .struct ∨ view.native.kind = .union)
    {vectors : List NativeVector} {index : Nat} (ht : HaveTypes members vectors)
    (hc : view.column.type.memberTypes.drop index = members.map Prod.snd)
    (hv : view.native.children.drop index = vectors) :
    (CoverAll members vectors view.rows → ∃ bound,
      Binder.members view index plans = .ok bound ∧
      ∀ row < view.rows,
        bound.map (fun b => b.1.convert b.2 row false) = readMembers members vectors row) ∧
    (¬ CoverAll members vectors view.rows → ∃ fault,
      Binder.members view index plans = .error (.native fault)) := by
  induction h generalizing vectors index with
  | nil =>
    cases vectors with
    | nil => exact ⟨fun _ => ⟨[], rfl, fun _ _ => rfl⟩, fun hcov => absurd trivial hcov⟩
    | cons v vectors => exact ht.elim
  | @cons m plan members plans first others ih =>
    cases vectors with
    | nil => exact ht.elim
    | cons v vectors =>
      obtain ⟨hfirst, hothers⟩ := ht
      obtain ⟨⟨column, hcolumn, hmember⟩, htypes, hvectors⟩ :=
        ColumnView.member_of_drop view hk hn hc hv
      obtain ⟨binds, refuses⟩ :=
        first.child hfirst hcolumn view.rows (view.path ++ [.member index])
      obtain ⟨bindsOthers, refusesOthers⟩ := ih hothers htypes hvectors
      constructor
      · rintro ⟨hcov, hcovOthers⟩
        obtain ⟨conv, hrows, hconv, direct⟩ := binds hcov
        obtain ⟨bound, hbound, directOthers⟩ := bindsOthers hcovOthers
        refine ⟨(conv, ⟨column, view.rows, v, view.path ++ [.member index]⟩) :: bound, ?_, ?_⟩
        · simp [Binder.members, hmember, hrows, hconv, hbound]
        · intro row hrow
          rw [List.map_cons, direct row hrow, directOthers row hrow]
          rfl
      · intro hcov
        by_cases hfirst : view.rows ≤ v.rows ∧ v.Covers m.2 view.rows
        · obtain ⟨conv, hrows, hconv, -⟩ := binds hfirst
          obtain ⟨fault, hf⟩ := refusesOthers fun hothers => hcov ⟨hfirst, hothers⟩
          exact ⟨fault, by simp [Binder.members, hmember, hrows, hconv, hf]⟩
        · obtain ⟨fault, hf⟩ := refuses hfirst
          rw [← hmember] at hf
          exact ⟨fault, by rw [Binder.members]; exact Result.bind_bind_error hf⟩

theorem struct {members : List (String × LogicalType)} {plans : List (Converter Target.value)}
    (h : List.Forall₂ (fun m plan => Computes m.2 plan) members plans) :
    Computes (.struct members) ((LogicalType.structPlan (.struct members) plans).map (d := .value)
      fun s => .ok (.struct s)) := by
  have bind {view : ColumnView} (hc : view.column.type = .struct members)
      (ht : view.native.HasType (.struct members)) := by
    have hk : view.column.kind = .struct := by rw [Column.kind, hc]; rfl
    have hn : view.native.kind = .struct := by rw [NativeVector.kind, ht.1]; rfl
    have htypes : view.column.type.memberTypes.drop 0 = members.map Prod.snd := by rw [hc]; rfl
    exact bind_members h (.inl hk) (.inl hn) ht.2 htypes rfl
  apply of_binder (.map (.of_unbound rfl _) _) rfl
  · intro view hc ht hcov
    obtain ⟨bound, hbound, direct⟩ := (bind hc ht).1 hcov
    refine ⟨_, by simp only [Binder.struct, hbound]; rfl, ?_⟩
    intro row hrow
    rw [readPresent, ← direct row hrow]
    simp only [Reader.map, bind_assoc, List.mapM_map]
    rfl
  · intro view hc ht hcov
    obtain ⟨fault, hf⟩ := (bind hc ht).2 hcov
    exact ⟨fault, by simp only [Binder.struct, hf]; rfl⟩

/-- Binding a MAP, once it is known which rows of which child hold the entries. -/
theorem bind_entries {key content : LogicalType} {keys contents : Converter Target.value}
    (hk : Computes key keys) (hw : Computes content contents) {view : ColumnView}
    {entries k w : NativeVector} {column : Column} {rows : Nat} {path : List ViewStep}
    (hc : column.type = .entry key content) (ht : entries.type = .entry key content)
    (hv : entries.children = [k, w]) (htk : k.HasType key) (htw : w.HasType content)
    (helements : view.listChildren = ColumnView.firstRows entries column rows path) :
    (rows ≤ entries.rows ∧ (rows ≤ k.rows ∧ k.Covers key rows) ∧
        rows ≤ w.rows ∧ w.Covers content rows → ∃ bound,
      Binder.map keys contents (id : List (Value × Value) → _) view = .ok bound ∧
      ∀ row, bound view row = Binder.mapChildren view row none rows fun j => do
        return (← k.read key j, ← w.read content j)) ∧
    (¬ (rows ≤ entries.rows ∧ (rows ≤ k.rows ∧ k.Covers key rows) ∧
        rows ≤ w.rows ∧ w.Covers content rows) → ∃ fault,
      Binder.map keys contents (id : List (Value × Value) → _) view = .error (.native fault)) := by
  obtain ⟨⟨keyColumn, hkc, hkm⟩, contentColumn, hwc, hwm⟩ :=
    ColumnView.member_entry rows path hc ht hv
  by_cases hrows : rows ≤ entries.rows
  · rw [ColumnView.firstRows_of_le hrows] at helements
    constructor
    · rintro ⟨-, hcovk, hcovw⟩
      obtain ⟨keyConv, hkr, hkp, directKey⟩ := (hk.child htk hkc rows (path ++ [.member 0])).1 hcovk
      obtain ⟨conv, hwr, hwp, direct⟩ := (hw.child htw hwc rows (path ++ [.member 1])).1 hcovw
      have bound : Binder.map keys contents (id : List (Value × Value) → _) view =
          .ok (fun view row => (Binder.mapChildren view row none rows fun j => (do
            let a ← keyConv.convert ⟨keyColumn, rows, k, path ++ [.member 0]⟩ j true
            let b ← conv.convert ⟨contentColumn, rows, w, path ++ [.member 1]⟩ j true
            return (a, b))) >>= pure) := by
        unfold Binder.map
        simp only [helements, hkm, hwm, hkr, hwr, hkp, hwp, Result.ok_bind]
        rfl
      refine ⟨_, bound, ?_⟩
      intro row
      simp only [bind_pure]
      apply Binder.mapChildren_congr
      intro j hj
      rw [directKey j hj, direct j hj]
    · intro hcov
      by_cases hkr : rows ≤ k.rows
      · rw [ColumnView.firstRows_of_le hkr] at hkm
        by_cases hwr : rows ≤ w.rows
        · rw [ColumnView.firstRows_of_le hwr] at hwm
          -- The children are long enough, so one of them has a child that is not.
          by_cases hcovk : k.Covers key rows
          · obtain ⟨keyConv, hkp, -⟩ := hk.prepares ⟨keyColumn, rows, k, path ++ [.member 0]⟩ hkc htk
              hcovk
            obtain ⟨fault, hf⟩ := hw.refuses ⟨contentColumn, rows, w, path ++ [.member 1]⟩ hwc htw
              fun hcovw => hcov ⟨hrows, ⟨hkr, hcovk⟩, hwr, hcovw⟩
            exact ⟨fault, by simp [Binder.map, helements, hkm, hwm, hkp, hf]⟩
          · obtain ⟨fault, hf⟩ := hk.refuses ⟨keyColumn, rows, k, path ++ [.member 0]⟩ hkc htk hcovk
            exact ⟨fault, by simp [Binder.map, helements, hkm, hwm, hf]⟩
        · rw [ColumnView.firstRows_of_lt (Nat.lt_of_not_le hwr)] at hwm
          exact ⟨_, by simp only [Binder.map, helements, hkm, hwm, Result.ok_bind]; rfl⟩
      · rw [ColumnView.firstRows_of_lt (Nat.lt_of_not_le hkr)] at hkm
        exact ⟨_, by simp only [Binder.map, helements, hkm, Result.ok_bind]; rfl⟩
  · rw [ColumnView.firstRows_of_lt (Nat.lt_of_not_le hrows)] at helements
    refine ⟨fun hcov => absurd hcov.1 hrows, fun _ => ?_⟩
    exact ⟨.tooFewRows column.kind entries.rows rows, by rw [Binder.map, helements]; rfl⟩

theorem map {key content : LogicalType} {keys contents : Converter Target.value}
    (hk : Computes key keys) (hw : Computes content contents) :
    Computes (.map key content)
      ((LogicalType.mapPlan (d := .pairs) (.map key content) keys contents id).map (d := .value)
        fun entries => .ok (.map entries)) := by
  apply of_binder (.map (.of_unbound (c := .pairs) rfl _) _) rfl
  · intro view hc ht hcov
    obtain ⟨htype, entries, k, w, hv, hentry, hchildren, htk, htw⟩ := ht
    obtain ⟨entries', k', w', hv', hchildren', hcov⟩ := hcov
    obtain rfl : entries = entries' := by simpa [hv] using hv'
    obtain ⟨rfl, rfl⟩ : k = k' ∧ w = w' := by simpa [hchildren] using hchildren'
    obtain ⟨column, hcolumn, helements⟩ := ColumnView.listChildren_map hc htype hv
    obtain ⟨bound, hbound, direct⟩ :=
      (bind_entries hk hw hcolumn hentry hchildren htk htw helements).1 hcov
    refine ⟨_, by rw [hbound]; rfl, ?_⟩
    intro row _
    rw [Reader.map, direct, Binder.mapChildren_entry, readPresent, hv]
    simp only [List.map_cons, List.map_nil, hchildren, bind_assoc]
    rfl
  · intro view hc ht hcov
    obtain ⟨htype, entries, k, w, hv, hentry, hchildren, htk, htw⟩ := ht
    obtain ⟨column, hcolumn, helements⟩ := ColumnView.listChildren_map hc htype hv
    obtain ⟨fault, hf⟩ := (bind_entries hk hw hcolumn hentry hchildren htk htw helements).2
      fun h => hcov ⟨entries, k, w, hv, hchildren, h⟩
    exact ⟨fault, by rw [hf]; rfl⟩

/-- The reader of tags. -/
theorem convert_tag (view : ColumnView) (hc : view.column.type = .scalar (.int .u8)) {row : Nat}
    (hrow : row < view.rows) :
    (LogicalType.tagPlan.convert view row true).map (fun n => n.val.toNat) =
      view.native.tagAt row := by
  rw [convert_closed LogicalType.tagPlan rfl rfl rfl hc hrow]
  unfold NativeVector.tagAt whenPresent Reader.widened ColumnView.intAt
  cases ColumnView.loaded (view.native.bit? row) with
  | error e => rfl
  | ok b =>
    cases b with
    | false => rfl
    | true =>
      simp only [Result.ok_bind, if_true]
      show Except.map _ (Except.map _ (Except.map _ (ColumnView.loaded (view.native.slot? 1 row)))) = _
      cases ColumnView.loaded (view.native.slot? 1 row) with
      | error e => rfl
      | ok bytes =>
        simp only [Result.map_ok, Word.widen]
        rw [Word.wrap_val_of_holds (Word.ofBytes .u8 bytes).holds]

theorem length_readMembers {members : List (String × LogicalType)} {vectors : List NativeVector}
    (h : HaveTypes members vectors) (row : Nat) :
    (readMembers members vectors row).length = members.length := by
  induction members generalizing vectors with
  | nil =>
    cases vectors with
    | nil => rfl
    | cons v vectors => exact h.elim
  | cons m members ih =>
    cases vectors with
    | nil => exact h.elim
    | cons v vectors => exact congrArg Nat.succ (ih h.2)

theorem union {alternatives : List (String × LogicalType)} {plans : List (Converter Target.value)}
    (h : List.Forall₂ (fun m plan => Computes m.2 plan) alternatives plans) :
    Computes (.union alternatives) (Converter.ofReading (c := .value) (.union alternatives)
      (.unbound (Binder.union LogicalType.tagPlan plans)) true) := by
  have bind {view : ColumnView} {tags : NativeVector} {vectors : List NativeVector}
      (hc : view.column.type = .union alternatives) (ht : view.native.type = .union alternatives)
      (hv : view.native.children = tags :: vectors) (htypes : HaveTypes alternatives vectors) := by
    have hk : view.column.kind = .union := by rw [Column.kind, hc]; rfl
    have hn : view.native.kind = .union := by rw [NativeVector.kind, ht]; rfl
    have hmembers : view.column.type.memberTypes.drop 1 = alternatives.map Prod.snd := by
      rw [hc]; rfl
    have hvectors : view.native.children.drop 1 = vectors := by rw [hv]; rfl
    have htag : view.column.type.memberTypes[0]? = some (.scalar (.int .u8)) := by rw [hc]; rfl
    have htags : view.native.children[0]? = some tags := by rw [hv]; rfl
    exact And.intro (ColumnView.member_eq view (.inr hk) (.inr hn) htag htags)
      (bind_members h (.inr hk) (.inr hn) htypes hmembers hvectors)
  apply of_binder ⟨rfl, rfl, rfl, rfl, rfl⟩ rfl
  · intro view hc ht hcov
    obtain ⟨htype, tags, vectors, hv, htag, htypes⟩ := ht
    obtain ⟨tags', vectors', hv', hrows, hcov⟩ := hcov
    obtain ⟨rfl, rfl⟩ : tags = tags' ∧ vectors = vectors' := by simpa [hv] using hv'
    obtain ⟨⟨column, hcolumn, hmember⟩, binds, -⟩ := bind hc htype hv htypes
    obtain ⟨bound, hbound, direct⟩ := binds hcov
    rw [ColumnView.firstRows_of_le hrows] at hmember
    refine ⟨_, by simp only [Binder.union, hmember, hbound, Result.ok_bind]; rfl, ?_⟩
    intro row hrow
    have htagAt := convert_tag ⟨column, view.rows, tags, view.path ++ [.member 0]⟩ hcolumn hrow
    have hlength : bound.length = alternatives.length := by
      rw [← length_readMembers htypes row, ← direct row hrow, List.length_map]
    rw [readPresent, hv]
    simp only
    rw [← direct row hrow, ← htagAt]
    cases LogicalType.tagPlan.convert ⟨column, view.rows, tags, view.path ++ [.member 0]⟩ row
        true with
    | error e => rfl
    | ok n =>
      simp only [Result.map_ok, Result.ok_bind, List.getElem?_map, hlength]
      cases bound[n.val.toNat]? <;> rfl
  · intro view hc ht hcov
    obtain ⟨htype, tags, vectors, hv, htag, htypes⟩ := ht
    obtain ⟨⟨column, hcolumn, hmember⟩, -, refuses⟩ := bind hc htype hv htypes
    by_cases hrows : view.rows ≤ tags.rows
    · rw [ColumnView.firstRows_of_le hrows] at hmember
      obtain ⟨fault, hf⟩ := refuses fun h => hcov ⟨tags, vectors, hv, hrows, h⟩
      exact ⟨fault, by simp [Binder.union, hmember, hf]⟩
    · rw [ColumnView.firstRows_of_lt (Nat.lt_of_not_le hrows)] at hmember
      exact ⟨_, by simp only [Binder.union, hmember]; rfl⟩

end Converter.Computes

open Converter

/-- Every well-formed type has a plan for its boxed values, and it computes what the direct recursion
does. -/
theorem LogicalType.boxedPlan_computes {type : LogicalType} (h : type.check = .ok ()) :
    ∃ plan, boxedPlan type = .ok plan ∧ Computes type plan := by
  induction type using induction_on_members with
  | scalar kind =>
    have leaf : (scalar kind).kind.isNested = false := check_scalar_nested h
    obtain ⟨read, hr⟩ := boxed?_isSome h leaf
    exact ⟨_, boxedPlan_leaf leaf hr, .leaf leaf hr⟩
  | decimal width scale => exact ⟨_, boxedPlan_leaf rfl rfl, .leaf rfl rfl⟩
  | enum dictionary => exact ⟨_, boxedPlan_leaf rfl rfl, .leaf rfl rfl⟩
  | list child ih =>
    obtain ⟨plan, hp, computes⟩ := ih h
    exact ⟨_, boxedPlan_list hp, computes.list⟩
  | array child size ih =>
    obtain ⟨plan, hp, computes⟩ := ih h
    exact ⟨_, boxedPlan_array hp, computes.array size⟩
  | struct members ih =>
    obtain ⟨plans, hps, computes⟩ := boxedPlans_forall₂ (P := Computes) fun m hm =>
      ih m hm (checkAll_of_mem h hm)
    exact ⟨_, boxedPlan_struct hps, .struct computes⟩
  | map key content ihk ihv =>
    obtain ⟨keys, hk, computesKeys⟩ := ihk (check_map_left h)
    obtain ⟨contents, hv, computesContents⟩ := ihv (check_map_right h)
    exact ⟨_, boxedPlan_map hk hv, computesKeys.map computesContents⟩
  | union alternatives ih =>
    obtain ⟨plans, hps, computes⟩ := boxedPlans_forall₂ (P := Computes) fun m hm =>
      ih m hm (checkAll_of_mem (checkAll_of_check_union h) hm)
    exact ⟨_, boxedPlan_union hps, .union computes⟩

/-- Boxed reading of a vector whose children have the declared types. The plan of the column can be
prepared exactly when each child has the rows that the rows above need; otherwise the fault is one
of the vectors. Once prepared it reads every row as the direct recursion does, faults included. -/
theorem ColumnView.boxed_reading (view : ColumnView)
    (h : view.native.HasType view.column.type) :
    ∃ plan, view.column.resolveBoxed = .ok plan ∧
      ((∃ conv, plan.prepare view = .ok conv) ↔ view.native.Covers view.column.type view.rows) ∧
      (∀ e, plan.prepare view = .error e → ∃ fault, e = .native fault) ∧
      (∀ conv, plan.prepare view = .ok conv → ∀ row < view.rows,
        conv.convert view row true = view.native.read view.column.type row) := by
  obtain ⟨plan, hp, computes⟩ := LogicalType.boxedPlan_computes view.column.valid
  refine ⟨plan, hp, ?_⟩
  by_cases hcov : view.native.Covers view.column.type view.rows
  · obtain ⟨conv, hconv, direct⟩ := computes.prepares view rfl h hcov
    refine ⟨⟨fun _ => hcov, fun _ => ⟨conv, hconv⟩⟩, ?_, ?_⟩
    · intro e he
      rw [hconv] at he
      contradiction
    · intro other ho row hrow
      obtain rfl : conv = other := by simpa [hconv] using ho
      exact direct row hrow true
  · obtain ⟨fault, hf⟩ := computes.refuses view rfl h hcov
    refine ⟨⟨?_, fun hc => absurd hc hcov⟩, ?_, ?_⟩
    · rintro ⟨conv, hconv⟩
      rw [hf] at hconv
      contradiction
    · intro e he
      rw [hf] at he
      cases he
      exact ⟨fault, rfl⟩
    · intro conv hconv
      rw [hf] at hconv
      contradiction

/-- A row of an ARRAY of two booleans. -/
theorem ColumnView.boxed_reading_two_booleans :
    let child : NativeVector := ⟨.scalar .boolean, 2, #[1, 0], none, #[], [], 0⟩
    let native : NativeVector := ⟨.array (.scalar .boolean) 2, 1, #[], none, #[], [child], 0⟩
    let view : ColumnView := ⟨⟨.array (.scalar .boolean) 2, rfl⟩, 1, native, []⟩
    view.native.HasType view.column.type ∧
      ∃ plan conv, view.column.resolveBoxed = .ok plan ∧ plan.prepare view = .ok conv ∧
        conv.convert view 0 true = .ok (.list [.boolean true, .boolean false]) := by
  intro child native view
  have ht : view.native.HasType view.column.type := ⟨rfl, child, rfl, rfl⟩
  have hcov : view.native.Covers view.column.type view.rows :=
    ⟨by decide, child, rfl, Nat.le_refl 2, trivial⟩
  obtain ⟨plan, hp, hprepares, -, hreads⟩ := boxed_reading view ht
  obtain ⟨conv, hconv⟩ := hprepares.mpr hcov
  refine ⟨ht, plan, conv, hp, hconv, ?_⟩
  rw [hreads conv hconv 0 Nat.one_pos]
  rfl

end TypedColumns
