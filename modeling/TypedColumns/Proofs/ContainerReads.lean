import TypedColumns.Proofs.Keys
import TypedColumns.Proofs.PlanBinding
import TypedColumns.Proofs.SpanErrors

/-!
Lists and maps, element by element. A row covers a span of the child rows, which its entry says
freely; the span is inside the child rows or refused, and inside it the elements are read in order
up to the first error.
-/
namespace TypedColumns

/-- What comes of `length` child rows from `offset` on, out of `count`, read in order by `f`. -/
inductive SpanRead {α : Type} (f : Nat → Result α) (row offset length count : Nat) :
    Result (List α) → Prop where
  | outside (h : count < offset + length) :
    SpanRead f row offset length count (.error (.native (.spanOutOfRange row offset length count)))
  | failed (h : offset + length ≤ count) {done : Nat} (more : done < length) {items : List α}
    (before : List.Forall₂ (fun child x => f child = .ok x) (List.range' offset done) items)
    {e : Error} (first : f (offset + done) = .error e) :
    SpanRead f row offset length count (.error e)
  | whole (h : offset + length ≤ count) {items : List α}
    (each : List.Forall₂ (fun child x => f child = .ok x) (List.range' offset length) items) :
    SpanRead f row offset length count (.ok items)

theorem Binder.mapChildren_spanRead {α : Type} {view : ColumnView} {row : Nat} {size? : Option Nat}
    {offset length : Nat} (entry : entryOf view row size? = .ok (offset, length)) (count : Nat)
    (f : Nat → Result α) :
    SpanRead f row offset length count (mapChildren view row size? count f) := by
  unfold mapChildren childSpan
  rw [entry]
  simp only [Result.ok_bind]
  by_cases inside : offset + length ≤ count
  · rw [if_pos inside, Result.ok_bind]
    simp only [mapSpan, Nat.add_sub_cancel_left]
    cases run : (List.range' offset length).mapM f with
    | ok items => exact .whole inside (Result.mapM_eq_ok.mp run)
    | error e =>
      obtain ⟨before, child, after, items, split, done, first⟩ := Result.mapM_first_error run
      obtain ⟨n, -, rfl, rest⟩ := List.range'_eq_append_iff.mp split
      obtain ⟨rfl, more, -⟩ := List.range'_eq_cons_iff.mp rest.symm
      rw [Nat.mul_one] at first
      exact .failed inside (Nat.lt_of_sub_pos more) done first
  · rw [if_neg inside, Result.error_bind]
    exact .outside (Nat.lt_of_not_le inside)

theorem SpanRead.eq_of_outside {α : Type} {f : Nat → Result α} {row offset length count : Nat}
    {items : Result (List α)} (h : SpanRead f row offset length count items)
    (outside : count < offset + length) :
    items = .error (.native (.spanOutOfRange row offset length count)) := by
  cases h with
  | outside _ => rfl
  | failed inside => omega
  | whole inside => omega

/-- The child rows that a row covers: those of its entry, or as many as each row of an ARRAY has. -/
inductive ColumnView.Spans (view : ColumnView) (row : Nat) : (offset length : Nat) → Prop where
  | entry {e : ListEntry} (kind : view.column.kind ≠ .array) (h : view.native.entry? row = some e) :
    Spans view row e.offset.val.toNat e.length.val.toNat
  | array {part : LogicalType} {size : Nat} (type : view.column.type = .array part size) :
    Spans view row (row * size) size

/-- `conv` reads `view` as `t`, as the plan of its column does that `resolve` makes. A missing row
is an error about that row and about `t`, unless `t` has a value for it. -/
structure Converter.ReadsAs {e : Target} (conv : Converter e) (view : ColumnView) (t : Target)
    (resolve : Column → Result (Converter e)) : Prop where
  resolved : ∃ plan, resolve view.column = .ok plan ∧ plan.prepare view = .ok conv
  null : ∀ row < view.rows, view.native.bit? row = some false → conv.convert view row true =
    if t.isNullable then .ok e.missing else .error (.nullViolation row t)

/-- Each row of `view` that holds a value is read by `f` from the child rows that it covers, out of
`count`, whatever the policy for missing rows is; `R` says what the items make. -/
def Converter.ReadsSpans {α : Type} {d : Target} (conv : Converter d) (view : ColumnView)
    (count : Nat) (f : Nat → Result α) (R : List α → d.Host → Prop) : Prop :=
  ∀ row < view.rows, view.native.bit? row = some true → ∃ offset length,
    view.Spans row offset length ∧ (view.column.kind = .array → offset + length ≤ count) ∧
    ∀ require, (∃ items, SpanRead f row offset length count items ∧
        Result.Rel R items (conv.convert view row require)) ∧
      (conv.convert view row require = .error (.native (.spanOutOfRange row offset length count)) ↔
        count < offset + length) ∧
      conv.tryConvert view row = (conv.convert view row require).map some

/-- Rows of a LIST or ARRAY are read from the elements that they cover, each of them as `t`. -/
def Converter.ReadsElements {e d : Target} (conv : Converter d) (view : ColumnView) (t : Target)
    (resolve : Column → Result (Converter e)) (R : List e.Host → d.Host → Prop) : Prop :=
  ∃ (children : ColumnView) (element : Converter e),
    (view.listChildren = .ok children ∨ view.arrayChildren = .ok children) ∧
    element.ReadsAs children t resolve ∧
    conv.ReadsSpans view children.rows (fun child => element.convert children child true) R

/-- Rows of a MAP are read from the entries that they cover, of each entry the key and then the
value. -/
def Converter.ReadsEntries {a b d : Target} (conv : Converter d) (view : ColumnView) (k v : Target)
    (resolveKey : Column → Result (Converter a)) (resolveValue : Column → Result (Converter b))
    (R : List (a.Host × b.Host) → d.Host → Prop) : Prop :=
  ∃ (entries keys contents : ColumnView) (key : Converter a) (content : Converter b),
    view.listChildren = .ok entries ∧ entries.member 0 = .ok keys ∧
    entries.member 1 = .ok contents ∧
    key.ReadsAs keys k resolveKey ∧ content.ReadsAs contents v resolveValue ∧
    conv.ReadsSpans view entries.rows (fun entry => do
      let x ← key.convert keys entry true
      let y ← content.convert contents entry true
      return (x, y)) R

namespace Converter

variable {d e : Target} {view : ColumnView} {t : Target}

theorem readsAs_of_plan {plan conv : Converter e} (h : plan.IsPlan view.column.type t)
    {resolve : Column → Result (Converter e)} (resolved : resolve view.column = .ok plan)
    (prepared : plan.prepare view = .ok conv) : conv.ReadsAs view t resolve := by
  refine ⟨⟨plan, resolved, prepared⟩, ?_⟩
  intro row hr hb
  obtain ⟨read, -, rfl⟩ := prepare_eq_ok prepared
  rw [convert_closed (plan.withReader read) h.kind h.storage rfl rfl hr]
  simp only [NativeVector.whenPresent, hb, withReader, h.target, h.policy]
  cases t.isNullable <;> rfl

end Converter

namespace ColumnView

variable {view : ColumnView}

/-- In a vector that keeps its contract every row covers child rows. -/
theorem spans_entry (sound : view.Sound) (width : view.column.storage.slotWidth? = some 16)
    (kind : view.column.kind ≠ .array) {row : Nat} (hr : row < view.rows) : ∃ offset length,
      Binder.entryOf view row none = .ok (offset, length) ∧ view.Spans row offset length := by
  rw [Column.storage, ← sound.type] at width
  obtain ⟨entry, he⟩ := sound.native.entry_readable width (Nat.lt_of_lt_of_le hr sound.covered)
  refine ⟨_, _, ?_, .entry kind he⟩
  simp [Binder.entryOf, entryAt, he, loaded]

/-- The rows of an ARRAY cover child rows that there are. -/
theorem spans_array {part : LogicalType} {size : Nat} (ht : view.column.type = .array part size)
    {children : ColumnView} (hc : view.arrayChildren = .ok children) {row : Nat}
    (hr : row < view.rows) : Binder.entryOf view row (some size) = .ok (row * size, size) ∧
      row * size + size ≤ children.rows := by
  obtain ⟨rows, small⟩ := arrayChildren_rows ht hc
  rw [rows]
  exact Binder.entryOf_array view hr small

theorem spans_elements (sound : view.Sound) {part : LogicalType}
    (hp : view.column.type.element? = some part) {children : ColumnView}
    (hc : Binder.elements view view.column.type.size? = .ok children) {row : Nat}
    (hr : row < view.rows) : ∃ offset length,
      Binder.entryOf view row view.column.type.size? = .ok (offset, length) ∧
        view.Spans row offset length ∧
        (view.column.kind = .array → offset + length ≤ children.rows) := by
  cases ht : view.column.type with
  | list child =>
    have kind : view.column.kind ≠ .array := by simp [Column.kind, ht, LogicalType.kind]
    have width : view.column.storage.slotWidth? = some 16 := by rw [Column.storage, ht]; rfl
    obtain ⟨offset, length, entry, covered⟩ := spans_entry sound width kind hr
    exact ⟨offset, length, entry, covered, fun array => absurd array kind⟩
  | array child size =>
    rw [ht] at hc
    obtain ⟨entry, inside⟩ := spans_array ht hc hr
    exact ⟨row * size, size, entry, .array ht, fun _ => inside⟩
  | _ => rw [ht] at hp; cases hp

end ColumnView

namespace Converter

variable {d e : Target} {view : ColumnView} {t : Target}

/-- A bound reader that maps child rows reads spans. -/
theorem readsSpans {α : Type} {plan : Converter d} (shaped : plan.Shaped view.column.type)
    {read : Reader d.Host} (prepared : plan.prepare view = .ok (plan.withReader read))
    {size? : Option Nat} {count : Nat} {f : Nat → Result α} {finish : List α → d.Host}
    {R : List α → d.Host → Prop} (made : ∀ items, R items (finish items))
    (hread : ∀ row, read view row = (Binder.mapChildren view row size? count f).map finish)
    (covers : ∀ row < view.rows, ∃ offset length,
      Binder.entryOf view row size? = .ok (offset, length) ∧ view.Spans row offset length ∧
        (view.column.kind = .array → offset + length ≤ count)) :
    (plan.withReader read).ReadsSpans view count f R := by
  intro row hr hb
  obtain ⟨offset, length, entry, covered, array⟩ := covers row hr
  have spans := Binder.mapChildren_spanRead entry count f
  refine ⟨offset, length, covered, array, fun require => ?_⟩
  have source : plan.checkSource view = .ok () :=
    checkSource_of_eq shaped.source.kind shaped.source.storage rfl
  have valid := ColumnView.isValid_of_bit hr hb
  have tries := tryConvert_valid source read valid
  have reads := convert_valid source read valid require
  refine ⟨⟨_, spans, ?_⟩, ⟨?_, ?_⟩, by rw [tries, reads]⟩
  · rw [reads, hread]
    cases Binder.mapChildren view row size? count f with
    | ok items => exact .ok (made items)
    | error e => exact .error e
  · intro refused
    exact convert_prepared_trueOfSpan shaped.source shaped.shape.trueOfSpans prepared view row
      require _ refused row offset length count rfl
  · intro outside
    rw [reads, hread, spans.eq_of_outside outside]
    rfl

/-- A bound LIST or ARRAY reads elements. -/
theorem readsElements (sound : view.Sound) {part : LogicalType}
    (hp : view.column.type.element? = some part) {element : Converter e}
    (he : element.IsPlan part t)
    {resolve : Column → Result (Converter e)}
    (hres : ∀ column : Column, column.type = part → resolve column = .ok element)
    {plan conv : Converter d} (shaped : plan.Shaped view.column.type)
    {finish : List e.Host → d.Host} {R : List e.Host → d.Host → Prop}
    (made : ∀ items, R items (finish items))
    (hb : plan.reading = .unbound (Binder.list element view.column.type.size? finish))
    (prepared : plan.prepare view = .ok conv) :
    conv.ReadsElements view t resolve R := by
  obtain ⟨read, bound, rfl⟩ := prepare_eq_ok prepared
  rw [hb] at bound
  obtain ⟨children, elementConv, hc, elementPrepared, rfl⟩ := Binder.list_eq_ok bound
  obtain rfl := ColumnView.elements_type hp hc
  refine ⟨children, elementConv, ?_, readsAs_of_plan he (hres _ rfl) elementPrepared,
    readsSpans shaped prepared made (fun row => by rw [Result.map_eq_bind]; rfl)
      fun row => ColumnView.spans_elements sound hp hc⟩
  cases hs : view.column.type.size? with
  | none => exact .inl (by rwa [hs] at hc)
  | some size => exact .inr (by rwa [hs] at hc)

/-- A bound MAP reads entries. -/
theorem readsEntries {a b k v : Target} (sound : view.Sound) {keyType contentType : LogicalType}
    (ht : view.column.type = .map keyType contentType) {key : Converter a} {content : Converter b}
    (hk : key.IsPlan keyType k) (hv : content.IsPlan contentType v)
    {resolveKey : Column → Result (Converter a)} {resolveValue : Column → Result (Converter b)}
    (resKey : ∀ column : Column, column.type = keyType → resolveKey column = .ok key)
    (resValue : ∀ column : Column, column.type = contentType → resolveValue column = .ok content)
    {plan conv : Converter d} (shaped : plan.Shaped view.column.type)
    {finish : List (a.Host × b.Host) → d.Host} {R : List (a.Host × b.Host) → d.Host → Prop}
    (made : ∀ items, R items (finish items))
    (hb : plan.reading = .unbound (Binder.map key content finish))
    (prepared : plan.prepare view = .ok conv) :
    conv.ReadsEntries view k v resolveKey resolveValue R := by
  obtain ⟨read, bound, rfl⟩ := prepare_eq_ok prepared
  rw [hb] at bound
  obtain ⟨entries, keys, contents, keyConv, contentConv, he, hkeys, hcontents, keyPrepared,
    contentPrepared, rfl⟩ := Binder.map_eq_ok bound
  have entry := ColumnView.entries_type ht he
  have keyOpens := ColumnView.opens_of_step (s := .member 0) hkeys
  have contentOpens := ColumnView.opens_of_step (s := .member 1) hcontents
  obtain rfl : keys.column.type = keyType := keyOpens.column_type (by rw [entry]; rfl)
  obtain rfl : contents.column.type = contentType := contentOpens.column_type (by rw [entry]; rfl)
  have rows : entries.rows = keys.rows := keyOpens.rows.symm
  refine ⟨entries, keys, contents, keyConv, contentConv, he, hkeys, hcontents,
    readsAs_of_plan hk (resKey _ rfl) keyPrepared,
    readsAs_of_plan hv (resValue _ rfl) contentPrepared, ?_⟩
  rw [rows]
  have pairs (row : Nat) := Result.map_eq_bind
    (Binder.mapChildren view row none keys.rows fun entry => do
      let x ← keyConv.convert keys entry true
      let y ← contentConv.convert contents entry true
      return (x, y)) finish
  apply readsSpans shaped prepared made fun row => (pairs row).symm
  intro row hr
  have kind : view.column.kind ≠ .array := by simp [Column.kind, ht, LogicalType.kind]
  have width : view.column.storage.slotWidth? = some 16 := by rw [Column.storage, ht]; rfl
  obtain ⟨offset, length, entry, covered⟩ := ColumnView.spans_entry sound width kind hr
  exact ⟨offset, length, entry, covered, fun array => absurd array kind⟩

end Converter

namespace LogicalType

variable {type part : LogicalType}

theorem element?_of_kind (h : type.check = .ok ()) (hk : type.kind = .list ∨ type.kind = .array) :
    ∃ part, type.element? = some part := by
  cases type with
  | scalar kind => rcases hk with rfl | rfl <;> simp [check] at h
  | list child => exact ⟨child, rfl⟩
  | array child size => exact ⟨child, rfl⟩
  | _ => simp [kind] at hk

theorem map_of_kind (h : type.check = .ok ()) (hk : type.kind = .map) :
    ∃ key value, type = map key value := by
  cases type with
  | scalar kind =>
    obtain rfl : kind = .map := hk
    simp [check] at h
  | map key value => exact ⟨key, value, rfl⟩
  | _ => simp [kind] at hk

theorem listPlan_reading (hp : type.element? = some part) {c d : Target} (element : Converter c)
    (finish : List c.Host → d.Host) : ∃ plan, listPlan type element finish = .ok plan ∧
      plan.reading = .unbound (Binder.list element type.size? finish) := by
  cases type with
  | list child => exact ⟨_, rfl, rfl⟩
  | array child size => exact ⟨_, rfl, rfl⟩
  | _ => cases hp

end LogicalType

namespace Column

variable {c : Column} {t : Target}

theorem resolve_accepted (ha : c.type.accepts t) :
    c.resolve t = LogicalType.typedPlan t c.type := by
  have hc : c.checkTarget t = .ok () := if_pos ha
  rw [resolve, hc, Result.ok_bind]

theorem resolveVariant_accepted (ha : c.type.accepts t) :
    c.resolveVariant t = LogicalType.variantPlan t c.type := by
  have hc : c.checkTarget t = .ok () := if_pos ha
  rw [resolveVariant, hc, Result.ok_bind]

end Column

/-- The view's column has a plan if it accepts `t`. The plan can be prepared for the view exactly if
each child below has the rows that the rows above it need, and then has `P`. -/
def ColumnView.Prepares {d : Target} (view : ColumnView) (t : Target)
    (resolve : Column → Result (Converter d)) (P : Converter d → Prop) : Prop :=
  view.column.type.accepts t → ∃ plan, resolve view.column = .ok plan ∧
    ((plan.prepare view).isOk ↔ view.native.Covers view.column.type view.rows) ∧
    ∀ conv, plan.prepare view = .ok conv → P conv

namespace ColumnView

open LogicalType

variable {view : ColumnView}

theorem accepts_element {type part : LogicalType} {t : Target} (h : type.check = .ok ())
    (hp : type.element? = some part) (ha : type.accepts (.list t)) : part.accepts t := by
  rcases elements_of_accepts_list h ha with ⟨child, he, -, hac⟩ | ⟨rfl, -⟩
  · obtain rfl : child = part := Option.some.inj (he.symm.trans hp)
    exact hac
  · cases hp

section

variable (sound : view.Sound) {part : LogicalType} (hp : view.column.type.element? = some part)
  (t : Target)
include sound hp

/-- Plans known in advance that read sequences. -/
theorem prepares_typed {d : Target} (finish : List t.Host → d.Host)
    (same : view.column.type.accepts d = view.column.type.accepts (.list t))
    (hd : typedPlan d view.column.type = (do
      listPlan (d := d) view.column.type (← typedPlan t part) finish)) :
    view.Prepares d (·.resolve d) fun conv =>
      conv.ReadsElements view t (·.resolve t) fun items x => x = finish items := by
  intro ha
  have hpart := accepts_element view.column.valid hp (same ▸ ha)
  obtain ⟨element, he, isPlan⟩ := typedPlan_isPlan (check_element view.column.valid hp) hpart
  obtain ⟨plan, hm, reading⟩ := listPlan_reading hp element finish
  have resolved : view.column.resolve d = .ok plan := by
    rw [Column.resolve_accepted ha, hd, he, Result.ok_bind, hm]
  have shaped := (Column.Resolves.typed resolved).shaped
  refine ⟨plan, resolved, shaped.isOk_prepare sound, fun conv prepared => ?_⟩
  exact Converter.readsElements sound hp isPlan
    (fun column hc => by rw [Column.resolve_accepted (hc ▸ hpart), hc, he])
    shaped (fun _ => rfl) reading prepared

/-- Plans chosen at run time that read sequences. -/
theorem prepares_variant {d : Target}
    (same : view.column.type.accepts d = view.column.type.accepts (.list t))
    (hd : variantPlan d view.column.type = (do
      let plan : Converter Target.value ←
        listPlan view.column.type (← variantPlan t part) Value.list
      return plan.retarget d)) :
    view.Prepares d (·.resolveVariant d) fun conv =>
      conv.ReadsElements view t (·.resolveVariant t) fun items x => x = Value.list items := by
  intro ha
  have hpart := accepts_element view.column.valid hp (same ▸ ha)
  obtain ⟨element, he, isPlan⟩ := variantPlan_isPlan (check_element view.column.valid hp) hpart
  obtain ⟨plan, hm, reading⟩ := listPlan_reading (d := .value) hp element Value.list
  have resolved : view.column.resolveVariant d = .ok (plan.retarget d) := by
    rw [Column.resolveVariant_accepted ha, hd, he, Result.ok_bind, hm]
    rfl
  have shaped := (Column.Resolves.variant resolved).shaped
  refine ⟨plan.retarget d, resolved, shaped.isOk_prepare sound, fun conv prepared => ?_⟩
  exact Converter.readsElements sound hp isPlan
    (fun column hc => by rw [Column.resolveVariant_accepted (hc ▸ hpart), hc, he])
    shaped (fun _ => rfl) reading prepared

end

section

variable (sound : view.Sound) {key content : LogicalType}
  (ht : view.column.type = .map key content)
include sound ht

theorem prepares_map {k : Target} (hk : k.isKey) (v : Target) :
    view.Prepares (.map k v) (·.resolve (.map k v)) fun conv =>
      conv.ReadsEntries view k v (·.resolve k) (·.resolve v) Target.KeepsLast := by
  intro accepted
  have ha := accepted
  have valid := view.column.valid
  rw [ht] at ha valid
  obtain ⟨_, _, ⟨⟩, hak, hav⟩ := map_of_accepts valid ha
  obtain ⟨keys, hkeys, keyPlan⟩ := typedPlan_isPlan (check_map_left valid) hak
  obtain ⟨contents, hcontents, contentPlan⟩ := typedPlan_isPlan (check_map_right valid) hav
  have resolved : view.column.resolve (.map k v) =
      .ok (mapPlan (.map key content) keys contents Target.distinctKeys) := by
    rw [Column.resolve_accepted accepted, ht]
    simp [typedPlan, hkeys, hcontents]
  have shaped := (Column.Resolves.typed resolved).shaped
  refine ⟨_, resolved, shaped.isOk_prepare sound, fun conv prepared => ?_⟩
  exact Converter.readsEntries sound ht keyPlan contentPlan
    (fun column hc => by rw [Column.resolve_accepted (hc ▸ hak), hc, hkeys])
    (fun column hc => by rw [Column.resolve_accepted (hc ▸ hav), hc, hcontents])
    shaped (Target.distinctKeys_keepsLast hk) rfl prepared

theorem prepares_pairs : view.Prepares .pairs (·.resolve .pairs) fun conv =>
    conv.ReadsEntries view .value .value (·.resolveBoxed) (·.resolveBoxed)
      fun pairs x => x = pairs := by
  intro accepted
  have valid := view.column.valid
  rw [ht] at valid
  obtain ⟨keys, hkeys, keyPlan⟩ := boxedPlan_isPlan (check_map_left valid)
  obtain ⟨contents, hcontents, contentPlan⟩ := boxedPlan_isPlan (check_map_right valid)
  have resolved : view.column.resolve .pairs =
      .ok (mapPlan (d := .pairs) (.map key content) keys contents id) := by
    rw [Column.resolve_accepted accepted, ht]
    simp [typedPlan, hkeys, hcontents]
  have shaped := (Column.Resolves.typed resolved).shaped
  refine ⟨_, resolved, shaped.isOk_prepare sound, fun conv prepared => ?_⟩
  exact Converter.readsEntries sound ht keyPlan contentPlan
    (fun column hc => by rw [Column.resolveBoxed, hc, hkeys])
    (fun column hc => by rw [Column.resolveBoxed, hc, hcontents])
    shaped (fun _ => rfl) rfl prepared

theorem prepares_variantMap (k v : Target) :
    view.Prepares (.map k v) (·.resolveVariant (.map k v)) fun conv =>
      conv.ReadsEntries view k v (·.resolveVariant k) (·.resolveVariant v)
        fun pairs x => x = Value.map pairs := by
  intro accepted
  have ha := accepted
  have valid := view.column.valid
  rw [ht] at ha valid
  obtain ⟨_, _, ⟨⟩, hak, hav⟩ := map_of_accepts valid ha
  obtain ⟨keys, hkeys, keyPlan⟩ := variantPlan_isPlan (check_map_left valid) hak
  obtain ⟨contents, hcontents, contentPlan⟩ := variantPlan_isPlan (check_map_right valid) hav
  have resolved : view.column.resolveVariant (.map k v) =
      .ok ((mapPlan (d := .value) (.map key content) keys contents Value.map).retarget
        (.map k v)) := by
    rw [Column.resolveVariant_accepted accepted, ht]
    simp [variantPlan, hkeys, hcontents]
  have shaped := (Column.Resolves.variant resolved).shaped
  refine ⟨_, resolved, shaped.isOk_prepare sound, fun conv prepared => ?_⟩
  exact Converter.readsEntries sound ht keyPlan contentPlan
    (fun column hc => by rw [Column.resolveVariant_accepted (hc ▸ hak), hc, hkeys])
    (fun column hc => by rw [Column.resolveVariant_accepted (hc ▸ hav), hc, hcontents])
    shaped (fun _ => rfl) rfl prepared

end

/-- Lists and maps of any elements are read by the spans that the rows cover, whatever the entries
in a vector that keeps its memory contract are. There is a plan for every target that the column
accepts, and it can be prepared exactly if the children have enough rows. A row that covers rows
past the child rows is refused, and no other row is for its span; the others are read element by
element, in order and up to the first error, where elements that are missing need a target that has
a value for them. A map known in advance keeps each key with its last value, the other maps keep
every pair. -/
theorem container_reads (sound : view.Sound) :
    (view.column.kind = .list ∨ view.column.kind = .array → ∀ t : Target,
      (view.Prepares (.list t) (·.resolve (.list t)) fun conv =>
        conv.ReadsElements view t (·.resolve t) fun items x => x = items) ∧
      (view.Prepares (.fixedList t) (·.resolve (.fixedList t)) fun conv =>
        conv.ReadsElements view t (·.resolve t) fun items x => x = items) ∧
      (view.Prepares (.list t) (·.resolveVariant (.list t)) fun conv =>
        conv.ReadsElements view t (·.resolveVariant t) fun items x => x = Value.list items) ∧
      (view.Prepares (.fixedList t) (·.resolveVariant (.fixedList t)) fun conv =>
        conv.ReadsElements view t (·.resolveVariant t) fun items x => x = Value.list items)) ∧
    (view.column.kind = .map →
      (∀ k v : Target, k.isKey → view.Prepares (.map k v) (·.resolve (.map k v)) fun conv =>
        conv.ReadsEntries view k v (·.resolve k) (·.resolve v) Target.KeepsLast) ∧
      (view.Prepares .pairs (·.resolve .pairs) fun conv =>
        conv.ReadsEntries view .value .value (·.resolveBoxed) (·.resolveBoxed)
          fun pairs x => x = pairs) ∧
      (∀ k v : Target, view.Prepares (.map k v) (·.resolveVariant (.map k v)) fun conv =>
        conv.ReadsEntries view k v (·.resolveVariant k) (·.resolveVariant v)
          fun pairs x => x = Value.map pairs)) := by
  constructor
  · intro hk t
    obtain ⟨part, hp⟩ := element?_of_kind view.column.valid hk
    exact ⟨prepares_typed sound hp t id rfl (typedPlan_list hp),
      prepares_typed (d := .fixedList t) sound hp t id rfl (typedPlan_fixedList hp),
      prepares_variant sound hp t rfl (variantPlan_list hp),
      prepares_variant sound hp t rfl (variantPlan_fixedList hp)⟩
  · intro hk
    obtain ⟨key, content, ht⟩ := map_of_kind view.column.valid hk
    exact ⟨fun k v hkey => prepares_map sound ht hkey v, prepares_pairs sound ht,
      prepares_variantMap sound ht⟩

/-- A LIST of booleans with a missing element. Its entries overlap, and one of them starts at the
last 64-bit number. -/
theorem container_reads_wild_entries :
    let child : NativeVector := ⟨.scalar .boolean, 2, #[0, 1], some #[2], #[], [], 0⟩
    let entries : List ListEntry :=
      [⟨0, .wrap .u64 2⟩, ⟨.wrap .u64 1, .wrap .u64 1⟩, ⟨.wrap .u64 (2 ^ 64 - 1), .wrap .u64 2⟩]
    let native : NativeVector := ⟨.list (.scalar .boolean), 3,
      (entries.map ListEntry.toBytes).flatten.toArray, none, #[], [child], 2⟩
    let view : ColumnView := ⟨⟨.list (.scalar .boolean), rfl⟩, 3, native, []⟩
    let read (row : Nat) : Result (List Bool) := do
      let plan ← view.column.resolve (.list .bool)
      let conv ← plan.prepare view
      conv.convert view row false
    view.Sound ∧
      (∃ plan conv, view.column.resolve (.list .bool) = .ok plan ∧ plan.prepare view = .ok conv ∧
        conv.ReadsElements view .bool (·.resolve .bool) fun items x => x = items) ∧
      read 0 = .error (.nullViolation 0 .bool) ∧ read 1 = .ok [true] ∧
      read 2 = .error (.native (.spanOutOfRange 2 (2 ^ 64 - 1) 2 2)) := by
  intro child entries native view read
  have soundChild : child.Sound := by
    refine .intro (by decide) ?_ ?_ nofun rfl nofun
    · rintro width ⟨⟩
      decide
    · rintro bitmap ⟨⟩
      decide
  have soundNative : native.Sound := by
    refine .intro (show 3 < sizeModulus by decide) ?_ nofun nofun rfl ?_
    · rintro width ⟨⟩
      simp [native, entries, ListEntry.toBytes, IntKind.bytes]
    · intro c hc
      obtain rfl := List.mem_singleton.mp hc
      exact soundChild
  have sound : view.Sound := ⟨soundNative, rfl, Nat.le_refl 3⟩
  have reads : read 0 = .error (.nullViolation 0 .bool) ∧ read 1 = .ok [true] ∧
      read 2 = .error (.native (.spanOutOfRange 2 (2 ^ 64 - 1) 2 2)) := by
    subst read view native entries child
    refine ⟨?_, ?_, ?_⟩ <;> rfl
  obtain ⟨plan, resolved, ready, elements⟩ := ((container_reads sound).1 (.inl rfl) .bool).1 rfl
  obtain ⟨conv, prepared⟩ := Result.isOk_iff.mp (ready.mpr ⟨child, rfl, Nat.le_refl 2, trivial⟩)
  exact ⟨sound, ⟨plan, conv, resolved, prepared, elements conv prepared⟩, reads⟩

end ColumnView
end TypedColumns
