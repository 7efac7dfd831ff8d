import TypedColumns.DataChunk
import TypedColumns.Proofs.Binding
import TypedColumns.Proofs.BoxedReading
import TypedColumns.Proofs.EncodedTrees
import TypedColumns.Proofs.Resolution

/-!
One row of a column of slots or payloads, from the value that is written to what the reads of it
give. A value is taken if it has a slot; the slot is a word, and every read decodes that word, or it
refers to a payload, and every read decodes the payload.
-/
namespace TypedColumns

/-- The row holds a value, and every read of it gives `answer`. -/
structure ColumnView.RowReads (view : ColumnView) (row : Nat) (t : Target)
    (answer : Result t.Host) : Prop where
  get : (Read.get t row).direct view = answer
  getOrDefault : (Read.getOrDefault t row).direct view = answer
  tryGet : (Read.tryGet t row).direct view = answer.map some
  getAs : (Read.getAs t row).direct view = answer.map t.toValue

/-- The row holds a value in every column over the vector, however many rows it has. -/
def NativeVector.RowReads (n : NativeVector) (row : Nat) (t : Target) (answer : Result t.Host) :
    Prop :=
  row < n.rows ∧ ∀ rows, row < rows → rows ≤ n.rows →
    ∃ view, ColumnView.ofNative n rows = .ok view ∧ view.RowReads row t answer

/-- The row of a column of `type` holds a value, and `bytes` are its slot. -/
structure NativeVector.HasBytes (n : NativeVector) (type : LogicalType) (row : Nat)
    (bytes : List UInt8) : Prop where
  valid : type.check = .ok ()
  typed : n.type = type
  inside : row < n.rows
  there : n.bit? row = some true
  slot : n.slot? bytes.length row = some bytes

/-- The row of a column of `type` holds a value, and its slot is the word `w`. -/
structure NativeVector.HasWord (n : NativeVector) (type : LogicalType) (row : Nat) {k : IntKind}
    (w : Word k) : Prop where
  valid : type.check = .ok ()
  typed : n.type = type
  inside : row < n.rows
  there : n.bit? row = some true
  slot : n.slot? k.bytes row = some w.toBytes

/-- The row of a column of `type` holds a value, and `payload` is what its slot refers to. -/
structure NativeVector.HoldsPayload (n : NativeVector) (type : LogicalType) (row : Nat)
    (payload : List UInt8) : Prop where
  valid : type.check = .ok ()
  typed : n.type = type
  inside : row < n.rows
  there : n.bit? row = some true
  stored : n.payload? row = some payload

/-- A row is read in one way. -/
theorem NativeVector.RowReads.unique {n : NativeVector} {row : Nat} {t : Target}
    {answer answer' : Result t.Host} (h : n.RowReads row t answer) (h' : n.RowReads row t answer') :
    answer = answer' := by
  obtain ⟨view, made, reads⟩ := h.2 n.rows h.1 (Nat.le_refl _)
  obtain ⟨view', made', reads'⟩ := h'.2 n.rows h.1 (Nat.le_refl _)
  obtain rfl : view = view' := Except.ok.inj (made.symm.trans made')
  exact reads.get.symm.trans reads'.get

theorem Read.direct_of_ok {view : ColumnView} {r : Read} {plan conv : Converter r.key.carrier}
    (resolved : r.key.resolve view.column = .ok plan) (prepared : plan.prepare view = .ok conv) :
    r.direct view = r.answer view conv := by
  rw [direct, resolved, Result.ok_bind, prepared, Result.ok_bind]

namespace ColumnView

variable {view : ColumnView} {row : Nat} {t : Target}

/-- Plans that read single slots give what their readers give. -/
theorem rowReads_of_closed (accepted : view.column.type.accepts t)
    (valid : view.isValid row = .ok true) {plan : Converter t} {variant : Converter Target.value}
    (typed : LogicalType.typedPlan t view.column.type = .ok plan)
    (boxed : LogicalType.variantPlan t view.column.type = .ok variant)
    (source : plan.checkSource view = .ok ()) (source' : variant.checkSource view = .ok ())
    {read : Reader t.Host} {read' : Reader Value} (closed : plan.withReader read = plan)
    (closed' : variant.withReader read' = variant) {answer : Result t.Host}
    (answers : read view row = answer) (answers' : read' view row = answer.map t.toValue) :
    view.RowReads row t answer := by
  have check : view.column.checkTarget t = .ok () := if_pos accepted
  have plain : view.column.resolve t = .ok plan := by
    rw [Column.resolve, check, Result.ok_bind, typed]
  have atRunTime : view.column.resolveVariant t = .ok variant := by
    rw [Column.resolveVariant, check, Result.ok_bind, boxed]
  have prepared : plan.prepare view = .ok plan := by
    rw [← closed]
    rfl
  have prepared' : variant.prepare view = .ok variant := by
    rw [← closed']
    rfl
  have convert (require : Bool) : plan.convert view row require = answer := by
    rw [← closed, Converter.convert_valid source read valid, answers]
  have tryConvert : plan.tryConvert view row = answer.map some := by
    rw [← closed, Converter.tryConvert_valid source read valid, answers]
  have convert' : variant.convert view row true = answer.map t.toValue := by
    rw [← closed', Converter.convert_valid source' read' valid, answers']
  exact ⟨(Read.direct_of_ok (r := .get t row) plain prepared).trans (convert true),
    (Read.direct_of_ok (r := .getOrDefault t row) plain prepared).trans (convert false),
    (Read.direct_of_ok (r := .tryGet t row) plain prepared).trans tryConvert,
    (Read.direct_of_ok (r := .getAs t row) atRunTime prepared').trans convert'⟩

/-- A plan whose boxed form is made from it gives what its reader gives, boxed too. -/
theorem rowReads_plain (accepted : view.column.type.accepts t) {read : Reader t.Host}
    (plan : LogicalType.typedPlan t view.column.type =
      .ok (.ofReading view.column.type (.closed read) false))
    (plain : LogicalType.variantPlan t view.column.type = LogicalType.boxedAs t view.column.type)
    (valid : view.isValid row = .ok true) {answer : Result t.Host}
    (answers : read view row = answer) : view.RowReads row t answer := by
  refine rowReads_of_closed accepted valid plan (by rw [plain, LogicalType.boxedAs, plan]; rfl)
    (Converter.checkSource_of_eq rfl rfl rfl) (Converter.checkSource_of_eq rfl rfl rfl) rfl rfl
    answers ?_
  show (read view row >>= fun x => .ok (t.toValue x)) = _
  rw [answers]
  cases answer <;> rfl

section Leaf

variable (leaf : t.isLeaf) {read : Reader t.Host}
  (reader : Reader.typed? view.column.type t = some read)
include leaf reader

theorem accepts_of_reader : view.column.type.accepts t := by
  rw [← LogicalType.typed?_isSome view.column.valid leaf, reader]
  rfl

theorem typedPlan_of_reader : LogicalType.typedPlan t view.column.type =
    .ok (.ofReading view.column.type (.closed read) false) := by
  rw [LogicalType.typedPlan_leaf view.column.type leaf, reader]

end Leaf

/-- A typed read of a leaf gives what its reader gives. -/
theorem rowReads_typed (leaf : t.isLeaf)
    (plain : LogicalType.variantPlan t view.column.type = LogicalType.boxedAs t view.column.type)
    {read : Reader t.Host} (reader : Reader.typed? view.column.type t = some read)
    (valid : view.isValid row = .ok true) {answer : Result t.Host}
    (answers : read view row = answer) : view.RowReads row t answer :=
  rowReads_plain (accepts_of_reader leaf reader) (typedPlan_of_reader leaf reader) plain valid
    answers

/-- An optional read of a leaf gives what its reader gives, wrapped. -/
theorem rowReads_optional (leaf : t.isLeaf)
    (plain : LogicalType.variantPlan t view.column.type = LogicalType.boxedAs t view.column.type)
    {read : Reader t.Host} (reader : Reader.typed? view.column.type t = some read)
    (valid : view.isValid row = .ok true) {answer : Result t.Host}
    (answers : read view row = answer) : view.RowReads row (.option t) (answer.map some) := by
  have accepted : view.column.type.accepts (.option t) := by
    rw [LogicalType.accepts]
    exact accepts_of_reader leaf reader
  have plan := typedPlan_of_reader leaf reader
  refine rowReads_of_closed accepted valid (LogicalType.typedPlan_option plan)
    (by rw [LogicalType.variantPlan, plain, LogicalType.boxedAs, plan]; rfl)
    (Converter.checkSource_of_eq rfl rfl rfl) (Converter.checkSource_of_eq rfl rfl rfl) rfl rfl
    ?_ ?_
  · show (read view row >>= fun x => .ok (some x)) = _
    rw [answers, Result.map_eq_bind]
  · show (read view row >>= fun x => .ok (t.toValue x)) = _
    rw [answers]
    cases answer <;> rfl

end ColumnView

/-- The caller is told that an argument is wrong. -/
def Error.IsArgument (e : Error) : Prop := ∃ fault, e = .argument fault

namespace LogicalType

open Result (FailsOnly)

variable (type : LogicalType) (v : Value)

theorem intSlot_isArgument (k : IntKind) (n : Int) :
    FailsOnly Error.IsArgument (type.intSlot k n v) := by
  unfold intSlot
  split
  · exact .ok _
  · exact .error ⟨_, rfl⟩

theorem intOf_isArgument : FailsOnly Error.IsArgument (type.intOf v) := by
  unfold intOf
  split
  · exact .ok _
  · exact .error ⟨_, rfl⟩

theorem mantissaOf_isArgument (scale : Nat) :
    FailsOnly Error.IsArgument (type.mantissaOf scale v) := by
  unfold mantissaOf
  split
  · split
    · exact .ok _
    · exact .error ⟨_, rfl⟩
  · exact .ok _
  · exact type.intOf_isArgument _

theorem codeOf_isArgument (dictionary : Array String) :
    FailsOnly Error.IsArgument (type.codeOf dictionary v) := by
  unfold codeOf
  split
  · split
    · exact .ok _
    · exact .error ⟨_, rfl⟩
  · exact type.intOf_isArgument v

theorem timestampSlot_isArgument (unit : TimestampUnit) :
    FailsOnly Error.IsArgument (type.timestampSlot unit v) := by
  unfold timestampSlot
  split
  · exact type.intSlot_isArgument _ _ _
  · exact type.intSlot_isArgument _ _ _
  · split
    · exact type.intSlot_isArgument _ _ _
    · exact .ok _
  · exact .error ⟨_, rfl⟩

/-- A value without a slot is a wrong argument, in a column without offsets. -/
theorem slotOf_isArgument (plain : type.kind ≠ .timeTz) :
    FailsOnly Error.IsArgument (type.slotOf v) := by
  cases type with
  | decimal width scale =>
    exact (mantissaOf_isArgument _ v scale).bind fun n _ => intSlot_isArgument _ v _ n
  | enum dictionary =>
    exact (codeOf_isArgument _ v dictionary).bind fun n _ => intSlot_isArgument _ v _ n
  | scalar kind =>
    unfold slotOf
    dsimp only
    split
    case h_6 => exact (intOf_isArgument _ _).bind fun n _ => intSlot_isArgument _ _ _ n
    case h_11 => exact absurd rfl plain
    case h_12 => exact timestampSlot_isArgument _ _ _
    case h_15 => exact .error ⟨_, rfl⟩
    all_goals exact .ok _
  | _ => exact .error ⟨_, rfl⟩

end LogicalType

namespace NativeVector

open LogicalType

variable {n : NativeVector} {type : LogicalType} {row : Nat} {k : IntKind} {w : Word k}

/-- Every column over the vector reads the row as it holds it. -/
theorem rowReads_of_views (valid : type.check = .ok ()) (typed : n.type = type)
    (inside : row < n.rows) (there : n.bit? row = some true) {t : Target} {answer : Result t.Host}
    (each : ∀ view : ColumnView, view.column.type = type → view.native = n →
      view.isValid row = .ok true → view.RowReads row t answer) : n.RowReads row t answer := by
  refine ⟨inside, fun rows below few => ⟨⟨⟨type, valid⟩, rows, n, []⟩, ?_,
    each _ rfl rfl (ColumnView.isValid_of_bit below there)⟩⟩
  rw [ColumnView.ofNative, typed, Column.ofType_of_check valid]
  exact ColumnView.firstRows_of_le few _ _

theorem HasBytes.rowReads {bytes : List UInt8} (h : n.HasBytes type row bytes) {t : Target}
    {answer : Result t.Host} (each : ∀ view : ColumnView, view.column.type = type →
      view.native = n → view.isValid row = .ok true → view.RowReads row t answer) :
    n.RowReads row t answer :=
  rowReads_of_views h.valid h.typed h.inside h.there each

/-- The boxed read of a row without children is what is found for it in the vector. -/
theorem reads_boxed_leaf (valid : type.check = .ok ()) (typed : n.type = type)
    (inside : row < n.rows) (there : n.bit? row = some true) (leaf : type.kind.isNested = false)
    {answer : Result Value} (found : n.leafAt type row = answer) : n.RowReads row .value answer := by
  obtain ⟨read, reader⟩ := boxed?_isSome valid leaf
  have plan : boxedPlan type = .ok (.ofReading type (.closed read) false) :=
    boxedPlan_leaf leaf reader
  refine rowReads_of_views valid typed inside there fun view hc hn holds => ?_
  subst hc hn
  have reads : read view row = answer := by
    rw [Reader.boxed?_eq_leafAt reader rfl, found]
  refine view.rowReads_of_closed (accepts_value valid) holds (t := .value)
    (by rw [typedPlan, plan]) (by rw [variantPlan, plan])
    (Converter.checkSource_of_eq rfl rfl rfl) (Converter.checkSource_of_eq rfl rfl rfl) rfl rfl
    reads ?_
  rw [reads]
  cases answer <;> rfl

namespace HoldsPayload

variable {payload : List UInt8}

theorem rowReads (h : n.HoldsPayload type row payload) {t : Target} {answer : Result t.Host}
    (each : ∀ view : ColumnView, view.column.type = type → view.isValid row = .ok true →
      view.payloadAt row = .ok payload → view.RowReads row t answer) : n.RowReads row t answer := by
  refine rowReads_of_views h.valid h.typed h.inside h.there fun view hc hn valid => ?_
  subst hn
  refine each view hc valid ?_
  rw [ColumnView.payloadAt, h.stored]
  rfl

/-- A typed read decodes the payload. -/
theorem reads_typed (h : n.HoldsPayload type row payload) {t : Target} (leaf : t.isLeaf)
    (plain : variantPlan t type = boxedAs t type) {read : Reader t.Host}
    (reader : Reader.typed? type t = some read) {answer : Result t.Host}
    (reads : ∀ view : ColumnView, view.payloadAt row = .ok payload → read view row = answer) :
    n.RowReads row t answer := by
  refine h.rowReads fun view hc valid stored => ?_
  subst hc
  exact view.rowReads_typed leaf plain reader valid (reads view stored)

/-- The boxed read decodes the payload. -/
theorem reads_boxed (h : n.HoldsPayload type row payload) (leaf : type.kind.isNested = false)
    {decode : List UInt8 → Result Value} (reads : ∀ (v : NativeVector) row,
      v.leafAt type row = ColumnView.loaded (v.payload? row) >>= decode) :
    n.RowReads row .value (decode payload) := by
  refine reads_boxed_leaf h.valid h.typed h.inside h.there leaf ?_
  rw [reads, h.stored]
  rfl

end HoldsPayload

namespace HasWord

theorem hasBytes (h : n.HasWord type row w) : n.HasBytes type row w.toBytes :=
  ⟨h.valid, h.typed, h.inside, h.there, by rw [Word.toBytes_length, h.slot]⟩

theorem rowReads (h : n.HasWord type row w) {t : Target} {answer : Result t.Host}
    (each : ∀ view : ColumnView, view.column.type = type → view.native = n →
      view.isValid row = .ok true → view.intAt k row = .ok w → view.RowReads row t answer) :
    n.RowReads row t answer := by
  refine h.hasBytes.rowReads fun view hc hn valid => each view hc hn valid ?_
  subst hn
  exact wordAt_of_slot h.slot

/-- A typed read decodes the word. -/
theorem reads_typed (h : n.HasWord type row w) {t : Target} (leaf : t.isLeaf)
    (plain : variantPlan t type = boxedAs t type) {read : Reader t.Host}
    (reader : Reader.typed? type t = some read) {answer : Result t.Host}
    (reads : ∀ view : ColumnView, view.column.type = type → view.intAt k row = .ok w →
      read view row = answer) : n.RowReads row t answer := by
  refine h.rowReads fun view hc _ valid word => ?_
  subst hc
  exact view.rowReads_typed leaf plain reader valid (reads view rfl word)

/-- An optional read decodes the word too. -/
theorem reads_optional (h : n.HasWord type row w) {t : Target} (leaf : t.isLeaf)
    (plain : variantPlan t type = boxedAs t type) {read : Reader t.Host}
    (reader : Reader.typed? type t = some read) {answer : Result t.Host}
    (reads : ∀ view : ColumnView, view.column.type = type → view.intAt k row = .ok w →
      read view row = answer) : n.RowReads row (.option t) (answer.map some) := by
  refine h.rowReads fun view hc _ valid word => ?_
  subst hc
  exact view.rowReads_optional leaf plain reader valid (reads view rfl word)

/-- The boxed read decodes the word. -/
theorem reads_boxed (h : n.HasWord type row w) (leaf : type.kind.isNested = false)
    {decode : Word k → Result Value} (slots : WordSlots type k decode) :
    n.RowReads row .value (decode w) := by
  refine reads_boxed_leaf h.valid h.typed h.inside h.there leaf ?_
  rw [slots.reads, wordAt_of_slot h.slot, Result.ok_bind]

end HasWord

/-- Where rows are taken, all that are not missing have slots. -/
theorem slotOf_of_ofValues (slotted : type.isSlotted) {rows : List Value}
    (h : ofValues type rows = .ok n) : n.rows = rows.length ∧
      ∀ v ∈ rows, v.isNull = false → ∃ slot, type.slotOf v = .ok slot := by
  have valid := check_of_ofValues h
  rw [ofValues_slotted valid slotted] at h
  obtain ⟨cells, hcells, -⟩ := Result.bind_eq_ok.mp h
  exact ⟨(ofSlotValues_hasRows slotted h).1.count, (mapPresent_eq_ok hcells).2⟩

/-- The slot of a value that is taken is in its row. -/
theorem hasBytes_of_ofValues (slotted : type.isSlotted) {rows : List Value}
    (h : ofValues type rows = .ok n) (hrow : row < rows.length)
    (there : rows[row].isNull = false) {slot : List UInt8} (hs : type.slotOf rows[row] = .ok slot) :
    n.HasBytes type row slot := by
  have valid := check_of_ofValues h
  obtain ⟨-, written⟩ := slotOf_of_ofValues slotted h
  rw [ofValues_slotted valid slotted] at h
  obtain ⟨-, width, hw, fits⟩ := ofSlotValues_hasRows slotted h
  obtain ⟨n', hn, ht, hr, hb, slots⟩ := ofSlotValues_ok valid slotted hw written fits
  obtain rfl : n = n' := Except.ok.inj (h.symm.trans hn)
  obtain rfl : width = slot.length := Option.some.inj (hw.symm.trans (slotOf_length hs))
  refine ⟨valid, ht, hr ▸ hrow, ?_, slots row hrow _ there hs⟩
  rw [bit?_present hb hrow, there]
  rfl

theorem hasWord_of_ofValues (slotted : type.isSlotted) {rows : List Value}
    (h : ofValues type rows = .ok n) (hrow : row < rows.length)
    (there : rows[row].isNull = false) (hs : type.slotOf rows[row] = .ok w.toBytes) :
    n.HasWord type row w := by
  obtain ⟨valid, typed, inside, bit, slot⟩ := hasBytes_of_ofValues slotted h hrow there hs
  rw [Word.toBytes_length] at slot
  exact ⟨valid, typed, inside, bit, slot⟩

/-- Values whose payloads are below 4 GiB are taken, and the payloads are in their rows. -/
theorem ofValues_payloads {kind : Kind} (string : kind.isStringLike) {rows : List Value}
    (written : ∀ v ∈ rows, v.isNull = false →
      ∃ payload, (scalar kind).payloadOf v = .ok payload ∧ payload.length < 0x100000000)
    (room : rows.length < sizeModulus) :
    ∃ n, ofValues (scalar kind) rows = .ok n ∧
      ∀ (row : Nat) (hrow : row < rows.length) (payload : List UInt8), rows[row].isNull = false →
        (scalar kind).payloadOf rows[row] = .ok payload →
          n.HoldsPayload (scalar kind) row payload := by
  obtain ⟨n, hn, ht, hr, hb, payloads⟩ := ofPayloadValues_ok string written room
  refine ⟨n, (ofValues_stringLike string rows).trans hn, fun row hrow payload there hp => ?_⟩
  refine ⟨check_of_stringLike string, ht, hr ▸ hrow, ?_, payloads row hrow payload there hp⟩
  rw [bit?_present hb hrow, there]
  rfl

section Writing

variable (valid : type.check = .ok ()) (slotted : type.isSlotted)
include valid slotted

/-- Rows are taken exactly if all that are not missing have slots. -/
theorem ofValues_iff {width : Nat} (hw : type.storage.slotWidth? = some width) {rows : List Value}
    (room : rows.length * width < sizeModulus) : (∃ n, ofValues type rows = .ok n) ↔
      ∀ v ∈ rows, v.isNull = false → ∃ slot, type.slotOf v = .ok slot := by
  constructor
  · rintro ⟨n, h⟩
    exact (slotOf_of_ofValues slotted h).2
  · intro written
    obtain ⟨n, hn, -⟩ := ofSlotValues_ok valid slotted hw written room
    exact ⟨n, (ofValues_slotted valid slotted rows).trans hn⟩

/-- Values whose slots are words are taken, and the words are in their rows. -/
theorem ofValues_words (width : type.storage.slotWidth? = some k.bytes) {rows : List Value}
    (room : rows.length * k.bytes < sizeModulus) (words : ∀ v ∈ rows, v.isNull = false →
      ∃ w : Word k, type.slotOf v = .ok w.toBytes) :
    ∃ n, ofValues type rows = .ok n ∧ n.rows = rows.length ∧
      ∀ (row : Nat) (hrow : row < rows.length) (w : Word k), rows[row].isNull = false →
        type.slotOf rows[row] = .ok w.toBytes → n.HasWord type row w := by
  have written : ∀ v ∈ rows, v.isNull = false → ∃ slot, type.slotOf v = .ok slot := by
    intro v hv there
    obtain ⟨w, hs⟩ := words v hv there
    exact ⟨_, hs⟩
  obtain ⟨n, hn⟩ := (ofValues_iff valid slotted width room).mpr written
  exact ⟨n, hn, (slotOf_of_ofValues slotted hn).1, fun row hrow w there hs =>
    hasWord_of_ofValues slotted hn hrow there hs⟩

/-- The first value without a slot is the one that is reported. -/
theorem ofValues_first_error {before after : List Value} {v : Value} {e : Error}
    (written : ∀ v ∈ before, v.isNull = false → ∃ slot, type.slotOf v = .ok slot)
    (there : v.isNull = false) (refused : type.slotOf v = .error e) :
    ofValues type (before ++ v :: after) = .error e := by
  have cells : mapPresent type.slotOf (before ++ v :: after) = .error e := by
    have first := mapPresent_ok written
    unfold mapPresent at first ⊢
    rw [List.mapM_append, first, List.mapM_cons, if_neg (by rw [there]; exact Bool.false_ne_true),
      refused]
    rfl
  rw [ofValues_slotted valid slotted, ofSlotValues, cells, Result.error_bind]

/-- Rows whose slots there is room for are refused for a value that has none. -/
theorem ofValues_eq_error {width : Nat} (hw : type.storage.slotWidth? = some width)
    {rows : List Value} (room : rows.length * width < sizeModulus) {e : Error}
    (h : ofValues type rows = .error e) :
    ∃ v ∈ rows, v.isNull = false ∧ type.slotOf v = .error e := by
  rw [ofValues_slotted valid slotted] at h
  rcases Result.bind_eq_error.mp h with failed | ⟨cells, hcells, -⟩
  · obtain ⟨v, hv, failed⟩ := Result.mapM_eq_error failed
    split_ifs at failed with missing
    exact ⟨v, hv, Bool.eq_false_of_not_eq_true missing, Result.map_eq_error.mp failed⟩
  · obtain ⟨n, hn, -⟩ := ofSlotValues_ok valid slotted hw (mapPresent_eq_ok hcells).2 room
    rw [hn] at h
    cases h

/-- Rows that are refused are refused for what they hold. -/
theorem ofValues_isArgument (plain : type.kind ≠ .timeTz) {width : Nat}
    (hw : type.storage.slotWidth? = some width) {rows : List Value}
    (room : rows.length * width < sizeModulus) :
    Result.FailsOnly Error.IsArgument (ofValues type rows) := by
  intro e he
  obtain ⟨v, -, -, refused⟩ := ofValues_eq_error valid slotted hw room he
  exact slotOf_isArgument type v plain e refused

end Writing

end NativeVector
end TypedColumns
