import TypedColumns.Proofs.Resolution

/-!
Readers of slots decode what one slot holds. They see nothing else of a vector, and a stored value
outside their domain is the only thing that can be wrong with it.
-/
namespace TypedColumns

def Error.IsDomain (e : Error) : Prop := ∃ fault, e = .domain fault

/-- What the slot of a row holds: the payload that a string slot refers to, or the bytes of the
slot. -/
def NativeVector.content? (v : NativeVector) (storage : Kind) (row : Nat) : Option (List UInt8) :=
  if storage.isStringLike then v.payload? row else v.slot? (storage.slotWidth?.getD 0) row

/-- On columns of the kind and storage of `type`, the reader decodes the content of the row's slot,
by the column alone. -/
def Reader.Decodes {α : Type} (type : LogicalType) (read : Reader α) : Prop :=
  ∃ decode : Column → List UInt8 → Result α, ∀ view : ColumnView,
    view.column.kind = type.kind → view.column.storage = type.storage →
      (∀ row, read view row =
        ColumnView.loaded (view.native.content? type.storage row) >>= decode view.column) ∧
      ∀ bytes, Result.FailsOnly Error.IsDomain (decode view.column bytes)

namespace Reader.Decodes

variable {α β : Type} {type : LogicalType} {read : Reader α}

/-- The decoded content goes through a further step, which may ask for the column. -/
theorem bind (h : Decodes type read) (f : Column → α → Result β)
    (hf : ∀ column : Column, column.kind = type.kind →
      ∀ a, Result.FailsOnly Error.IsDomain (f column a)) :
    Decodes type fun view row => read view row >>= f view.column := by
  obtain ⟨decode, hd⟩ := h
  refine ⟨fun column bytes => decode column bytes >>= f column, ?_⟩
  intro view hk hs
  obtain ⟨reads, fails⟩ := hd view hk hs
  constructor
  · intro row
    simp only [reads row, bind_assoc]
  · intro bytes
    exact (fails bytes).bind fun a _ => hf view.column hk a

theorem map (h : Decodes type read) {f : α → Result β}
    (hf : ∀ a, Result.FailsOnly Error.IsDomain (f a)) : Decodes type (read.map f) :=
  h.bind (fun _ => f) fun _ _ => hf

theorem image (h : Decodes type read) (f : Column → α → β) :
    Decodes type fun view row => (read view row).map (f view.column) := by
  obtain ⟨decode, hd⟩ := h
  refine ⟨fun column bytes => (decode column bytes).map (f column), ?_⟩
  intro view hk hs
  obtain ⟨reads, fails⟩ := hd view hk hs
  constructor
  · intro row
    simp only [reads row]
    cases ColumnView.loaded (view.native.content? type.storage row) <;> rfl
  · intro bytes
    exact (fails bytes).map _

/-- The bytes of slots of a fixed width. -/
theorem slot {width : Nat} (hw : type.storage.slotWidth? = some width)
    (hs : type.storage.isStringLike = false) (f : List UInt8 → α) :
    Decodes type fun view row => (ColumnView.loaded (view.native.slot? width row)).map f := by
  refine ⟨fun _ bytes => .ok (f bytes), ?_⟩
  intro view _ _
  constructor
  · intro row
    simp only [NativeVector.content?, hs, hw, Option.getD_some]
    cases view.native.slot? width row <;> rfl
  · intro bytes
    exact .ok _

theorem int {k : IntKind} (hw : type.storage.slotWidth? = some k.bytes)
    (hs : type.storage.isStringLike = false) : Decodes type fun view row => view.intAt k row :=
  slot hw hs _

theorem float {f : FloatFormat} (hw : type.storage.slotWidth? = some f.bytes)
    (hs : type.storage.isStringLike = false) : Decodes type fun view row => view.floatAt f row :=
  slot hw hs _

theorem payload (hs : type.storage.isStringLike = true) :
    Decodes type fun view row => view.payloadAt row := by
  refine ⟨fun _ bytes => .ok bytes, ?_⟩
  intro view _ _
  constructor
  · intro row
    simp only [NativeVector.content?, hs, if_true, ColumnView.payloadAt]
    cases view.native.payload? row <;> rfl
  · intro bytes
    exact .ok _

/-- Readers that agree on columns of this kind and storage. -/
theorem congr (h : Decodes type read) {other : Reader α}
    (ho : ∀ view : ColumnView, view.column.kind = type.kind → view.column.storage = type.storage →
      ∀ row, other view row = read view row) : Decodes type other := by
  obtain ⟨decode, hd⟩ := h
  refine ⟨decode, ?_⟩
  intro view hk hs
  obtain ⟨reads, fails⟩ := hd view hk hs
  exact ⟨fun row => (ho view hk hs row).trans (reads row), fails⟩

end Reader.Decodes

namespace Reader

open Result (FailsOnly)

theorem mapError_domain {α ε : Type} (x : Except ε α) (fault : ε → DomainFault) :
    FailsOnly Error.IsDomain (x.mapError fun e => Error.domain (fault e)) := by
  cases x with
  | error e => exact .error ⟨fault e, rfl⟩
  | ok a => exact .ok a

/-- Every temporal fault but that of a kind that counts no time is one of the value. -/
theorem temporal_domain {α : Type} {x : Except Temporal.Fault α}
    (h : ∀ kind, x ≠ .error (.notTimestamp kind)) : FailsOnly Error.IsDomain (temporal x) := by
  cases x with
  | ok a => exact .ok a
  | error fault =>
    cases fault with
    | notTimestamp kind => exact absurd rfl (h kind)
    | _ => exact .error ⟨_, rfl⟩

theorem date_domain (days : Word .i32) : FailsOnly Error.IsDomain (temporal (Date.ofSlot days)) := by
  apply temporal_domain
  intro kind
  unfold Date.ofSlot
  split
  · nofun
  · split
    · nofun
    · split <;> nofun

theorem time_domain (micros : Word .i64) :
    FailsOnly Error.IsDomain (temporal (ClockTime.ofSlot micros)) := by
  apply temporal_domain
  intro kind
  unfold ClockTime.ofSlot
  split
  · intro h
    cases h
  · intro h
    cases h

theorem clock_domain (kind : Kind) (raw : Word .i64) :
    FailsOnly Error.IsDomain (temporal (Timestamp.clockOfSlot kind raw)) := by
  apply temporal_domain
  intro other
  unfold Timestamp.clockOfSlot
  split
  · nofun
  · split <;> nofun

theorem micros_domain (unit : TimestampUnit) (raw : Word .i64) :
    FailsOnly Error.IsDomain (temporal (Timestamp.microsOfSlot (.timestamp unit) raw)) := by
  apply temporal_domain
  intro other
  unfold Timestamp.microsOfSlot
  split
  · nofun
  · simp only
    split <;> nofun

section Slots

variable {type : LogicalType}

/-- The code of an ENUM slot, as wide as the dictionary asks for. -/
theorem code_decodes (dictionary : Array String) : Decodes (.enum dictionary) code := by
  have width : Decodes (.enum dictionary) fun view row =>
      (view.intAt (LogicalType.enumStorage dictionary.size) row).map fun n => n.val.toNat :=
    Decodes.image (.int rfl rfl) fun _ n => n.val.toNat
  apply width.congr
  intro view _ hs row
  change view.column.storage = .int (LogicalType.enumStorage dictionary.size) at hs
  unfold code
  rw [hs]
  unfold LogicalType.enumStorage
  by_cases small : dictionary.size ≤ 255
  · rw [if_pos small]
  · rw [if_neg small]
    by_cases medium : dictionary.size ≤ 65535
    · rw [if_pos medium]
    · rw [if_neg medium]

theorem memberName_decodes (dictionary : Array String) (target : String) :
    Decodes (.enum dictionary) (memberName dictionary target) := by
  apply (code_decodes dictionary).map
  intro n
  split
  · exact .ok _
  · exact .error ⟨_, rfl⟩

theorem enumName_decodes (dictionary : Array String) :
    Decodes (.enum dictionary) (enumName dictionary) :=
  (memberName_decodes dictionary "String").map fun _ => .ok _

theorem enumMember_decodes (dictionary : Array String) (target : String) (members : List String) :
    Decodes (.enum dictionary) (enumMember dictionary target members) := by
  apply (code_decodes dictionary).map
  intro n
  split
  · exact .ok _
  · exact .error ⟨_, rfl⟩
  · exact .error ⟨_, rfl⟩

theorem enumKnown_decodes (dictionary : Array String) (target : String) (members : List String) :
    Decodes (.enum dictionary) (enumKnown dictionary target members) := by
  apply (memberName_decodes dictionary target).map
  rintro ⟨code, name⟩
  by_cases known : members.contains name
  · simp only [known, if_true]
    exact .ok _
  · simp only [known]
    exact .error ⟨_, rfl⟩

theorem bool_decodes : Decodes (.scalar .boolean) bool :=
  Decodes.image (.int rfl rfl) fun _ b => b.val != 0

theorem date_decodes : Decodes (.scalar .date) date :=
  Decodes.bind (.int rfl rfl) (fun _ days => temporal (Date.ofSlot days)) fun _ _ => date_domain

theorem time_decodes : Decodes (.scalar .time) time :=
  Decodes.bind (.int rfl rfl) (fun _ micros => temporal (ClockTime.ofSlot micros))
    fun _ _ => time_domain

theorem timeTz_decodes : Decodes (.scalar .timeTz) timeTz :=
  Decodes.image (.int rfl rfl) fun _ => TimeTz.ofBits

theorem clock_decodes (unit : TimestampUnit) : Decodes (.scalar (.timestamp unit)) clock :=
  Decodes.bind (.int rfl rfl) (fun column raw => temporal (Timestamp.clockOfSlot column.kind raw))
    fun column _ => clock_domain column.kind

theorem timestampMicros_decodes (unit : TimestampUnit) :
    Decodes (.scalar (.timestamp unit)) timestampMicros := by
  apply Decodes.bind (.int rfl rfl)
    fun column raw => temporal (Timestamp.microsOfSlot column.kind raw)
  intro column hk raw
  rw [hk]
  exact micros_domain unit raw

theorem interval_decodes :
    Decodes (.scalar .interval) fun view row => view.intervalAt row :=
  .slot rfl rfl _

theorem duration_decodes : Decodes (.scalar .interval) duration :=
  interval_decodes.map fun i => mapError_domain i.toDuration .interval

section Decimal

variable (width scale : Nat)

theorem scaled_decodes :
    Decodes (.decimal width scale) (scaled (LogicalType.decimalStorage width)) := by
  have slots : Decodes (.decimal width scale) fun view row =>
      view.intAt (LogicalType.decimalStorage width) row := .int rfl rfl
  exact slots.image fun column n => ScaledInt.mk (n.widen .i128) column.scale

theorem decimal_decodes :
    Decodes (.decimal width scale) (decimal (LogicalType.decimalStorage width)) :=
  (scaled_decodes width scale).map fun stored => mapError_domain stored.toDecimal (.decimal stored)

theorem boxedDecimal_decodes :
    Decodes (.decimal width scale) (boxedDecimal (LogicalType.decimalStorage width)) :=
  (scaled_decodes width scale).image
    fun _ => orRaw (fun stored => stored.toDecimal.map .decimal) .scaledInt

end Decimal

theorem string_decodes : Decodes (.scalar .varchar) string :=
  Decodes.map (.payload rfl) fun bytes => mapError_domain (Utf8.decode bytes) .utf8

theorem bitString_decodes : Decodes (.scalar .bit) bitString :=
  Decodes.map (.payload rfl) fun bytes => mapError_domain (BitString.ofBlob bytes) .bit

theorem varInt_decodes : Decodes (.scalar .varInt) varInt :=
  Decodes.map (.payload rfl) fun bytes => mapError_domain (VarInt.ofBlob bytes) .varInt

theorem uuid_decodes : Decodes (.scalar .uuid) uuid :=
  Decodes.image (.int rfl rfl) fun _ => Uuid.ofSlot

theorem bytes_decodes : Decodes (.scalar .blob) bytes :=
  Decodes.image (.payload rfl) fun _ payload => payload.map Target.wordOfByte

/-- Slots of NULL columns are empty. -/
theorem null_decodes : Decodes (.scalar .null) fun _ _ => .ok Value.null := by
  apply Decodes.congr (Decodes.slot rfl rfl fun _ => Value.null)
  intro view _ _ row
  unfold NativeVector.slot?
  rw [if_pos (by omega)]
  rfl

theorem boxedTimestamp_decodes (unit : TimestampUnit) :
    Decodes (.scalar (.timestamp unit)) boxedTimestamp := by
  let decode (column : Column) (raw : Word .i64) : Result Value :=
    (Timestamp.clockOfSlot column.kind raw).toOption.elim
      ((temporal (Timestamp.microsOfSlot column.kind raw)).map .rawTimestamp) fun clock =>
        .ok (if column.kind = .timestamp .zoned then .timestampTz (.utc clock) else .timestamp clock)
  have decodes : Decodes (.scalar (.timestamp unit)) fun view row =>
      view.intAt .i64 row >>= decode view.column := by
    apply Decodes.bind (.int rfl rfl) decode
    intro column (hk : column.kind = .timestamp unit) raw
    simp only [decode, hk]
    cases (Timestamp.clockOfSlot (.timestamp unit) raw).toOption with
    | none => exact (micros_domain unit raw).map _
    | some clock => exact .ok _
  apply decodes.congr
  intro view _ _ row
  apply bind_congr
  intro raw
  change _ = (Timestamp.clockOfSlot view.kind raw).toOption.elim _ _
  cases Timestamp.clockOfSlot view.kind raw <;> rfl

/-- Every typed reader of slots decodes. -/
theorem typed?_decodes {t : Target} {read : Reader t.Host} (hr : typed? type t = some read) :
    read.Decodes type := by
  cases t with
  | bool =>
    cases type with
    | scalar kind =>
      cases kind <;> cases hr
      exact bool_decodes
    | _ => cases hr
  | int l =>
    have widened {k : IntKind} (hw : type.storage.slotWidth? = some k.bytes)
        (hs : type.storage.isStringLike = false)
        (hr : (if l.sources.contains k then some (widened k l) else none) = some read) :
        read.Decodes type := by
      obtain ⟨-, hr⟩ := Option.ite_none_right_eq_some.mp hr
      cases hr
      exact Decodes.image (.int hw hs) fun _ => Word.widen l
    cases type with
    | scalar kind =>
      cases kind with
      | int k => exact widened rfl rfl hr
      | _ => cases hr
    | enum dictionary => exact widened rfl rfl hr
    | _ => cases hr
  | float f =>
    cases f with
    | single =>
      cases type with
      | scalar kind =>
        cases kind <;> cases hr
        exact .float rfl rfl
      | _ => cases hr
    | double =>
      cases type with
      | scalar kind =>
        cases kind <;> cases hr
        · exact Decodes.image (.float rfl rfl) fun _ => Binary.widen
        · exact .float rfl rfl
      | decimal width scale =>
        cases hr
        exact (scaled_decodes width scale).image fun _ => ScaledInt.toDouble
      | _ => cases hr
  | string =>
    cases type with
    | scalar kind =>
      cases kind <;> cases hr
      · exact string_decodes
      · exact bitString_decodes.map fun _ => .ok _
      · exact varInt_decodes.map fun _ => .ok _
    | enum dictionary =>
      cases hr
      exact enumName_decodes dictionary
    | _ => cases hr
  | date =>
    cases type with
    | scalar kind =>
      cases kind <;> cases hr
      exact date_decodes
    | _ => cases hr
  | time =>
    cases type with
    | scalar kind =>
      cases kind <;> cases hr
      exact time_decodes
    | _ => cases hr
  | dateTime =>
    cases type with
    | scalar kind =>
      cases kind <;> cases hr
      · exact date_decodes.map fun _ => .ok _
      · exact clock_decodes _
    | _ => cases hr
  | offsetDateTime =>
    cases type with
    | scalar kind =>
      cases kind <;> cases hr
      exact (clock_decodes _).map fun _ => .ok _
    | _ => cases hr
  | duration =>
    cases type with
    | scalar kind =>
      cases kind <;> cases hr
      exact duration_decodes
    | _ => cases hr
  | rawDate =>
    cases type with
    | scalar kind =>
      cases kind <;> cases hr
      exact .int rfl rfl
    | _ => cases hr
  | rawTime =>
    cases type with
    | scalar kind =>
      cases kind <;> cases hr
      exact .int rfl rfl
    | _ => cases hr
  | timeTz =>
    cases type with
    | scalar kind =>
      cases kind <;> cases hr
      exact timeTz_decodes
    | _ => cases hr
  | rawTimestamp =>
    cases type with
    | scalar kind =>
      cases kind <;> cases hr
      exact timestampMicros_decodes _
    | _ => cases hr
  | interval =>
    cases type with
    | scalar kind =>
      cases kind <;> cases hr
      exact interval_decodes
    | _ => cases hr
  | decimal =>
    cases type with
    | scalar kind => cases kind <;> cases hr
    | decimal width scale =>
      cases hr
      exact decimal_decodes width scale
    | _ => cases hr
  | scaledInt =>
    cases type with
    | scalar kind => cases kind <;> cases hr
    | decimal width scale =>
      cases hr
      exact scaled_decodes width scale
    | _ => cases hr
  | uuid =>
    cases type with
    | scalar kind =>
      cases kind <;> cases hr
      exact uuid_decodes
    | _ => cases hr
  | bitString =>
    cases type with
    | scalar kind =>
      cases kind <;> cases hr
      exact bitString_decodes
    | _ => cases hr
  | varInt =>
    cases type with
    | scalar kind =>
      cases kind <;> cases hr
      exact varInt_decodes
    | _ => cases hr
  | enum name members =>
    cases type with
    | enum dictionary =>
      cases hr
      exact enumMember_decodes dictionary name members
    | _ => cases hr
  | _ => cases hr

/-- Every boxed reader of slots decodes. -/
theorem boxed?_decodes {read : Reader Value} (hr : boxed? type = some read) :
    read.Decodes type := by
  cases type with
  | scalar kind =>
    cases kind with
    | boolean => cases hr; exact bool_decodes.map fun _ => .ok _
    | int k => cases hr; exact Decodes.image (.int rfl rfl) fun _ => Value.int k
    | float => cases hr; exact Decodes.image (.float rfl rfl) fun _ => Value.float
    | double => cases hr; exact Decodes.image (.float rfl rfl) fun _ => Value.double
    | date => cases hr; exact Decodes.image (.int rfl rfl) fun _ => orRaw _ _
    | time => cases hr; exact Decodes.image (.int rfl rfl) fun _ => orRaw _ _
    | timeTz => cases hr; exact timeTz_decodes.map fun _ => .ok _
    | timestamp unit => cases hr; exact boxedTimestamp_decodes unit
    | interval => cases hr; exact interval_decodes.image fun _ => Value.interval
    | varchar => cases hr; exact string_decodes.map fun _ => .ok _
    | blob => cases hr; exact Decodes.image (.payload rfl) fun _ => Value.blob
    | bit => cases hr; exact bitString_decodes.map fun _ => .ok _
    | varInt => cases hr; exact varInt_decodes.map fun _ => .ok _
    | uuid => cases hr; exact uuid_decodes.map fun _ => .ok _
    | null => cases hr; exact null_decodes
    | _ => cases hr
  | decimal width scale => cases hr; exact boxedDecimal_decodes width scale
  | enum dictionary => cases hr; exact (enumName_decodes dictionary).map fun _ => .ok _
  | _ => cases hr

end Slots
end Reader
end TypedColumns
