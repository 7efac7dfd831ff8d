import Mathlib
import TypedColumns.Proofs.Binding
import TypedColumns.Proofs.SlotDecoding
import TypedColumns.Proofs.TimestampReadings

/-!
Boxed reads beside reads as the canonical type of the column. Where the canonical read has a value the
boxed read has it too. Where the value is outside the domain, dates, times, decimals and timestamps are
boxed in their raw form, as far as a timestamp can be counted in microseconds; every other error is
that of both reads.
-/
namespace TypedColumns

/-- A value of that kind may have no canonical reading, or is boxed in another form than it. -/
def Kind.boxedApart : Kind → Bool
  | date | time | decimal | timestamp _ | enum => true
  | _ => false

/-- The boxed form of a canonical value: the text of an ENUM value is a name. -/
def Kind.boxedForm (kind : Kind) : Value → Value
  | .text name => if kind = .enum then .enum name else .text name
  | x => x

namespace ColumnView

variable {view : ColumnView} {row : Nat}

/-- The boxed read of a row whose canonical value is outside the domain: the slot in its raw form,
where the kind has one. -/
def RawForm (view : ColumnView) (row : Nat) (fault : DomainFault) (boxed : Result Value) : Prop :=
  match view.kind with
  | .date => ∃ raw, view.intAt .i32 row = .ok raw ∧ boxed = .ok (.rawDate raw)
  | .time => ∃ raw, view.intAt .i64 row = .ok raw ∧ boxed = .ok (.rawTime raw)
  | .decimal => ∃ k raw, view.column.storage = .int k ∧ view.intAt k row = .ok raw ∧
      boxed = .ok (.scaledInt ⟨raw.widen .i128, view.column.scale⟩)
  | .timestamp unit => ∃ raw, view.intAt .i64 row = .ok raw ∧
      (Timestamp.Overflows unit raw → boxed =
        .error (.domain (.temporal (.microsOverflow (.timestamp unit) raw.val)))) ∧
      (¬Timestamp.Overflows unit raw → ∃ micros,
        Timestamp.microsOfSlot (.timestamp unit) raw = .ok micros ∧
          boxed = .ok (.rawTimestamp micros))
  | _ => boxed = .error (.domain fault)

/-- What the boxed read of a row gives by what the canonical one gives. -/
def Follows (view : ColumnView) (row : Nat) (canonical boxed : Result Value) : Prop :=
  match canonical with
  | .ok x => boxed = .ok (view.kind.boxedForm x)
  | .error (.domain fault) => view.RawForm row fault boxed
  | .error e => boxed = .error e

theorem Follows.of_eq (plain : view.kind.boxedApart = false) (x : Result Value) :
    view.Follows row x x := by
  cases x with
  | ok x =>
    have other : view.kind ≠ .enum := by
      intro same
      rw [same] at plain
      contradiction
    cases x with
    | text name => simp [Follows, Kind.boxedForm, other]
    | _ => rfl
  | error e =>
    cases e with
    | domain fault =>
      show view.RawForm row fault _
      unfold RawForm
      cases kind : view.kind <;> first | rfl | (rw [kind] at plain; contradiction)
    | _ => rfl

theorem Follows.of_slot {α : Type} {slot : Result α} (unread : Result.FailsOnly (· = .unreadable) slot)
    {canonical boxed : α → Result Value}
    (each : ∀ raw, slot = .ok raw → view.Follows row (canonical raw) (boxed raw)) :
    view.Follows row (slot >>= canonical) (slot >>= boxed) := by
  cases slot with
  | ok raw => exact each raw rfl
  | error e =>
    obtain rfl := unread e rfl
    rfl

theorem Follows.of_domain {α : Type} {x : Result α} (fails : Result.FailsOnly Error.IsDomain x)
    {box : α → Value} {boxed : Result Value}
    (there : ∀ a, x = .ok a → boxed = .ok (view.kind.boxedForm (box a)))
    (outside : ∀ fault, x = .error (.domain fault) → view.RawForm row fault boxed) :
    view.Follows row (x >>= fun a => .ok (box a)) boxed := by
  cases x with
  | ok a => exact there a rfl
  | error e =>
    obtain ⟨fault, rfl⟩ := fails e rfl
    exact outside fault rfl

theorem intAt_unread (view : ColumnView) (k : IntKind) (row : Nat) :
    Result.FailsOnly (· = .unreadable) (view.intAt k row) :=
  Result.FailsOnly.map (fun _ => unreadable_of_loaded) _

end ColumnView

namespace Reader

open ColumnView (Follows)

variable {view : ColumnView}

/-- A reader of slots that falls back to the raw form. -/
theorem orRaw_follows {α β ε : Type} {row : Nat} {slot : Result β} {typed : β → Except ε α}
    {fault : β → ε → Error} {box : α → Value} {raw : β → Value}
    (unread : Result.FailsOnly (· = .unreadable) slot)
    (fails : ∀ b, Result.FailsOnly Error.IsDomain ((typed b).mapError (fault b)))
    (plain : ∀ a, view.kind.boxedForm (box a) = box a)
    (falls : ∀ b, slot = .ok b → ∀ fault, view.RawForm row fault (.ok (raw b))) :
    view.Follows row
      (slot >>= fun b => (typed b).mapError (fault b) >>= fun a => .ok (box a))
      (slot.map (orRaw (fun b => (typed b).map box) raw)) := by
  rw [Result.map_eq_bind]
  refine Follows.of_slot unread fun b found => Follows.of_domain (fails b) ?_ ?_
  · intro a there
    cases reading : typed b with
    | error e =>
      rw [reading] at there
      cases there
    | ok a' =>
      rw [reading] at there
      cases there
      simp only [orRaw, reading, Except.map, plain]
  · intro fault outside
    cases reading : typed b with
    | ok a =>
      rw [reading] at outside
      cases outside
    | error e =>
      simp only [orRaw, reading, Except.map]
      exact falls b found fault

theorem date_follows (kind : view.kind = .date) (row : Nat) :
    view.Follows row (date.map (fun d => .ok (.date d)) view row) (boxedDate view row) := by
  simp only [Reader.map, date, bind_assoc]
  refine orRaw_follows (view.intAt_unread .i32 row) date_domain (fun _ => rfl) ?_
  intro raw found fault
  unfold ColumnView.RawForm
  rw [kind]
  exact ⟨raw, found, rfl⟩

theorem time_follows (kind : view.kind = .time) (row : Nat) :
    view.Follows row (time.map (fun t => .ok (.time t)) view row) (boxedTime view row) := by
  simp only [Reader.map, time, bind_assoc]
  refine orRaw_follows (view.intAt_unread .i64 row) time_domain (fun _ => rfl) ?_
  intro raw found fault
  unfold ColumnView.RawForm
  rw [kind]
  exact ⟨raw, found, rfl⟩

theorem decimal_follows {k : IntKind} (kind : view.kind = .decimal)
    (storage : view.column.storage = .int k) (row : Nat) :
    view.Follows row ((decimal k).map (fun d => .ok (.decimal d)) view row)
      (boxedDecimal k view row) := by
  simp only [Reader.map, decimal, bind_assoc]
  refine orRaw_follows (Result.FailsOnly.map (view.intAt_unread k row) _)
    (fun stored => mapError_domain stored.toDecimal (.decimal stored)) (fun _ => rfl) ?_
  intro stored found fault
  obtain ⟨raw, slot, rfl⟩ := Result.map_eq_ok.mp found
  unfold ColumnView.RawForm
  rw [kind]
  exact ⟨k, raw, storage, slot, rfl⟩

/-- The clock of a timestamp, boxed with or without its zone. -/
def boxedClock (unit : TimestampUnit) (clock : DateTime) : Value :=
  if unit = .zoned then .timestampTz (.utc clock) else .timestamp clock

theorem timestamp_follows {unit : TimestampUnit} (kind : view.kind = .timestamp unit) (row : Nat) :
    view.Follows row (clock.map (fun t => .ok (boxedClock unit t)) view row)
      (boxedTimestamp view row) := by
  simp only [Reader.map, clock, boxedTimestamp, bind_assoc, kind]
  refine Follows.of_slot (view.intAt_unread .i64 row) fun raw found => ?_
  refine Follows.of_domain (clock_domain _ raw) (fun t there => ?_) fun fault outside => ?_
  · cases reading : Timestamp.clockOfSlot (.timestamp unit) raw with
    | error e =>
      rw [reading] at there
      cases e <;> cases there
    | ok t' =>
      rw [reading] at there
      cases there
      simp only [boxedClock, Kind.timestamp.injEq]
      split_ifs <;> rfl
  · cases reading : Timestamp.clockOfSlot (.timestamp unit) raw with
    | ok t =>
      rw [reading] at outside
      cases outside
    | error e =>
      -- Infinities are among these: they have no clock and are counted as they are.
      unfold ColumnView.RawForm
      rw [kind]
      refine ⟨raw, found, fun large => ?_, fun small => ?_⟩
      · rw [Timestamp.microsOfSlot_of_overflows large]
        rfl
      · obtain ⟨micros, counted⟩ := Timestamp.microsOfSlot_of_fits small
        exact ⟨micros, counted, by rw [counted]; rfl⟩

theorem enum_follows (dictionary : Array String) (kind : view.kind = .enum) (row : Nat) :
    view.Follows row ((enumName dictionary).map (fun name => .ok (.text name)) view row)
      ((enumName dictionary).map (fun name => .ok (.enum name)) view row) := by
  simp only [Reader.map]
  cases read : enumName dictionary view row with
  | ok name =>
    show _ = Except.ok (view.kind.boxedForm (.text name))
    rw [kind]
    rfl
  | error e =>
    cases e with
    | domain fault =>
      show view.RawForm row fault _
      unfold ColumnView.RawForm
      rw [kind]
      rfl
    | _ => rfl

end Reader

/-- On columns of `type` the second reading gives for every row what follows from the first one, and
both are bound alike. -/
def Reading.Follows (type : LogicalType) (canonical boxed : Reading Value) : Prop :=
  ∀ view : ColumnView, view.column.type = type →
    Result.Rel (fun r s => ∀ row, view.Follows row (r view row) (s view row)) (canonical.on view)
      (boxed.on view)

namespace LogicalType

variable {type : LogicalType}

theorem follows_closed {canonical boxed : Reader Value}
    (h : ∀ view : ColumnView, view.column.type = type →
      ∀ row, view.Follows row (canonical view row) (boxed view row)) :
    Reading.Follows type (.closed canonical) (.closed boxed) :=
  fun view hc => .ok (h view hc)

theorem follows_self (plain : type.kind.boxedApart = false) (reading : Reading Value) :
    Reading.Follows type reading reading := by
  intro view hc
  have kind : view.kind = type.kind := congrArg LogicalType.kind hc
  exact .refl (fun read row => ColumnView.Follows.of_eq (by rw [kind, plain]) _) _

theorem follows_of_eq (plain : type.kind.boxedApart = false) {canonical boxed : Reader Value}
    (same : ∀ view row, canonical view row = boxed view row) :
    Reading.Follows type (.closed canonical) (.closed boxed) := by
  obtain rfl : canonical = boxed := funext fun view => funext (same view)
  exact follows_self plain _

theorem int_eq (k : IntKind) (view : ColumnView) (row : Nat) :
    (Reader.widened k k).map (fun n => .ok (Value.int k n)) view row =
      (view.intAt k row).map (Value.int k) := by
  unfold Reader.map Reader.widened
  cases view.intAt k row with
  | error e => rfl
  | ok n =>
    have same : n.widen k = n := Word.ext (Word.wrap_val_of_holds n.holds)
    show Except.ok (Value.int k (n.widen k)) = _
    rw [same]
    rfl

theorem byteOfWord_wordOfByte (b : UInt8) : Target.byteOfWord (Target.wordOfByte b) = b := by
  have holds : IntKind.u8.Holds (b.toNat : Int) := by
    have small := b.toNat_lt
    simp only [IntKind.Holds, IntKind.min, IntKind.max]
    omega
  rw [Target.byteOfWord, Target.wordOfByte, Word.wrap_val_of_holds holds, Int.toNat_natCast,
    UInt8.ofNat_toNat]

theorem bytes_eq (view : ColumnView) (row : Nat) :
    Reader.bytes.map (fun bytes => .ok ((Target.list (.int .u8)).toValue bytes)) view row =
      (view.payloadAt row).map Value.blob := by
  unfold Reader.map Reader.bytes
  cases view.payloadAt row with
  | error e => rfl
  | ok payload =>
    show Except.ok (Value.blob ((payload.map Target.wordOfByte).map Target.byteOfWord)) = _
    simp only [List.map_map, Function.comp_def, byteOfWord_wordOfByte, List.map_id']
    rfl

/-- The canonical plan of a scalar column and its boxed plan. -/
theorem scalar_follows {kind : Kind} (valid : (scalar kind).check = .ok ()) {t : Target}
    (h : kind.defaultTarget? = some t) {canonical boxed : Converter Target.value}
    (hp : variantPlan t (scalar kind) = .ok canonical) (hq : boxedPlan (scalar kind) = .ok boxed) :
    Reading.Follows (scalar kind) canonical.reading boxed.reading := by
  cases kind with
  | int k =>
    cases h
    cases k <;> (cases hp; cases hq; exact follows_of_eq rfl (int_eq _))
  | blob =>
    cases h
    cases hp
    cases hq
    exact follows_of_eq rfl bytes_eq
  | date =>
    cases h
    cases hp
    cases hq
    exact follows_closed fun _ hc => Reader.date_follows (congrArg LogicalType.kind hc)
  | time =>
    cases h
    cases hp
    cases hq
    exact follows_closed fun _ hc => Reader.time_follows (congrArg LogicalType.kind hc)
  | timestamp unit =>
    have zoned (view : ColumnView) (row : Nat) :
        (Reader.clock.map fun t => .ok (OffsetDateTime.utc t)).map
            (fun t => .ok (Value.timestampTz t)) view row =
          Reader.clock.map (fun t => .ok (Reader.boxedClock .zoned t)) view row := by
      simp only [Reader.map, bind_assoc, Result.ok_bind, Reader.boxedClock, if_pos]
    cases unit
    case zoned =>
      cases h
      cases hp
      cases hq
      refine follows_closed fun view hc row => ?_
      have follows := Reader.timestamp_follows (congrArg LogicalType.kind hc) row
      rw [← zoned] at follows
      exact follows
    all_goals
      cases h
      cases hp
      cases hq
      exact follows_closed fun _ hc => Reader.timestamp_follows (congrArg LogicalType.kind hc)
  | boolean | timeTz | varchar | bit | varInt | uuid | null =>
    cases h
    cases hp
    cases hq
    exact follows_of_eq rfl fun _ _ => rfl
  | float | double | interval =>
    cases h
    cases hp
    cases hq
    exact follows_of_eq rfl fun _ _ => (Result.map_eq_bind _ _).symm
  | invalid | any => cases h
  | decimal | enum | list | array | struct | map | union => cases valid

/-- The canonical plan of a column and its boxed plan. Columns with children have one binder for
both, as their elements are boxed in either case. -/
theorem canonical_follows {type : LogicalType} (valid : type.check = .ok ()) {t : Target}
    (h : type.kind.defaultTarget? = some t) {canonical boxed : Converter Target.value}
    (hp : variantPlan t type = .ok canonical) (hq : boxedPlan type = .ok boxed) :
    Reading.Follows type canonical.reading boxed.reading := by
  cases type with
  | scalar kind => exact scalar_follows valid h hp hq
  | decimal width scale =>
    cases h
    cases hp
    cases hq
    exact follows_closed fun _ hc => Reader.decimal_follows (congrArg LogicalType.kind hc)
      (congrArg LogicalType.storage hc)
  | enum dictionary =>
    cases h
    cases hp
    cases hq
    exact follows_closed fun _ hc => Reader.enum_follows dictionary (congrArg LogicalType.kind hc)
  | list child | array child size =>
    cases h
    rw [boxedPlan] at hq
    obtain ⟨element, he, hq⟩ := Result.bind_eq_ok.mp hq
    rw [variantPlan_list rfl, variantPlan, he] at hp
    cases hp
    cases hq
    exact follows_self rfl _
  | struct members =>
    cases h
    rw [boxedPlan] at hq
    obtain ⟨plans, hm, hq⟩ := Result.bind_eq_ok.mp hq
    have made : variantPlan .struct (struct members) = boxedAs .struct (struct members) := rfl
    rw [made, boxedAs, typedPlan, hm] at hp
    cases hp
    cases hq
    exact follows_self rfl _
  | map key value =>
    cases h
    rw [boxedPlan] at hq
    obtain ⟨keys, hk, hq⟩ := Result.bind_eq_ok.mp hq
    obtain ⟨values, hv, hq⟩ := Result.bind_eq_ok.mp hq
    have made : variantPlan .pairs (map key value) = boxedAs .pairs (map key value) := rfl
    rw [made, boxedAs, typedPlan, hk, hv] at hp
    cases hp
    cases hq
    exact follows_self rfl _
  | union alternatives =>
    cases h
    rw [boxedPlan] at hq
    obtain ⟨plans, hm, hq⟩ := Result.bind_eq_ok.mp hq
    rw [variantPlan, boxedPlan, hm] at hp
    cases hp
    cases hq
    exact follows_self rfl _

end LogicalType

namespace LogicalType

/-- A column can be read as its canonical type. -/
theorem accepts_default {type : LogicalType} (valid : type.check = .ok ()) {t : Target}
    (h : type.kind.defaultTarget? = some t) : type.accepts t := by
  cases type with
  | scalar kind =>
    cases kind with
    | int k =>
      cases h
      cases k <;> rfl
    | timestamp unit =>
      cases unit <;> cases h <;> rfl
    | _ => first | (cases h; rfl) | cases h
  | list child | array child size =>
    cases h
    have element : child.check = .ok () := valid
    exact accepts_value element
  | _ =>
    cases h
    rfl

end LogicalType

namespace Column

/-- Boxed reads follow canonical reads. A column with a canonical type has a plan for it and a boxed
plan, which are prepared alike for every vector of the column, and of every row that holds a value the
boxed read gives the canonical value, the raw form of the slot if that is outside the domain and its
kind has one, and the canonical error otherwise. -/
theorem boxed_follows_canonical (c : Column) {t : Target} (h : c.defaultTarget? = some t) :
    ∃ canonical boxed, c.resolveVariant t = .ok canonical ∧ c.resolveBoxed = .ok boxed ∧
      ∀ view : ColumnView, view.column = c →
        Result.Rel (fun p q => ∀ row, view.isValid row = .ok true → ∀ require,
            view.Follows row (p.convert view row require) (q.convert view row require))
          (canonical.prepare view) (boxed.prepare view) := by
  have accepted : c.type.accepts t := LogicalType.accepts_default c.valid h
  obtain ⟨canonical, hp, planned⟩ := LogicalType.variantPlan_isPlan c.valid accepted
  obtain ⟨boxed, hq, boxedPlanned⟩ := LogicalType.boxedPlan_isPlan c.valid
  refine ⟨canonical, boxed, ?_, hq, ?_⟩
  · rw [resolveVariant, checkTarget, if_pos accepted, Result.ok_bind, hp]
  · rintro view rfl
    have source : canonical.checkSource view = .ok () :=
      if_pos ⟨planned.kind.symm, planned.storage.symm⟩
    have boxedSource : boxed.checkSource view = .ok () :=
      if_pos ⟨boxedPlanned.kind.symm, boxedPlanned.storage.symm⟩
    rw [Converter.prepare_eq source, Converter.prepare_eq boxedSource]
    apply (LogicalType.canonical_follows view.column.valid h hp hq view rfl).map
    intro read boxedRead follows row valid require
    rw [Converter.convert_valid source read valid, Converter.convert_valid boxedSource boxedRead valid]
    exact follows row

/-- Seconds on the calendar, beyond it, and beyond what microseconds of 64 bits count. -/
theorem boxed_follows_canonical_seconds :
    let c : Column := ⟨.scalar (.timestamp .seconds), rfl⟩
    let slots : List Int := [86400, 1000000000000, 10000000000000]
    let view : ColumnView := ⟨c, 3, ⟨c.type, 3,
      (slots.map fun n => (Word.wrap .i64 n).toBytes).flatten.toArray, none, #[], [], 0⟩, []⟩
    c.defaultTarget? = some .dateTime ∧ ∃ canonical boxed clock,
      c.resolveVariant .dateTime = .ok canonical ∧ c.resolveBoxed = .ok boxed ∧
      canonical.convert view 0 true = .ok (.timestamp clock) ∧
      boxed.convert view 0 true = .ok (.timestamp clock) ∧
      boxed.convert view 1 true = .ok (.rawTimestamp (.wrap .i64 1000000000000000000)) ∧
      boxed.convert view 2 true = .error (.domain (.temporal
        (.microsOverflow (.timestamp .seconds) 10000000000000))) := by
  intro c slots view
  obtain ⟨canonical, boxed, hp, hq, reads⟩ := boxed_follows_canonical c (t := .dateTime) rfl
  have prepared := reads view rfl
  have ready : canonical.prepare view = .ok canonical := by
    cases hp
    rfl
  have boxedReady : boxed.prepare view = .ok boxed := by
    cases hq
    rfl
  rw [ready, boxedReady] at prepared
  have second : view.intAt .i64 1 = .ok (.wrap .i64 1000000000000) := by cbv
  have third : view.intAt .i64 2 = .ok (.wrap .i64 10000000000000) := by cbv
  obtain ⟨clock, day⟩ : ∃ clock, canonical.convert view 0 true = .ok (.timestamp clock) := by
    cases hp
    exact ⟨_, by cbv⟩
  have off (row : Nat) (beyond : row = 1 ∨ row = 2) :
      ∃ fault, canonical.convert view row true = .error (.domain fault) := by
    cases hp
    rcases beyond with rfl | rfl
    · exact ⟨_, by cbv⟩
    · exact ⟨_, by cbv⟩
  cases prepared with
  | ok follows =>
    refine ⟨rfl, canonical, boxed, clock, hp, hq, day, ?_, ?_, ?_⟩
    · have here := follows 0 rfl true
      rw [day] at here
      exact here
    · obtain ⟨fault, outside⟩ := off 1 (.inl rfl)
      have here := follows 1 rfl true
      rw [outside] at here
      obtain ⟨raw, found, -, counted⟩ := here
      obtain rfl := Except.ok.inj (found.symm.trans second)
      obtain ⟨micros, same, read⟩ := counted fun large => absurd large.2 (by decide)
      have value : Timestamp.microsOfSlot (.timestamp .seconds) (.wrap .i64 1000000000000) =
          .ok (.wrap .i64 1000000000000000000) := by rfl
      obtain rfl := Except.ok.inj (same.symm.trans value)
      exact read
    · obtain ⟨fault, outside⟩ := off 2 (.inr rfl)
      have here := follows 2 rfl true
      rw [outside] at here
      obtain ⟨raw, found, uncounted, -⟩ := here
      obtain rfl := Except.ok.inj (found.symm.trans third)
      exact uncounted ⟨by decide, by decide⟩

end Column

end TypedColumns
