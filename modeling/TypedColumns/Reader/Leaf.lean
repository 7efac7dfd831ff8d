import TypedColumns.Converter

/-!
Readers of single slots, for typed targets and for boxed values. Boxed readers fall back to the raw
form where a slot has no typed reading.
-/
namespace TypedColumns

namespace LogicalType

/-- The integer kind of the slots of an integer or ENUM column. -/
def intSlot? : LogicalType → Option IntKind
  | scalar (.int k) => some k
  | enum dictionary => some (enumStorage dictionary.size)
  | _ => none

end LogicalType

/-- The integer kinds whose slots are read as integers of kind `l`. -/
def IntKind.sources : (l : IntKind) → List IntKind
  | .i8 => [.i8]
  | .i16 => [.i8, .i16, .u8]
  | .i32 => [.i8, .i16, .i32, .u8, .u16]
  | .i64 => [.i8, .i16, .i32, .i64, .u8, .u16, .u32]
  | .i128 => [.i8, .i16, .i32, .i64, .i128, .u8, .u16, .u32, .u64]
  | .u8 => [.u8]
  | .u16 => [.u8, .u16]
  | .u32 => [.u8, .u16, .u32]
  | .u64 => [.u8, .u16, .u32, .u64]
  | .u128 => [.u8, .u16, .u32, .u64, .u128]

theorem IntKind.sources_contains (k l : IntKind) : l.sources.contains k = k.widensTo l := by
  cases k <;> cases l <;> decide

namespace Reader

def temporal {α : Type} : Except Temporal.Fault α → Result α := Except.mapError Error.ofTemporal

def bool : Reader Bool := fun view row => (view.intAt .u8 row).map fun b => b.val != 0

def widened (k l : IntKind) : Reader (Word l) := fun view row =>
  (view.intAt k row).map (Word.widen l)

def optionalBool : Reader (Option Bool) := fun view row => (bool view row).map some

def optionalWidened (k l : IntKind) : Reader (Option (Word l)) := fun view row =>
  (view.intAt k row).map fun n => some (n.widen l)

def date : Reader Date := fun view row => do temporal (Date.ofSlot (← view.intAt .i32 row))

def time : Reader ClockTime := fun view row => do
  temporal (ClockTime.ofSlot (← view.intAt .i64 row))

def timeTz : Reader TimeTz := fun view row => (view.intAt .u64 row).map TimeTz.ofBits

def clock : Reader DateTime := fun view row => do
  temporal (Timestamp.clockOfSlot view.kind (← view.intAt .i64 row))

def timestampMicros : Reader (Word .i64) := fun view row => do
  temporal (Timestamp.microsOfSlot view.kind (← view.intAt .i64 row))

def duration : Reader Duration := fun view row => do
  (← view.intervalAt row).toDuration.mapError fun fault => .domain (.interval fault)

/-- The slot of a DECIMAL with slots of kind `k`, at the scale of the view's column. -/
def scaled (k : IntKind) : Reader ScaledInt := fun view row =>
  (view.intAt k row).map fun n => ⟨n.widen .i128, view.column.scale⟩

def decimal (k : IntKind) : Reader Decimal := fun view row => do
  let stored ← scaled k view row
  stored.toDecimal.mapError fun fault => .domain (.decimal stored fault)

def string : Reader String := fun view row => do
  (Utf8.decode (← view.payloadAt row)).mapError fun fault => .domain (.utf8 fault)

def bitString : Reader BitString := fun view row => do
  (BitString.ofBlob (← view.payloadAt row)).mapError fun fault => .domain (.bit fault)

def varInt : Reader VarInt := fun view row => do
  (VarInt.ofBlob (← view.payloadAt row)).mapError fun fault => .domain (.varInt fault)

def uuid : Reader Uuid := fun view row => (view.intAt .i128 row).map Uuid.ofSlot

def bytes : Reader (List (Word .u8)) := fun view row =>
  (view.payloadAt row).map fun payload => payload.map Target.wordOfByte

/-- The code in an ENUM slot, as wide as the view's storage. -/
def code : Reader Nat := fun view row =>
  match view.column.storage with
  | .int .u8 => (view.intAt .u8 row).map fun n => n.val.toNat
  | .int .u16 => (view.intAt .u16 row).map fun n => n.val.toNat
  | .int .u32 => (view.intAt .u32 row).map fun n => n.val.toNat
  | storage => .error (.internal (.notEnumStorage storage))

/-- The name of a code; `target` is what an error says it is read as. -/
def memberName (dictionary : Array String) (target : String) : Reader (Nat × String) :=
  fun view row => do
    let n ← code view row
    match dictionary[n]? with
    | some name => .ok (n, name)
    | none => .error (.domain (.enumCode n dictionary.size target))

def enumName (dictionary : Array String) : Reader String :=
  (memberName dictionary "String").map fun found => .ok found.2

/-- The names of a dictionary with the members of the reader's enumeration that bear them. -/
def memberTable (dictionary : Array String) (members : List String) :
    Array (String × Option String) :=
  dictionary.map fun name => (name, members.find? (· == name))

/-- The member for the row's code, by a table made once for the dictionary. -/
def enumMember (dictionary : Array String) (target : String) (members : List String) :
    Reader String :=
  let table := memberTable dictionary members
  fun view row => do
    let n ← code view row
    match table[n]? with
    | some (_, some member) => .ok member
    | some (name, none) => .error (.domain (.enumMember name n target))
    | none => .error (.domain (.enumCode n dictionary.size target))

/-- The name of the row's code, if the members of a target chosen at run time have it too. -/
def enumKnown (dictionary : Array String) (target : String) (members : List String) :
    Reader String :=
  (memberName dictionary target).map fun (code, name) =>
    if members.contains name then .ok name
    else .error (.domain (.enumMember name code target))

/-- The typed reading, or the raw one when the value is outside the typed domain. -/
def orRaw {α β : Type} (typed : β → Except α Value) (raw : β → Value) (slot : β) : Value :=
  match typed slot with
  | .ok v => v
  | .error _ => raw slot

def boxedDate : Reader Value := fun view row =>
  (view.intAt .i32 row).map (orRaw (fun days => (Date.ofSlot days).map .date) .rawDate)

def boxedTime : Reader Value := fun view row =>
  (view.intAt .i64 row).map (orRaw (fun micros => (ClockTime.ofSlot micros).map .time) .rawTime)

def boxedDecimal (k : IntKind) : Reader Value := fun view row =>
  (scaled k view row).map (orRaw (fun stored => stored.toDecimal.map .decimal) .scaledInt)

def boxedTimestamp : Reader Value := fun view row => do
  let raw ← view.intAt .i64 row
  match Timestamp.clockOfSlot view.kind raw with
  | .ok clock =>
    .ok (if view.kind = .timestamp .zoned then .timestampTz (.utc clock) else .timestamp clock)
  | .error _ => (temporal (Timestamp.microsOfSlot view.kind raw)).map .rawTimestamp

/-- The typed reader of a column without children, when the column can be read so. -/
def typed? (type : LogicalType) : (t : Target) → Option (Reader t.Host)
  | .bool => match type with
    | .scalar .boolean => some bool
    | _ => none
  | .int l => match type.intSlot? with
    | some k => if l.sources.contains k then some (widened k l) else none
    | none => none
  | .float .single => match type with
    | .scalar .float => some fun view row => view.floatAt .single row
    | _ => none
  | .float .double => match type with
    | .scalar .float => some fun view row => (view.floatAt .single row).map Binary.widen
    | .scalar .double => some fun view row => view.floatAt .double row
    | .decimal width _ => some fun view row =>
      (scaled (LogicalType.decimalStorage width) view row).map ScaledInt.toDouble
    | _ => none
  | .string => match type with
    | .scalar .varchar => some string
    | .scalar .bit => some (bitString.map fun b => .ok b.text)
    | .scalar .varInt => some (varInt.map fun v => .ok v.text)
    | .enum dictionary => some (enumName dictionary)
    | _ => none
  | .date => match type with
    | .scalar .date => some date
    | _ => none
  | .time => match type with
    | .scalar .time => some time
    | _ => none
  | .dateTime => match type with
    | .scalar .date => some (date.map fun d => .ok ⟨d, ClockTime.midnight⟩)
    | .scalar (.timestamp _) => some clock
    | _ => none
  | .offsetDateTime => match type with
    | .scalar (.timestamp _) => some (clock.map fun t => .ok (OffsetDateTime.utc t))
    | _ => none
  | .duration => match type with
    | .scalar .interval => some duration
    | _ => none
  | .rawDate => match type with
    | .scalar .date => some fun view row => view.intAt .i32 row
    | _ => none
  | .rawTime => match type with
    | .scalar .time => some fun view row => view.intAt .i64 row
    | _ => none
  | .timeTz => match type with
    | .scalar .timeTz => some timeTz
    | _ => none
  | .rawTimestamp => match type with
    | .scalar (.timestamp _) => some timestampMicros
    | _ => none
  | .interval => match type with
    | .scalar .interval => some fun view row => view.intervalAt row
    | _ => none
  | .decimal => match type with
    | .decimal width _ => some (decimal (LogicalType.decimalStorage width))
    | _ => none
  | .scaledInt => match type with
    | .decimal width _ => some (scaled (LogicalType.decimalStorage width))
    | _ => none
  | .uuid => match type with
    | .scalar .uuid => some uuid
    | _ => none
  | .bitString => match type with
    | .scalar .bit => some bitString
    | _ => none
  | .varInt => match type with
    | .scalar .varInt => some varInt
    | _ => none
  | .enum name members => match type with
    | .enum dictionary => some (enumMember dictionary name members)
    | _ => none
  | _ => none

/-- The reader of optional truth values, integers and floating-point numbers, in one step from the
slot. -/
def optional? (type : LogicalType) : (t : Target) → Option (Reader (Option t.Host))
  | .bool => match type with
    | .scalar .boolean => some optionalBool
    | _ => none
  | .int l => match type.intSlot? with
    | some k => if l.sources.contains k then some (optionalWidened k l) else none
    | none => none
  | .float .single => match type with
    | .scalar .float => some fun view row => (view.floatAt .single row).map some
    | _ => none
  | .float .double => match type with
    | .scalar .float => some fun view row => (view.floatAt .single row).map fun x => some x.widen
    | .scalar .double => some fun view row => (view.floatAt .double row).map some
    | _ => none
  | _ => none

/-- The boxed reader of a column without children. -/
def boxed? : LogicalType → Option (Reader Value)
  | .scalar kind => match kind with
    | .boolean => some (bool.map fun b => .ok (.boolean b))
    | .int k => some fun view row => (view.intAt k row).map (.int k)
    | .float => some fun view row => (view.floatAt .single row).map .float
    | .double => some fun view row => (view.floatAt .double row).map .double
    | .date => some boxedDate
    | .time => some boxedTime
    | .timeTz => some (timeTz.map fun t => .ok (.timeTz t))
    | .timestamp _ => some boxedTimestamp
    | .interval => some fun view row => (view.intervalAt row).map .interval
    | .varchar => some (string.map fun s => .ok (.text s))
    | .blob => some fun view row => (view.payloadAt row).map .blob
    | .bit => some (bitString.map fun b => .ok (.bit b))
    | .varInt => some (varInt.map fun v => .ok (.varInt v))
    | .uuid => some (uuid.map fun u => .ok (.uuid u))
    | .null => some fun _ _ => .ok .null
    | _ => none
  | .decimal width _ => some (boxedDecimal (LogicalType.decimalStorage width))
  | .enum dictionary => some ((enumName dictionary).map fun name => .ok (.enum name))
  | _ => none

end Reader
end TypedColumns
