import TypedColumns.Native.Vector

/-!
Vectors from values. Each kind takes the values that its columns are read as, and raw forms beside
them: integers for codes and mantissas, days, microseconds and unscaled decimals.
-/
namespace TypedColumns

namespace LogicalType

def unexpected (type : LogicalType) (v : Value) : Error :=
  .argument (.unexpectedValue v.variant type.kind)

def doesNotFit (type : LogicalType) (v : Value) : Error := .argument (.doesNotFit v type.kind)

/-- The slot of an integer; `v` is what an error names. -/
def intSlot (type : LogicalType) (k : IntKind) (n : Int) (v : Value) : Result (List UInt8) :=
  match Word.ofInt? k n with
  | some w => .ok w.toBytes
  | none => .error (type.doesNotFit v)

def intOf (type : LogicalType) (v : Value) : Result Int :=
  match v.int? with
  | some n => .ok n.val
  | none => .error (type.unexpected v)

/-- The mantissa at the column's scale; an unscaled decimal has to be of that scale already. -/
def mantissaOf (type : LogicalType) (scale : Nat) (v : Value) : Result Int :=
  match v with
  | .scaledInt d => if d.scale = scale then .ok d.value.val else .error (type.unexpected v)
  | .decimal d => .ok (d.rescaled scale)
  | v => type.intOf v

/-- The position of a name, or a code as it is. -/
def codeOf (type : LogicalType) (dictionary : Array String) (v : Value) : Result Int :=
  match v.string? with
  | some name =>
    match dictionary.idxOf? name with
    | some code => .ok code
    | none => .error (.argument (.notAMember name))
  | none => type.intOf v

/-- Nanoseconds since the epoch, or the slot of an infinity. -/
def timestampSlot (type : LogicalType) (unit : TimestampUnit) (v : Value) : Result (List UInt8) :=
  let slotAt (nanos : Int) := type.intSlot .i64 (nanos / unit.nanoseconds) v
  match v with
  | .timestamp t => slotAt t.nanos
  | .timestampTz t => slotAt t.instant
  | .rawTimestamp micros =>
    if Timestamp.slotFinite micros then slotAt (micros.val * 1000) else .ok micros.toBytes
  | _ => .error (type.unexpected v)

/-- Microseconds and offset in one slot. -/
def packedSlot (t : TimeTz) : Result (List UInt8) :=
  match t.toBits? with
  | some bits => .ok bits.toBytes
  | none => .error (.panic (.offsetOverflow t.offset.val))

/-- The slot of a value that is there. -/
def slotOf (type : LogicalType) (v : Value) : Result (List UInt8) :=
  match type with
  | decimal width scale => do type.intSlot (decimalStorage width) (← type.mantissaOf scale v) v
  | enum dictionary => do type.intSlot (enumStorage dictionary.size) (← type.codeOf dictionary v) v
  | scalar kind =>
    match kind, v with
    | .boolean, .boolean b => .ok [if b then 1 else 0]
    | .float, .float x => .ok x.toBytes
    | .double, .double x => .ok x.toBytes
    | .double, .float x => .ok x.widen.toBytes
    | .int .u128, .int .u128 n => .ok n.toBytes
    | .int k, v => do type.intSlot k (← type.intOf v) v
    | .date, .date d => .ok d.toSlot.toBytes
    | .date, .rawDate days => .ok days.toBytes
    | .time, .time t => .ok t.toSlot.toBytes
    | .time, .rawTime micros => .ok micros.toBytes
    | .timeTz, .timeTz t => packedSlot t
    | .timestamp unit, v => type.timestampSlot unit v
    | .interval, .interval i => .ok (i.months.toBytes ++ i.days.toBytes ++ i.micros.toBytes)
    | .uuid, .uuid u => .ok u.toSlot.toBytes
    | _, v => .error (type.unexpected v)
  | _ => .error (type.unexpected v)

/-- The bytes that a string-like column stores for a value that is there. -/
def payloadOf (type : LogicalType) (v : Value) : Result (List UInt8) :=
  match type.kind, v with
  | .varchar, .text s => .ok (Utf8.encode s)
  | .blob, .blob bytes => .ok bytes
  | .bit, .bit b => .ok b.toBlob
  | .varInt, .varInt n => .ok n.toBlob
  | .varInt, v => (type.intOf v).map fun n => (VarInt.mk n).toBlob
  | _, v => .error (type.unexpected v)

/-- Applies `f` to every value that is there, in row order, up to the first error. -/
def mapPresent {α : Type} (f : Value → Result α) (rows : List Value) : Result (List (Option α)) :=
  rows.mapM fun v => if v.isNull then .ok none else (f v).map some

/-- Entries one after another for rows of the given lengths. -/
def consecutive : (offset : Nat) → (lengths : List Nat) → List ListEntry
  | _, [] => []
  | offset, n :: rest =>
    ⟨.wrap .u64 offset, .wrap .u64 n⟩ :: consecutive (offset + n) rest

def itemsOf (type : LogicalType) (v : Value) : Result (List Value) :=
  match v.items? with
  | some items => .ok items
  | none => .error (type.unexpected v)

def entriesOf (type : LogicalType) (v : Value) : Result (List (Value × Value)) :=
  match v.entries? with
  | some entries => .ok entries
  | none => .error (type.unexpected v)

/-- The elements of a row of exactly `size`; a missing row has missing elements. -/
def arrayItemsOf (type : LogicalType) (size : Nat) (v : Value) : Result (List Value) :=
  match v with
  | .null => .ok (List.replicate size .null)
  | .list items => if items.length = size then .ok items else .error (type.unexpected v)
  | v => .error (type.unexpected v)

/-- One value for each member; member names are not compared. -/
def memberValuesOf (type : LogicalType) (count : Nat) (v : Value) : Result (List Value) :=
  match v with
  | .null => .ok (List.replicate count .null)
  | .struct members =>
    if members.length = count then .ok (members.map Prod.snd) else .error (type.unexpected v)
  | v => .error (type.unexpected v)

/-- The tag of the first alternative of the given name, then one value for each alternative. -/
def alternativeValuesOf (type : LogicalType) (names : List String) (v : Value) :
    Result (List Value) :=
  match v with
  | .null => .ok (List.replicate (names.length + 1) .null)
  | .struct [(name, chosen)] =>
    match names.idxOf? name with
    | some tag =>
      .ok (.int .u8 (.wrap .u8 tag) :: (List.replicate names.length Value.null).set tag chosen)
    | none => .error (type.unexpected v)
  | v => .error (type.unexpected v)

def present (rows : List Value) : Option Bitmap := Bitmap.ofFlags (rows.map fun v => !v.isNull)

end LogicalType

namespace NativeVector

open LogicalType

/-- A vector of slots, zero for missing rows. -/
def ofSlotValues (type : LogicalType) (rows : List Value) : Result NativeVector := do
  let width := type.storage.slotWidth?.getD 0
  let slots ← mapPresent type.slotOf rows
  let bytes := slots.map fun slot => slot.getD (List.replicate width 0)
  ofSlots type rows.length bytes.flatten (present rows)

def ofPayloadValues (type : LogicalType) (rows : List Value) : Result NativeVector := do
  ofPayloads type (← mapPresent type.payloadOf rows)

mutual

/-- The vector of `rows`; a null value is a missing row. -/
def ofValues : LogicalType → List Value → Result NativeVector
  | .scalar kind, rows =>
    match (LogicalType.scalar kind).check with
    | .error fault => .error (.native (.type fault))
    | .ok () =>
      if kind = .null then .ok (nulls rows.length)
      else if kind.isStringLike then ofPayloadValues (.scalar kind) rows
      else ofSlotValues (.scalar kind) rows
  | .decimal width scale, rows =>
    match (LogicalType.decimal width scale).check with
    | .error fault => .error (.native (.type fault))
    | .ok () => ofSlotValues (.decimal width scale) rows
  | .enum dictionary, rows =>
    match (LogicalType.enum dictionary).check with
    | .error fault => .error (.native (.type fault))
    | .ok () => ofSlotValues (.enum dictionary) rows
  | .list child, rows =>
    match child.check with
    | .error fault => .error (.native (.type fault))
    | .ok () => do
      let items := (← mapPresent (itemsOf (.list child)) rows).map (·.getD [])
      let vector ← ofValues child items.flatten
      let entries := consecutive 0 (items.map List.length)
      ofListParts (.list child) entries (present rows) vector vector.rows
  | .map key value, rows =>
    match (LogicalType.map key value).check with
    | .error fault => .error (.native (.type fault))
    | .ok () => do
      let items := (← mapPresent (entriesOf (.map key value)) rows).map (·.getD [])
      let pairs := items.flatten
      let keys ← ofValues key (pairs.map Prod.fst)
      let values ← ofValues value (pairs.map Prod.snd)
      let vector ← ofStructParts (LogicalType.entry key value) pairs.length none [keys, values]
      let entries := consecutive 0 (items.map List.length)
      ofListParts (.map key value) entries (present rows) vector pairs.length
  | .array child size, rows =>
    match child.check with
    | .error fault => .error (.native (.type fault))
    | .ok () => do
      let items ← rows.mapM (arrayItemsOf (.array child size) size)
      let vector ← ofValues child items.flatten
      ofArrayParts (.array child size) rows.length (present rows) vector
  | .struct members, rows =>
    match (LogicalType.struct members).check with
    | .error fault => .error (.native (.type fault))
    | .ok () => do
      let cells ← rows.mapM (memberValuesOf (.struct members) members.length)
      let vectors ← ofColumns members cells
      ofStructParts (.struct members) rows.length (present rows) vectors
  | .union alternatives, rows =>
    match (LogicalType.union alternatives).check with
    | .error fault => .error (.native (.type fault))
    | .ok () => do
      let names := alternatives.map Prod.fst
      let cells ← rows.mapM (alternativeValuesOf (.union alternatives) names)
      let tags ← ofSlotValues (.scalar (.int .u8)) (cells.map fun row => row.headD .null)
      let vectors ← ofColumns alternatives (cells.map List.tail)
      ofStructParts (.union alternatives) rows.length (present rows) (tags :: vectors)

/-- One vector for each member, from one row of cells after another. -/
def ofColumns : List (String × LogicalType) → List (List Value) → Result (List NativeVector)
  | [], _ => .ok []
  | (_, type) :: rest, cells => do
    let vector ← ofValues type (cells.map fun row => row.headD .null)
    let vectors ← ofColumns rest (cells.map List.tail)
    return vector :: vectors

end

end NativeVector
end TypedColumns
