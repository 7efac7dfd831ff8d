import TypedColumns.Document.Basic

/-!
Documents of values: a record whose one field is named for the variant, or null.
-/
namespace TypedColumns

def Date.ofDocuments (year month day : Document) : Document.Parsed Date := do
  Document.found "date" (Date.ofCivil? ⟨← year.toInt, ← month.toInt, ← day.toInt⟩)

def Date.fields (d : Date) : List Document :=
  let c := d.civil
  [.int c.year, .int c.month, .int c.day]

def ClockTime.ofDocuments (hour minute second nanos : Document) : Document.Parsed ClockTime := do
  Document.found "time of day"
    (ClockTime.ofParts? (← hour.toNat) (← minute.toNat) (← second.toNat) (← nanos.toNat))

def ClockTime.fields (t : ClockTime) : List Document :=
  [.ofNat t.hour, .ofNat t.minute, .ofNat t.second, .ofNat t.subsecond]

def DateTime.fields (t : DateTime) : List Document := t.date.fields ++ t.time.fields

def OffsetDateTime.ofDocument : Document → Document.Parsed OffsetDateTime
  | .list [year, month, day, hour, minute, second, nanos, offset] => do
    let date ← Date.ofDocuments year month day
    let time ← ClockTime.ofDocuments hour minute second nanos
    let offset ← Document.found "offset" (UtcOffset.ofSeconds? (← offset.toInt))
    return ⟨⟨date, time⟩, offset⟩
  | _ => Document.malformed "zoned date-time"

def Uuid.ofDocument (d : Document) : Document.Parsed Uuid := do
  let digits := (← d.toText).toList.filter (· != '-')
  return ⟨← Document.found "UUID" (Word.ofInt? .u128 (← Document.hexNumber digits))⟩

def BitString.ofDocument (d : Document) : Document.Parsed BitString := do
  Document.accept ((ofBlob (← d.toBytes)).mapError fun fault => .domain (.bit fault))

def VarInt.ofDocument (d : Document) : Document.Parsed VarInt := do
  Document.accept ((ofBlob (← d.toBytes)).mapError fun fault => .domain (.varInt fault))

namespace Value

mutual

def content : Value → Document
  | null => .null
  | boolean b => .bool b
  | int _ n => .ofWord n
  | float x => .ofFloat x
  | double x => .ofFloat x
  | decimal d => .list [.ofWide d.mantissa, .ofNat d.scale]
  | scaledInt d => .list [.ofWord d.value, .ofNat d.scale]
  | date d => .list d.fields
  | rawDate days => .ofWord days
  | time t => .list t.fields
  | rawTime micros => .ofWord micros
  | timeTz t => .list [.ofWord t.micros, .ofWord t.offset]
  | timestamp t => .list t.fields
  | timestampTz t => .list (t.clock.fields ++ [.int t.offset.seconds])
  | rawTimestamp micros => .ofWord micros
  | interval i => .list [.ofWord i.months, .ofWord i.days, .ofWord i.micros]
  | duration d => .list [.ofWide d.wholeSeconds, .int d.subsecond]
  | uuid u => .text u.text
  | text s => .text s
  | blob bytes => .ofBytes bytes
  | bit b => .ofBytes b.toBlob
  | varInt v => .ofBytes v.toBlob
  | enum name => .text name
  | list items => .list (itemDocuments items)
  | struct members => .list (memberDocuments members)
  | map entries => .list (entryDocuments entries)

def document : Value → Document
  | null => .null
  | v => .record [(v.variant, v.content)]

def itemDocuments : List Value → List Document
  | [] => []
  | v :: rest => v.document :: itemDocuments rest

def memberDocuments : List (String × Value) → List Document
  | [] => []
  | (name, v) :: rest => .list [.text name, v.document] :: memberDocuments rest

def entryDocuments : List (Value × Value) → List Document
  | [] => []
  | (key, v) :: rest => .list [key.document, v.document] :: entryDocuments rest

end

/-- A value without parts, of the variant `tag`. -/
def leafOfDocument (tag : String) (d : Document) : Document.Parsed Value :=
  match tag, d with
  | "Boolean", d => d.toBool.map .boolean
  | "Float", d => (d.toFloat .single).map .float
  | "Double", d => (d.toFloat .double).map .double
  | "Decimal", .list [mantissa, scale] => do
    let stored := Decimal.ofScaled (← mantissa.toInt) (← scale.toNat)
    return .decimal (← Document.found "decimal" stored.toOption)
  | "RawDecimal", .list [value, scale] =>
    return .scaledInt ⟨← value.toWord .i128, ← scale.toNat⟩
  | "Date", .list [year, month, day] => (Date.ofDocuments year month day).map .date
  | "RawDate", d => (d.toWord .i32).map .rawDate
  | "Time", .list [hour, minute, second, nanos] =>
    (ClockTime.ofDocuments hour minute second nanos).map .time
  | "RawTime", d => (d.toWord .i64).map .rawTime
  | "TimeTz", .list [micros, offset] =>
    return .timeTz ⟨← micros.toWord .i64, ← offset.toWord .i32⟩
  | "Timestamp", .list [year, month, day, hour, minute, second, nanos] =>
    return .timestamp ⟨← Date.ofDocuments year month day,
      ← ClockTime.ofDocuments hour minute second nanos⟩
  | "TimestampTz", d => (OffsetDateTime.ofDocument d).map .timestampTz
  | "RawTimestamp", d => (d.toWord .i64).map .rawTimestamp
  | "Interval", .list [months, days, micros] =>
    return .interval ⟨← months.toWord .i32, ← days.toWord .i32, ← micros.toWord .i64⟩
  | "Duration", .list [seconds, nanos] =>
    return .duration (.ofParts (← seconds.toInt) (← nanos.toInt))
  | "Uuid", d => (Uuid.ofDocument d).map .uuid
  | "Text", d => d.toText.map .text
  | "Enum", d => d.toText.map .enum
  | "Blob", d => d.toBytes.map .blob
  | "Bit", d => (BitString.ofDocument d).map .bit
  | "VarInt", d => (VarInt.ofDocument d).map .varInt
  | tag, d => match IntKind.all.find? fun k => (Kind.int k).tag == tag with
    | some k => (d.toWord k).map (.int k)
    | none => Document.malformed "value"

mutual

def ofDocument : Document → Document.Parsed Value
  | .null => return .null
  | .record [("List", .list items)] => return .list (← itemsOfDocuments items)
  | .record [("Struct", .list members)] => return .struct (← membersOfDocuments members)
  | .record [("Map", .list entries)] => return .map (← entriesOfDocuments entries)
  | .record [(tag, d)] => leafOfDocument tag d
  | _ => Document.malformed "value"

def itemsOfDocuments : List Document → Document.Parsed (List Value)
  | [] => return []
  | d :: rest => return (← ofDocument d) :: (← itemsOfDocuments rest)

def membersOfDocuments : List Document → Document.Parsed (List (String × Value))
  | [] => return []
  | .list [.text name, d] :: rest =>
    return (name, ← ofDocument d) :: (← membersOfDocuments rest)
  | _ => Document.malformed "member"

def entriesOfDocuments : List Document → Document.Parsed (List (Value × Value))
  | [] => return []
  | .list [key, d] :: rest =>
    return (← ofDocument key, ← ofDocument d) :: (← entriesOfDocuments rest)
  | _ => Document.malformed "entry"

end

end Value
end TypedColumns
