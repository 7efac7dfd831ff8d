import TypedColumns.Float.Binary
import TypedColumns.Number.Word
import TypedColumns.Text.Quoted

/-!
The types that column elements can be read as, with the spellings that messages use.
-/
namespace TypedColumns

inductive Target where
  | bool | int (k : IntKind) | float (f : FloatFormat) | string
  | date | time | dateTime | offsetDateTime | duration
  /-- Raw readings of temporal slots, for values off the calendar. -/
  | rawDate | rawTime | timeTz | rawTimestamp | interval
  | decimal | scaledInt | uuid | bitString | varInt
  /-- An enumeration of the reader, by its member names. -/
  | enum (name : String) (members : List String)
  | list (element : Target) | fixedList (element : Target) | map (k v : Target)
  | struct
  /-- Pairs in stored order, repeated keys included. -/
  | pairs
  | option (inner : Target)
  /-- Any element, in the variant of its column. -/
  | value
deriving DecidableEq, Inhabited

namespace Target

/-- The type has a value of its own for a missing element. -/
def isNullable : Target → Bool
  | option _ | value => true
  | _ => false

/-- Without one layer of `option`. -/
def stripOption : Target → Target
  | option inner => inner
  | target => target

def intName : IntKind → String
  | .i8 => "i8"
  | .i16 => "i16"
  | .i32 => "i32"
  | .i64 => "i64"
  | .i128 => "i128"
  | .u8 => "u8"
  | .u16 => "u16"
  | .u32 => "u32"
  | .u64 => "u64"
  | .u128 => "u128"

def floatName : FloatFormat → String
  | .single => "f32"
  | .double => "f64"

def text : Target → String
  | bool => "bool"
  | int k => intName k
  | float f => floatName f
  | string => "String"
  | date => "time::Date"
  | time => "time::Time"
  | dateTime => "time::PrimitiveDateTime"
  | offsetDateTime => "time::OffsetDateTime"
  | duration => "time::Duration"
  | rawDate => "DateValue"
  | rawTime => "TimeValue"
  | timeTz => "TimeTzValue"
  | rawTimestamp => "TimestampValue"
  | interval => "IntervalValue"
  | decimal => "rust_decimal::Decimal"
  | scaledInt => "DecimalValue"
  | uuid => "uuid::Uuid"
  | bitString => "BitString"
  | varInt => "VarInt"
  | enum name _ => name
  | list element => "Vec<" ++ element.text ++ ">"
  | fixedList element => "Box<[" ++ element.text ++ "]>"
  | map k v => "HashMap<" ++ k.text ++ ", " ++ v.text ++ ">"
  | struct => "StructValue"
  | pairs => "MapValue"
  | option inner => "Option<" ++ inner.text ++ ">"
  | value => "Value"

/-- Description inside the description of a converter. -/
def describe : Target → String
  | bool => "Bool"
  | int k => (intName k).capitalize
  | float f => (floatName f).capitalize
  | string => "String"
  | date => "Date"
  | time => "Time"
  | dateTime => "DateTime"
  | offsetDateTime => "OffsetDateTime"
  | duration => "Duration"
  | rawDate => "DateValue"
  | rawTime => "TimeValue"
  | timeTz => "TimeTzValue"
  | rawTimestamp => "TimestampValue"
  | interval => "IntervalValue"
  | decimal => "Decimal"
  | scaledInt => "DecimalValue"
  | uuid => "Uuid"
  | bitString => "BitString"
  | varInt => "VarInt"
  | enum name members => "Enum \x7b name: " ++ Quoted.encode name ++ ", members: " ++
      Quoted.sequence (members.map Quoted.encode) ++ " \x7d"
  | list element => "List(" ++ element.describe ++ ")"
  | fixedList element => "FixedList(" ++ element.describe ++ ")"
  | map k v => "Map(" ++ k.describe ++ ", " ++ v.describe ++ ")"
  | struct => "Struct"
  | pairs => "MapValue"
  | option inner => "Optional(" ++ inner.describe ++ ")"
  | value => "Value"

end Target
end TypedColumns
