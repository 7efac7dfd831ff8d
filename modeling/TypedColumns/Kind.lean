import TypedColumns.Number.Word

/-!
Column kinds: engine type codes, SQL names and slot widths. The kind of a column says what its
values mean; its storage is the kind whose slots hold them.
-/
namespace TypedColumns

/-- Units of timestamp slots; `zoned` counts microseconds in UTC. -/
inductive TimestampUnit where
  | seconds | millis | micros | nanos | zoned
deriving DecidableEq, Inhabited

/-- Nanoseconds in one step of a slot. -/
def TimestampUnit.nanoseconds : TimestampUnit → Int
  | seconds => 1000000000
  | millis => 1000000
  | micros | zoned => 1000
  | nanos => 1

inductive Kind where
  | invalid | boolean | int (k : IntKind) | float | double
  | date | time | timeTz | timestamp (unit : TimestampUnit) | interval
  | varchar | blob | bit | varInt | uuid | decimal | enum
  | list | array | struct | map | union | any | null
deriving DecidableEq, Inhabited

namespace Kind

/-- Every kind, ordered by type code. -/
def all : List Kind :=
  [invalid, boolean, int .i8, int .i16, int .i32, int .i64, int .u8, int .u16, int .u32, int .u64,
    float, double, timestamp .micros, date, time, interval, int .i128, varchar, blob, decimal,
    timestamp .seconds, timestamp .millis, timestamp .nanos, enum, list, struct, map, uuid, union,
    bit, timeTz, timestamp .zoned, int .u128, array, any, varInt, null]

def ofCode? (code : Nat) : Option Kind := all[code]?

def code (kind : Kind) : Nat := all.idxOf kind

theorem mem_all (kind : Kind) : kind ∈ all := by
  cases kind with
  | int k => cases k <;> decide
  | timestamp u => cases u <;> decide
  | _ => decide

theorem ofCode?_code (kind : Kind) : ofCode? kind.code = some kind := by
  cases kind with
  | int k => cases k <;> rfl
  | timestamp u => cases u <;> rfl
  | _ => rfl

/-- SQL spelling. -/
def name : Kind → String
  | invalid => "INVALID"
  | boolean => "BOOLEAN"
  | int .i8 => "TINYINT"
  | int .i16 => "SMALLINT"
  | int .i32 => "INTEGER"
  | int .i64 => "BIGINT"
  | int .i128 => "HUGEINT"
  | int .u8 => "UTINYINT"
  | int .u16 => "USMALLINT"
  | int .u32 => "UINTEGER"
  | int .u64 => "UBIGINT"
  | int .u128 => "UHUGEINT"
  | float => "FLOAT"
  | double => "DOUBLE"
  | date => "DATE"
  | time => "TIME"
  | timeTz => "TIME WITH TIME ZONE"
  | timestamp .seconds => "TIMESTAMP_S"
  | timestamp .millis => "TIMESTAMP_MS"
  | timestamp .micros => "TIMESTAMP"
  | timestamp .nanos => "TIMESTAMP_NS"
  | timestamp .zoned => "TIMESTAMP WITH TIME ZONE"
  | interval => "INTERVAL"
  | varchar => "VARCHAR"
  | blob => "BLOB"
  | bit => "BIT"
  | varInt => "VARINT"
  | uuid => "UUID"
  | decimal => "DECIMAL"
  | enum => "ENUM"
  | list => "LIST"
  | array => "ARRAY"
  | struct => "STRUCT"
  | map => "MAP"
  | union => "UNION"
  | any => "ANY"
  | null => "NULL"

def ofName? (name : String) : Option Kind := all.find? fun kind => kind.name == name

/-- Spelling inside type descriptions. -/
def tag : Kind → String
  | invalid => "Invalid"
  | boolean => "Boolean"
  | int .i8 => "TinyInt"
  | int .i16 => "SmallInt"
  | int .i32 => "Integer"
  | int .i64 => "BigInt"
  | int .i128 => "HugeInt"
  | int .u8 => "UTinyInt"
  | int .u16 => "USmallInt"
  | int .u32 => "UInteger"
  | int .u64 => "UBigInt"
  | int .u128 => "UHugeInt"
  | float => "Float"
  | double => "Double"
  | date => "Date"
  | time => "Time"
  | timeTz => "TimeTz"
  | timestamp .seconds => "TimestampS"
  | timestamp .millis => "TimestampMs"
  | timestamp .micros => "Timestamp"
  | timestamp .nanos => "TimestampNs"
  | timestamp .zoned => "TimestampTz"
  | interval => "Interval"
  | varchar => "Varchar"
  | blob => "Blob"
  | bit => "Bit"
  | varInt => "VarInt"
  | uuid => "Uuid"
  | decimal => "Decimal"
  | enum => "Enum"
  | list => "List"
  | array => "Array"
  | struct => "Struct"
  | map => "Map"
  | union => "Union"
  | any => "Any"
  | null => "SqlNull"

/-- Bytes of one slot, or `none` for kinds that have no slots of their own: the values of a DECIMAL
or ENUM sit in slots of the storage kind, those of a STRUCT, UNION or ARRAY in other vectors. -/
def slotWidth? : Kind → Option Nat
  | boolean => some 1
  | int k => some k.bytes
  | float | date => some 4
  | double | time | timeTz | timestamp _ => some 8
  | interval | varchar | blob | bit | varInt | uuid | list | map => some 16
  | null => some 0
  | decimal | enum | struct | union | array | invalid | any => none

/-- Slots hold a plain number. -/
def isNumeric : Kind → Bool
  | int _ | float | double => true
  | _ => false

/-- Values sit in child vectors. -/
def isNested : Kind → Bool
  | list | array | struct | map | union => true
  | _ => false

/-- Slots are references to byte strings. -/
def isStringLike : Kind → Bool
  | varchar | blob | bit | varInt => true
  | _ => false

def isTimestamp : Kind → Bool
  | timestamp _ => true
  | _ => false

end Kind
end TypedColumns
