import TypedColumns.Float.Binary
import TypedColumns.Number.Word
import TypedColumns.Text.Quoted

/-!
Arrow data types and their texts in messages.
-/
namespace TypedColumns.Arrow

inductive TimeUnit where
  | second | millisecond | microsecond | nanosecond
deriving DecidableEq, Inhabited

namespace TimeUnit

def nanoseconds : TimeUnit → Int
  | second => 1000000000
  | millisecond => 1000000
  | microsecond => 1000
  | nanosecond => 1

def text : TimeUnit → String
  | second => "Second"
  | millisecond => "Millisecond"
  | microsecond => "Microsecond"
  | nanosecond => "Nanosecond"

end TimeUnit

inductive IntervalUnit where
  | yearMonth | dayTime | monthDayNano
deriving DecidableEq, Inhabited

def IntervalUnit.text : IntervalUnit → String
  | yearMonth => "YearMonth"
  | dayTime => "DayTime"
  | monthDayNano => "MonthDayNano"

/-- How an array of byte strings refers to its bytes. -/
inductive Layout where
  | offsets32 | offsets64 | views
deriving DecidableEq, Inhabited

inductive DataType where
  | null | boolean | int (k : IntKind) | float16 | float (f : FloatFormat)
  | utf8 (layout : Layout) | binary (layout : Layout) | fixedBinary (size : Int)
  | date32 | date64 | time32 (unit : TimeUnit) | time64 (unit : TimeUnit)
  | timestamp (unit : TimeUnit) (zone : Option String)
  | duration (unit : TimeUnit) | interval (unit : IntervalUnit)
  | decimal128 (precision : Nat) (scale : Int) | decimal256 (precision : Nat) (scale : Int)
  | list (large : Bool) (name : String) (item : DataType)
  | fixedList (name : String) (item : DataType) (size : Int)
  | struct (fields : List (String × DataType))
  | map (name : String) (entries : DataType)
  | dictionary (key content : DataType)
  /-- A type of any other kind, by its text, and the types inside of it. -/
  | foreign (text : String) (inside : List DataType)

namespace DataType

instance : Inhabited DataType := ⟨null⟩

def intText : IntKind → String
  | .i8 => "Int8"
  | .i16 => "Int16"
  | .i32 => "Int32"
  | .i64 => "Int64"
  | .i128 => "Int128"
  | .u8 => "UInt8"
  | .u16 => "UInt16"
  | .u32 => "UInt32"
  | .u64 => "UInt64"
  | .u128 => "UInt128"

def layoutText (name : String) : Layout → String
  | .offsets32 => name
  | .offsets64 => "Large" ++ name
  | .views => name ++ "View"

def zoneText : Option String → String
  | none => "None"
  | some zone => "Some(" ++ Quoted.encode zone ++ ")"

/-- A child field. Of its attributes only the name, the type and the nullability vary. -/
def fieldText (nullable : Bool) (name item : String) : String :=
  "Field \x7b name: " ++ Quoted.encode name ++ ", data_type: " ++ item ++
    s!", nullable: {nullable}, dict_id: 0, dict_is_ordered: false, metadata: \x7b\x7d \x7d"

mutual

/-- Text of a type inside the text of another one. The entries of a map are never missing. -/
def describe : DataType → String
  | null => "Null"
  | boolean => "Boolean"
  | int k => intText k
  | float16 => "Float16"
  | float .single => "Float32"
  | float .double => "Float64"
  | utf8 layout => layoutText "Utf8" layout
  | binary layout => layoutText "Binary" layout
  | fixedBinary size => s!"FixedSizeBinary({size})"
  | date32 => "Date32"
  | date64 => "Date64"
  | time32 unit => "Time32(" ++ unit.text ++ ")"
  | time64 unit => "Time64(" ++ unit.text ++ ")"
  | timestamp unit zone => "Timestamp(" ++ unit.text ++ ", " ++ zoneText zone ++ ")"
  | duration unit => "Duration(" ++ unit.text ++ ")"
  | interval unit => "Interval(" ++ unit.text ++ ")"
  | decimal128 precision scale => s!"Decimal128({precision}, {scale})"
  | decimal256 precision scale => s!"Decimal256({precision}, {scale})"
  | list false name item => "List(" ++ fieldText true name item.describe ++ ")"
  | list true name item => "LargeList(" ++ fieldText true name item.describe ++ ")"
  | fixedList name item size =>
    "FixedSizeList(" ++ fieldText true name item.describe ++ s!", {size})"
  | struct fields => "Struct(" ++ Quoted.sequence (describeFields fields) ++ ")"
  | map name entries => "Map(" ++ fieldText false name entries.describe ++ ", false)"
  | dictionary key content => "Dictionary(" ++ key.describe ++ ", " ++ content.describe ++ ")"
  | foreign text _ => text

def describeFields : List (String × DataType) → List String
  | [] => []
  | (name, type) :: rest => fieldText true name type.describe :: describeFields rest

end

mutual

/-- Text of a type in a message: a struct lists its fields by name. -/
def text : DataType → String
  | struct fields => "Struct(" ++ String.intercalate ", " (fieldTexts fields) ++ ")"
  | type => type.describe

def fieldTexts : List (String × DataType) → List String
  | [] => []
  | (name, type) :: rest => (name ++ " " ++ type.text) :: fieldTexts rest

end

end DataType
end TypedColumns.Arrow
