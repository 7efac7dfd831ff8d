import TypedColumns.Arrow.DataType
import TypedColumns.Document.Basic

/-!
Documents of Arrow data types: a name, or a record of one field for a type with parameters. Fields
are pairs of a name and a type.
-/
namespace TypedColumns.Arrow

def TimeUnit.ofDocument : Document → Document.Parsed TimeUnit
  | .text "s" => return second
  | .text "ms" => return millisecond
  | .text "us" => return microsecond
  | .text "ns" => return nanosecond
  | _ => Document.malformed "unit"

namespace DataType

def leaves : List DataType :=
  [null, boolean, float16, date32, date64] ++ [FloatFormat.single, .double].map float ++
    [IntKind.i8, .i16, .i32, .i64, .u8, .u16, .u32, .u64].map int ++
    [Layout.offsets32, .offsets64, .views].flatMap fun layout => [utf8 layout, binary layout]

/-- A type with parameters but no children, named `tag`. -/
def parametricOfDocument (tag : String) (d : Document) : Document.Parsed DataType :=
  match tag, d with
  | "FixedSizeBinary", d => d.toInt.map fixedBinary
  | "Time32", d => (TimeUnit.ofDocument d).map time32
  | "Time64", d => (TimeUnit.ofDocument d).map time64
  | "Duration", d => (TimeUnit.ofDocument d).map duration
  | "Timestamp", .list [unit, zone] =>
    return timestamp (← TimeUnit.ofDocument unit) (← zone.toOption Document.toText)
  | "Interval", .text "ym" => return interval .yearMonth
  | "Interval", .text "dt" => return interval .dayTime
  | "Interval", .text "mdn" => return interval .monthDayNano
  | "Decimal128", .list [precision, scale] =>
    return decimal128 (← precision.toNat) (← scale.toInt)
  | "Decimal256", .list [precision, scale] =>
    return decimal256 (← precision.toNat) (← scale.toInt)
  | _, _ => Document.malformed "data type"

mutual

def ofDocument : Document → Document.Parsed DataType
  | .text name => Document.found "data type" (leaves.find? fun type => type.text == name)
  | .record [("List", .list [.text name, item])] => return list false name (← ofDocument item)
  | .record [("LargeList", .list [.text name, item])] => return list true name (← ofDocument item)
  | .record [("FixedSizeList", .list [.list [.text name, item], size])] =>
    return fixedList name (← ofDocument item) (← size.toInt)
  | .record [("Struct", .list fields)] => return struct (← fieldsOfDocuments fields)
  | .record [("Map", .list [.text name, entries])] => return map name (← ofDocument entries)
  | .record [("Dictionary", .list [key, content])] =>
    return dictionary (← ofDocument key) (← ofDocument content)
  | .record [(tag, d)] => parametricOfDocument tag d
  | _ => Document.malformed "data type"

def fieldsOfDocuments : List Document → Document.Parsed (List (String × DataType))
  | [] => return []
  | .list [.text name, type] :: rest =>
    return (name, ← ofDocument type) :: (← fieldsOfDocuments rest)
  | _ => Document.malformed "field"

end

end DataType
end TypedColumns.Arrow
