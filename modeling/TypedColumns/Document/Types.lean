import TypedColumns.Compatibility
import TypedColumns.Document.Basic

/-!
Documents of kinds, column types and targets. A kind is written by its name, a type with parameters
as a record of one field, and a long dictionary by its ends.
-/
namespace TypedColumns

namespace Kind

def document (kind : Kind) : Document := .text kind.name

def ofDocument (d : Document) : Document.Parsed Kind := do
  Document.found "kind" (ofName? (← d.toText))

end Kind

namespace LogicalType

/-- Names in a dictionary that is written out. -/
def writtenNames : Nat := 64

def dictionaryDocument (names : Array String) : Document :=
  if names.size ≤ writtenNames then .record [("enum", .ofTexts names.toList)]
  else .record [("enum_large", .list
    [.ofNat names.size, .text (names[0]?.getD ""), .text (names.back?.getD "")])]

mutual

def document : LogicalType → Document
  | scalar kind => kind.document
  | decimal width scale => .record [("decimal", .list [.ofNat width, .ofNat scale])]
  | enum names => dictionaryDocument names
  | list child => .record [("list", child.document)]
  | array child size => .record [("array", .list [child.document, .ofNat size])]
  | struct members => .record [("struct", .list (memberDocuments members))]
  | map key value => .record [("map", .list [key.document, value.document])]
  | union alternatives => .record [("union", .list (memberDocuments alternatives))]

def memberDocuments : List (String × LogicalType) → List Document
  | [] => []
  | (name, type) :: rest => .list [.text name, type.document] :: memberDocuments rest

end

/-- Names that differ in a number at their end. -/
def numberedNames (stem : String) (count : Nat) : Array String :=
  (Array.range count).map fun i => stem ++ toString i

mutual

def ofDocument : Document → Document.Parsed LogicalType
  | .text name => return .scalar (← Kind.ofDocument (.text name))
  | .record [("decimal", .list [width, scale])] =>
    return .decimal (← width.toNat) (← scale.toNat)
  | .record [("enum", .list names)] => return .enum (← names.mapM Document.toText).toArray
  | .record [("enum_gen", range)] => do
    let stem ← (← range.field "prefix").toText
    return .enum (numberedNames stem (← (← range.field "count").toNat))
  | .record [("list", child)] => return .list (← ofDocument child)
  | .record [("array", .list [child, size])] => return .array (← ofDocument child) (← size.toNat)
  | .record [("struct", .list members)] => return .struct (← membersOfDocuments members)
  | .record [("map", .list [key, value])] =>
    return .map (← ofDocument key) (← ofDocument value)
  | .record [("union", .list members)] => return .union (← membersOfDocuments members)
  | _ => Document.malformed "column type"

def membersOfDocuments : List Document → Document.Parsed (List (String × LogicalType))
  | [] => return []
  | .list [.text name, type] :: rest =>
    return (name, ← ofDocument type) :: (← membersOfDocuments rest)
  | _ => Document.malformed "member"

end

end LogicalType

namespace Target

/-- The types without parameters. -/
def leaves : List Target :=
  [bool, float .single, float .double, string, date, time, dateTime, offsetDateTime, duration,
    rawDate, rawTime, timeTz, rawTimestamp, interval, decimal, scaledInt, uuid, bitString, varInt,
    struct, pairs, value] ++ IntKind.all.map int

def document (t : Target) : Document := .text t.text

/-- Types without parameters and the types in `named` are written by their texts. -/
def ofDocument (named : List Target) : Document → Document.Parsed Target
  | .text name => Document.found "target" ((leaves ++ named).find? fun t => t.text == name)
  | .record [("list", element)] => return .list (← ofDocument named element)
  | .record [("fixed", element)] => return .fixedList (← ofDocument named element)
  | .record [("opt", inner)] => return .option (← ofDocument named inner)
  | .record [("map", .list [k, v])] => return .map (← ofDocument named k) (← ofDocument named v)
  | .record [("enum", e)] => do
    return .enum (← (← e.field "name").toText) (← (← e.field "members").toList Document.toText)
  | _ => Document.malformed "target"

end Target

end TypedColumns
