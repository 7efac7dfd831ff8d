import TypedColumns.Column

/-!
Which types a column can be read as. Resolution asks here first and nothing is read as a type that
is refused here.
-/
namespace TypedColumns

namespace Kind

/-- The type that a boxed read of the kind produces. -/
def defaultTarget? : Kind → Option Target
  | boolean => some .bool
  | int k => some (.int k)
  | float => some (.float .single)
  | double => some (.float .double)
  | decimal => some .decimal
  | date => some .date
  | time => some .time
  | timeTz => some .timeTz
  | timestamp .zoned => some .offsetDateTime
  | timestamp _ => some .dateTime
  | interval => some .interval
  | varchar | enum => some .string
  | blob => some (.list (.int .u8))
  | bit => some .bitString
  | varInt => some .varInt
  | uuid => some .uuid
  | list | array => some (.list .value)
  | struct => some .struct
  | map => some .pairs
  | union | null => some .value
  | invalid | any => none

/-- Pairs without conditions on element types; an integer is read as every kind that holds all
integers of its own kind, an ENUM as its codes. -/
def readsAs (kind storage : Kind) : Target → Bool
  | .bool => kind == boolean
  | .int l => match kind, storage with
    | .int k, _ | .enum, .int k => k.widensTo l
    | _, _ => false
  | .float .single => kind == float
  | .float .double => kind == float || kind == double || kind == decimal
  | .string => kind == varchar || kind == bit || kind == varInt || kind == enum
  | .date | .rawDate => kind == date
  | .dateTime => kind == date || kind.isTimestamp
  | .offsetDateTime | .rawTimestamp => kind.isTimestamp
  | .time | .rawTime => kind == time
  | .timeTz => kind == timeTz
  | .interval | .duration => kind == interval
  | .decimal | .scaledInt => kind == decimal
  | .uuid => kind == uuid
  | .bitString => kind == bit
  | .varInt => kind == varInt
  | .enum .. => kind == enum
  | .list element | .fixedList element =>
    kind == list || kind == array || (kind == blob && element == .int .u8)
  | .map .. | .pairs => kind == map
  | .struct => kind == struct
  | .option _ | .value => false

/-- The outer shape of `target` fits; element types are not looked at. -/
def compatible (kind storage : Kind) : Target → Bool
  | .value => kind != invalid && kind != any
  | .option inner => compatible kind storage inner
  | target => kind.readsAs storage target

end Kind

namespace LogicalType

/-- `target` fits a column of this type, element types included. -/
def accepts : LogicalType → Target → Bool
  | type, .option inner => accepts type inner
  | type, .list element => type.kind.compatible type.storage (.list element) &&
    match type with
    | list child | array child _ => accepts child element
    | _ => true
  | type, .fixedList element => type.kind.compatible type.storage (.fixedList element) &&
    match type with
    | list child | array child _ => accepts child element
    | _ => true
  | type, .map k v => type.kind.compatible type.storage (.map k v) &&
    match type with
    | map key value => accepts key k && accepts value v
    | _ => true
  | type, target => type.kind.compatible type.storage target

end LogicalType

namespace Column

def defaultTarget? (c : Column) : Option Target := c.kind.defaultTarget?

def mismatch (c : Column) (requested : Request) : Error :=
  .typeMismatch c.kind c.storage requested

def checkTarget (c : Column) (target : Target) : Result Unit :=
  if c.type.accepts target then .ok () else .error (c.mismatch (.target target))

end Column
end TypedColumns
