import TypedColumns.BitString
import TypedColumns.Decimal
import TypedColumns.Float.Shortest
import TypedColumns.Temporal
import TypedColumns.Uuid
import TypedColumns.VarInt

/-!
Single elements of any kind, their texts and their equality. Equality is that of the things denoted:
a NaN differs from itself, decimals compare as numbers and zoned date-times as instants.
-/
namespace TypedColumns

inductive Value where
  | null
  | boolean (b : Bool)
  | int (k : IntKind) (n : Word k)
  | float (x : Binary .single)
  | double (x : Binary .double)
  | decimal (d : Decimal)
  | scaledInt (d : ScaledInt)
  | date (d : Date)
  | rawDate (days : Word .i32)
  | time (t : ClockTime)
  | rawTime (micros : Word .i64)
  | timeTz (t : TimeTz)
  | timestamp (t : DateTime)
  | timestampTz (t : OffsetDateTime)
  | rawTimestamp (micros : Word .i64)
  | interval (i : Interval)
  | duration (d : Duration)
  | uuid (u : Uuid)
  | text (s : String)
  | blob (bytes : List UInt8)
  | bit (b : BitString)
  | varInt (v : VarInt)
  /-- A member of an enumeration, by its name. -/
  | enum (name : String)
  | list (items : List Value)
  /-- Member names in declared order, with one value each. -/
  | struct (members : List (String × Value))
  /-- Pairs in stored order. -/
  | map (entries : List (Value × Value))

namespace Value

instance : Inhabited Value := ⟨null⟩

def isNull : Value → Bool
  | null => true
  | _ => false

def variant : Value → String
  | null => "Null"
  | boolean _ => "Boolean"
  | int k _ => (Kind.int k).tag
  | float _ => "Float"
  | double _ => "Double"
  | decimal _ => "Decimal"
  | scaledInt _ => "RawDecimal"
  | date _ => "Date"
  | rawDate _ => "RawDate"
  | time _ => "Time"
  | rawTime _ => "RawTime"
  | timeTz _ => "TimeTz"
  | timestamp _ => "Timestamp"
  | timestampTz _ => "TimestampTz"
  | rawTimestamp _ => "RawTimestamp"
  | interval _ => "Interval"
  | duration _ => "Duration"
  | uuid _ => "Uuid"
  | text _ => "Text"
  | blob _ => "Blob"
  | bit _ => "Bit"
  | varInt _ => "VarInt"
  | enum _ => "Enum"
  | list _ => "List"
  | struct _ => "Struct"
  | map _ => "Map"

def string? : Value → Option String
  | text s | enum s => some s
  | _ => none

/-- The number of any integer variant that a signed 128-bit integer holds. -/
def int? : Value → Option (Word .i128)
  | int _ n => Word.ofInt? .i128 n.val
  | _ => none

def items? : Value → Option (List Value)
  | list items => some items
  | _ => none

def members? : Value → Option (List (String × Value))
  | struct members => some members
  | _ => none

def entries? : Value → Option (List (Value × Value))
  | map entries => some entries
  | _ => none

mutual

def equal : Value → Value → Bool
  | null, null => true
  | boolean a, boolean b => a == b
  | int k a, int l b => k == l && a.val == b.val
  | float a, float b => a == b
  | double a, double b => a == b
  | decimal a, decimal b => a.equal b
  | scaledInt a, scaledInt b => a == b
  | date a, date b => a == b
  | rawDate a, rawDate b => a == b
  | time a, time b => a == b
  | rawTime a, rawTime b => a == b
  | timeTz a, timeTz b => a == b
  | timestamp a, timestamp b => a == b
  | timestampTz a, timestampTz b => a.equal b
  | rawTimestamp a, rawTimestamp b => a == b
  | interval a, interval b => a == b
  | duration a, duration b => a == b
  | uuid a, uuid b => a == b
  | text a, text b => a == b
  | blob a, blob b => a == b
  | bit a, bit b => a == b
  | varInt a, varInt b => a == b
  | enum a, enum b => a == b
  | list a, list b => equalItems a b
  | struct a, struct b => equalMembers a b
  | map a, map b => equalEntries a b
  | _, _ => false

def equalItems : List Value → List Value → Bool
  | [], [] => true
  | a :: r, b :: s => a.equal b && equalItems r s
  | _, _ => false

def equalMembers : List (String × Value) → List (String × Value) → Bool
  | [], [] => true
  | (n, a) :: r, (m, b) :: s => n == m && a.equal b && equalMembers r s
  | _, _ => false

def equalEntries : List (Value × Value) → List (Value × Value) → Bool
  | [], [] => true
  | (k, a) :: r, (l, b) :: s => k.equal l && a.equal b && equalEntries r s
  | _, _ => false

end

instance : BEq Value := ⟨equal⟩

/-- The first member of that name. -/
def member? (members : List (String × Value)) (name : String) : Option Value := members.lookup name

/-- The value of the first entry with an equal key. -/
def entry? (entries : List (Value × Value)) (key : Value) : Option Value :=
  (entries.find? fun entry => entry.1 == key).map Prod.snd

def hexByte (b : UInt8) : String := "\\x" ++ (Numeral.hex 2 b.toNat).map Char.toUpper

def signedText (n : Int) : String := if n < 0 then toString n else "+" ++ toString n

mutual

def render : Value → String
  | null => "NULL"
  | boolean b => toString b
  | int _ n => toString n.val
  | float x => x.text
  | double x => x.text
  | decimal d => d.text
  | scaledInt d => d.text
  | date d => d.text
  | rawDate days => toString days.val ++ " days"
  | time t => t.text
  | rawTime micros => toString micros.val ++ " us"
  | timeTz t => toString t.micros.val ++ " us " ++ signedText t.offset.val ++ "s"
  | timestamp t => t.text
  | timestampTz t => t.text
  | rawTimestamp micros => toString micros.val ++ " us"
  | interval i => s!"{i.months.val} months {i.days.val} days {i.micros.val} us"
  | duration d => d.text
  | uuid u => u.text
  | text s => s
  | blob bytes => String.join (bytes.map hexByte)
  | bit b => b.text
  | varInt v => v.text
  | enum name => name
  | list items => "[" ++ String.intercalate ", " (renderItems items) ++ "]"
  | struct members => "\x7b" ++ String.intercalate ", " (renderMembers members) ++ "\x7d"
  | map entries => "\x7b" ++ String.intercalate ", " (renderEntries entries) ++ "\x7d"

def renderItems : List Value → List String
  | [] => []
  | v :: rest => v.render :: renderItems rest

def renderMembers : List (String × Value) → List String
  | [] => []
  | (name, v) :: rest => ("'" ++ name ++ "': " ++ v.render) :: renderMembers rest

def renderEntries : List (Value × Value) → List String
  | [] => []
  | (key, v) :: rest => (key.render ++ "=" ++ v.render) :: renderEntries rest

end

end Value
end TypedColumns
