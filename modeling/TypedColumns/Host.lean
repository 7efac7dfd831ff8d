import TypedColumns.Target
import TypedColumns.Value

/-!
What each target is read into: its values, the value for a missing element, the boxed form and the
equality of keys.
-/
namespace TypedColumns.Target

/-- Values of the target. Members of an enumeration are their names; a map holds its distinct keys
in the order of their first occurrence. -/
@[reducible] def Host : Target → Type
  | bool => Bool
  | int k => Word k
  | float f => Binary f
  | string => String
  | date => Date
  | time => ClockTime
  | dateTime => DateTime
  | offsetDateTime => OffsetDateTime
  | duration => Duration
  | rawDate => Word .i32
  | rawTime => Word .i64
  | timeTz => TimeTz
  | rawTimestamp => Word .i64
  | interval => Interval
  | decimal => Decimal
  | scaledInt => ScaledInt
  | uuid => Uuid
  | bitString => BitString
  | varInt => VarInt
  | enum _ _ => String
  | list element => List element.Host
  | fixedList element => List element.Host
  | map k v => List (k.Host × v.Host)
  | struct => List (String × Value)
  | pairs => List (Value × Value)
  | option inner => Option inner.Host
  | value => Value

/-- A target stands for the type of its values. -/
instance : CoeSort Target Type := ⟨Host⟩

/-- What a missing element reads as where that is tolerated. -/
def missing : (t : Target) → t.Host
  | bool => false
  | int _ => 0
  | float _ => 0
  | string => ""
  | date => Date.epoch
  | time => ClockTime.midnight
  | dateTime => DateTime.epoch
  | offsetDateTime => OffsetDateTime.utc DateTime.epoch
  | duration => ⟨0⟩
  | rawDate => (0 : Word .i32)
  | rawTime => (0 : Word .i64)
  | timeTz => ⟨0, 0⟩
  | rawTimestamp => (0 : Word .i64)
  | interval => Interval.zero
  | decimal => Decimal.zero
  | scaledInt => ScaledInt.zero
  | uuid => Uuid.nil
  | bitString => BitString.empty
  | varInt => VarInt.zero
  | enum _ members => members.headD ""
  | list _ => []
  | fixedList _ => []
  | map _ _ => []
  | struct => []
  | pairs => []
  | option _ => none
  | value => Value.null

def byteOfWord (w : Word .u8) : UInt8 := UInt8.ofNat w.val.toNat

def wordOfByte (b : UInt8) : Word .u8 := .wrap .u8 b.toNat

/-- The boxed form of a sequence whose elements are boxed by `box`. Sequences of bytes are a blob,
wherever they come from. -/
def sequence : (element : Target) → (box : element.Host → Value) → List element.Host → Value
  | int .u8, _, xs => .blob (xs.map byteOfWord)
  | _, box, xs => .list (xs.map box)

/-- The boxed form. -/
def toValue : (t : Target) → t.Host → Value
  | bool, x => .boolean x
  | int k, x => .int k x
  | float .single, x => .float x
  | float .double, x => .double x
  | string, x => .text x
  | date, x => .date x
  | time, x => .time x
  | dateTime, x => .timestamp x
  | offsetDateTime, x => .timestampTz x
  | duration, x => .duration x
  | rawDate, x => .rawDate x
  | rawTime, x => .rawTime x
  | timeTz, x => .timeTz x
  | rawTimestamp, x => .rawTimestamp x
  | interval, x => .interval x
  | decimal, x => .decimal x
  | scaledInt, x => .scaledInt x
  | uuid, x => .uuid x
  | bitString, x => .bit x
  | varInt, x => .varInt x
  | enum _ _, x => .enum x
  | list element, xs => sequence element (toValue element) xs
  | fixedList element, xs => sequence element (toValue element) xs
  | map k v, entries => .map (entries.map fun entry => (toValue k entry.1, toValue v entry.2))
  | struct, members => .struct members
  | pairs, entries => .map entries
  | option _, none => .null
  | option inner, some x => toValue inner x
  | value, x => x

def equalItems {α : Type} (eq : α → α → Bool) : List α → List α → Bool
  | [], [] => true
  | a :: r, b :: s => eq a b && equalItems eq r s
  | _, _ => false

/-- Equality of keys: that of the things denoted. -/
def equalKeys : (t : Target) → t.Host → t.Host → Bool
  | bool, a, b => a == b
  | int _, a, b => a == b
  | float _, a, b => a == b
  | string, a, b => a == b
  | date, a, b => a == b
  | time, a, b => a == b
  | dateTime, a, b => a == b
  | offsetDateTime, a, b => a.equal b
  | duration, a, b => a == b
  | rawDate, a, b => a == b
  | rawTime, a, b => a == b
  | timeTz, a, b => a == b
  | rawTimestamp, a, b => a == b
  | interval, a, b => a == b
  | decimal, a, b => a.equal b
  | scaledInt, a, b => a == b
  | uuid, a, b => a == b
  | bitString, a, b => a == b
  | varInt, a, b => a == b
  | enum _ _, a, b => a == b
  | list element, a, b => equalItems (equalKeys element) a b
  | fixedList element, a, b => equalItems (equalKeys element) a b
  | map k v, a, b =>
    equalItems (fun x y => equalKeys k x.1 y.1 && equalKeys v x.2 y.2) a b
  | struct, a, b => Value.equalMembers a b
  | pairs, a, b => Value.equalEntries a b
  | option _, none, none => true
  | option inner, some a, some b => equalKeys inner a b
  | option _, _, _ => false
  | value, a, b => a == b

/-- Gives `key` a new value, at the end when it is new itself. -/
def insertKey {k v : Target} (key : k.Host) (content : v.Host) :
    List (k.Host × v.Host) → List (k.Host × v.Host)
  | [] => [(key, content)]
  | (key', content') :: rest =>
    if equalKeys k key' key then (key', content) :: rest
    else (key', content') :: insertKey key content rest

/-- Each key once, with the value of its last occurrence. -/
def distinctKeys {k v : Target} (entries : List (k.Host × v.Host)) : List (k.Host × v.Host) :=
  entries.foldl (fun kept entry => insertKey entry.1 entry.2 kept) []

end TypedColumns.Target
