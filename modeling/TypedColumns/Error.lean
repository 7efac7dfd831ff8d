import TypedColumns.Arrow.DataType
import TypedColumns.LogicalType
import TypedColumns.Target
import TypedColumns.Text.Utf8
import TypedColumns.Value

/-!
Everything that can go wrong, by cause, and the wording of each cause. Errors are returned to the
caller; a panic is not, it ends the program.
-/
namespace TypedColumns

/-- What was asked for when a type did not fit. -/
inductive Request where
  | target (target : Target)
  | span (kind : Kind)
  /-- A reader made for columns of `kind`. -/
  | converter (target : Target) (kind : Kind)

def Request.text : Request → String
  | target t => t.text
  | span kind => "[" ++ kind.name ++ "]"
  | converter t kind => t.text ++ " (converter resolved for " ++ kind.name ++ ")"

/-- Malformed memory, or an engine call that failed. -/
inductive NativeFault where
  | type (fault : LogicalType.Fault)
  | noListChild (kind : Kind)
  | noArrayChild (kind : Kind)
  | noMembers (kind : Kind)
  | memberOutOfRange (index count : Nat)
  | unexpectedType (actual expected : LogicalType)
  | tooFewRows (kind : Kind) (rows requested : Nat)
  | arrayOverflow (rows size : Nat)
  | spanOutOfRange (row offset length childRows : Nat)
  | unionTag (tag row alternatives : Nat)
  | chunkWidth (columns expected : Nat)
  | note (text : String)

def NativeFault.message : NativeFault → String
  | type fault => fault.message
  | noListChild kind => s!"{kind.name} vector has no list child"
  | noArrayChild kind => s!"{kind.name} vector has no array child"
  | noMembers kind => s!"{kind.name} vector has no members"
  | memberOutOfRange index count => s!"member {index} out of range for {count} members"
  | unexpectedType actual expected =>
    s!"vector holds {actual.describe}, expected {expected.describe}"
  | tooFewRows kind rows requested => s!"{kind.name} vector has {rows} rows, {requested} requested"
  | arrayOverflow rows size => s!"ARRAY of {rows} rows x {size} overflows"
  | spanOutOfRange row offset length childRows =>
    s!"list entry {row} \x7boffset: {offset}, length: {length}\x7d exceeds " ++
      s!"{childRows} child elements"
  | unionTag tag row alternatives =>
    s!"UNION tag {tag} at row {row} names none of {alternatives} alternatives"
  | chunkWidth columns expected => s!"chunk has {columns} columns, result schema has {expected}"
  | note text => text

/-- A stored value outside the domain that it is read into. -/
inductive DomainFault where
  | temporal (fault : Temporal.Fault)
  | interval (fault : Interval.Fault)
  | decimal (stored : ScaledInt) (fault : Decimal.Fault)
  | bit (fault : BitString.Fault)
  | varInt (fault : VarInt.Fault)
  | utf8 (fault : Utf8.Fault)
  | enumCode (code names : Nat) (target : String)
  | enumMember (name : String) (code : Nat) (target : String)
  | arrowTimestamp (raw : Int) (unit : Arrow.TimeUnit)
  | arrowDate (millis : Int)
  | arrowCode (position : Nat)
  | note (text : String)

def DomainFault.message : DomainFault → String
  | temporal fault => fault.message
  | interval fault => fault.message
  | decimal stored fault => s!"DECIMAL {stored.text} does not fit: {fault.message}"
  | bit fault => fault.message
  | varInt fault => fault.message
  | utf8 fault => s!"VARCHAR value is not valid UTF-8: {fault.message}"
  | enumCode code names target =>
    s!"ENUM code {code} is outside the dictionary of {names} names (reading as {target})"
  | enumMember name code target =>
    s!"ENUM member '{name}' (code {code}) has no counterpart in {target}"
  | arrowTimestamp raw unit => s!"timestamp {raw} {unit.text} is out of range"
  | arrowDate millis => s!"date {millis} ms is out of range"
  | arrowCode position => s!"dictionary code {position} is too large"
  | note text => text

inductive ArgumentFault where
  | decimal (width scale : Nat)
  | payloadTooLong (bytes : Nat)
  | shortBitmap (words rows : Nat)
  | notFixedWidth (kind : Kind)
  | slotBytes (kind : Kind) (rows needed actual : Nat)
  | notStringLike (kind : Kind)
  | noListEntries (kind : Kind)
  | childTooShort (length rows : Nat)
  | notArray (kind : Kind)
  | noMembers (kind : Kind)
  | memberCount (kind : Kind) (expected actual : Nat)
  | unexpectedValue (variant : String) (kind : Kind)
  | doesNotFit (stored : Value) (kind : Kind)
  | notAMember (name : String)
  | noChildColumns (kind : Kind)
  | noArrayChildren (kind : Kind)
  | raggedColumn (column rows expected : Nat)
  | resultWidth (columns expected : Nat)
  | columnRows (name : String) (rows chunkRows : Nat)
  | columnType (name : String) (actual declared : LogicalType)
  | arrowDictionary (type : Arrow.DataType)
  | arrowMapEntries (type : Arrow.DataType)
  | arrowDictionaryValues (type : Arrow.DataType)
  | arrowNullEntry (code : Nat)
  | batchType (batch : Nat) (name : String) (actual declared : LogicalType)

def ArgumentFault.message : ArgumentFault → String
  | decimal width scale => s!"invalid DECIMAL({width}, {scale})"
  | payloadTooLong bytes => s!"string payload of {bytes} bytes exceeds the slot length field"
  | shortBitmap words rows => s!"validity bitmap of {words} words is too short for {rows} rows"
  | notFixedWidth kind => s!"{kind.name} vectors are not built from fixed-width slots"
  | slotBytes kind rows needed actual =>
    s!"{kind.name} slots for {rows} rows need {needed} bytes, got {actual}"
  | notStringLike kind => s!"{kind.name} is not a string-like type"
  | noListEntries kind => s!"{kind.name} vectors have no list entries"
  | childTooShort length rows => s!"child length {length} exceeds the child vector's {rows} rows"
  | notArray kind => s!"{kind.name} is not an ARRAY type"
  | noMembers kind => s!"{kind.name} vectors have no members"
  | memberCount kind expected actual =>
    s!"{kind.name} type has {expected} member vectors, got {actual}"
  | unexpectedValue variant kind => s!"cannot store a {variant} value in a {kind.name} vector"
  | doesNotFit stored kind => s!"{stored.render} does not fit a {kind.name} slot"
  | notAMember name => s!"{name} is not an enum member"
  | noChildColumns kind => s!"{kind.name} column has no child columns"
  | noArrayChildren kind => s!"{kind.name} vector has no array children"
  | raggedColumn column rows expected => s!"column {column} has {rows} rows, expected {expected}"
  | resultWidth columns expected => s!"chunk has {columns} columns, result has {expected}"
  | columnRows name rows chunkRows => s!"column {name} has {rows} rows, chunk has {chunkRows}"
  | columnType name actual declared =>
    s!"column {name} has type {actual.describe}, result declares {declared.describe}"
  | arrowDictionary type => s!"{type.text} needs its values to become an ENUM type"
  | arrowMapEntries type => s!"map entries must be a two-member struct, got {type.text}"
  | arrowDictionaryValues type => s!"dictionary values must be strings, got {type.text}"
  | arrowNullEntry code => s!"dictionary entry {code} is null"
  | batchType batch name actual declared =>
    s!"batch {batch} column {name} has type {actual.describe}, expected {declared.describe}"

inductive ArrowFault where
  | noColumnType (type : Arrow.DataType)
  | batchWidth (columns expected : Nat)

def ArrowFault.message : ArrowFault → String
  | noColumnType type => s!"Not yet implemented: no column type for Arrow {type.text}"
  | batchWidth columns expected =>
    s!"Schema error: batch has {columns} columns, schema has {expected}"

inductive InternalFault where
  | notTimestamp (kind : Kind)
  | notEnumStorage (kind : Kind)
  | cachedType
  | noMemberNames (kind : Kind)

def InternalFault.message : InternalFault → String
  | notTimestamp kind => s!"{kind.name} is not a timestamp kind"
  | notEnumStorage kind => s!"{kind.name} is not an ENUM storage kind"
  | cachedType => "cached converter has an unexpected type"
  | noMemberNames kind => s!"{kind.name} has no member names"

/-- What the program stops at. -/
inductive Panic where
  /-- The codes of a dictionary without entries, which have nothing to be counted against. -/
  | emptyDictionary
  /-- 64 bits do not hold the product of a count and a size. -/
  | sizeOverflow (count size : Nat)
  /-- 32 bits do not hold the distance of an offset from the largest one. -/
  | offsetOverflow (offset : Int)

inductive Error where
  /-- A column cannot be read that way; found before any element is read. -/
  | typeMismatch (declared storage : Kind) (requested : Request)
  /-- An element is missing and the type has no value for that. -/
  | nullViolation (index : Nat) (target : Target)
  | indexOutOfRange (index length : Nat)
  | native (fault : NativeFault)
  | domain (fault : DomainFault)
  | alreadyBound (target : Target)
  | notBound (target : Target)
  | unknownColumn (name : String)
  | argument (fault : ArgumentFault)
  | arrow (fault : ArrowFault)
  | internal (fault : InternalFault)
  /-- A load outside the memory of a vector. -/
  | unreadable
  /-- No error that is returned: the call never comes back. -/
  | panic (cause : Panic)

namespace Error

def message : Error → String
  | typeMismatch declared storage requested =>
    s!"cannot read {declared.name} column (stored as {storage.name}) as {requested.text}"
  | nullViolation index target =>
    s!"element {index} is null but {target.text} cannot represent a missing value"
  | indexOutOfRange index length => s!"index {index} out of range for vector of length {length}"
  | native fault => s!"native call failed: {fault.message}"
  | domain fault => s!"value does not match the expected domain: {fault.message}"
  | alreadyBound target => s!"converter for {target.text} is already bound to a vector"
  | notBound target => s!"converter for {target.text} must be bound to a vector before use"
  | unknownColumn name => s!"unknown column: {name}"
  | argument fault => s!"Invalid argument: {fault.message}"
  | arrow fault => s!"Arrow error: {fault.message}"
  | internal fault => s!"An internal operation failed: {fault.message}"
  | unreadable => "load outside the memory of a vector"
  | panic _ => ""

/-- The call ends the program instead of returning an error. -/
def isPanic : Error → Bool
  | panic _ => true
  | _ => false

/-- A kind that counts no time is a fault of the caller, the others are faults of the value. -/
def ofTemporal : Temporal.Fault → Error
  | .notTimestamp kind => internal (.notTimestamp kind)
  | fault => domain (.temporal fault)

end Error

abbrev Result (α : Type) := Except Error α

end TypedColumns
