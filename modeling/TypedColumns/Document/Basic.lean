import TypedColumns.Error

/-!
Descriptions of types, values and vectors as trees of texts, numbers and named fields. What is
written as a document is read back from it; a document of another shape is malformed.
-/
namespace TypedColumns

inductive Document where
  | null
  | bool (b : Bool)
  | int (n : Int)
  | text (s : String)
  | list (items : List Document)
  | record (fields : List (String × Document))

namespace Document

instance : Inhabited Document := ⟨null⟩

inductive Fault where
  | malformed (expected : String)
  /-- A document of the right shape for something that does not exist. -/
  | refused (error : Error)
deriving Inhabited

abbrev Parsed (α : Type) := Except Fault α

def malformed {α : Type} (expected : String) : Parsed α := .error (.malformed expected)

def accept {α : Type} (r : Result α) : Parsed α := r.mapError .refused

def found {α : Type} (expected : String) : Option α → Parsed α
  | some a => .ok a
  | none => malformed expected

/-- A field that is there and not null. -/
def field? : Document → String → Option Document
  | record fields, name => match fields.lookup name with
    | some null | none => none
    | some d => some d
  | _, _ => none

def field (d : Document) (name : String) : Parsed Document :=
  match d with
  | record fields => found ("field " ++ name) (fields.lookup name)
  | _ => malformed ("field " ++ name)

/-- What `f` makes of a field. -/
def get {α : Type} (d : Document) (name : String) (f : Document → Parsed α) : Parsed α :=
  d.field name >>= f

/-- A field if it is there, and `default` without it. -/
def fieldOr {α : Type} (d : Document) (name : String) (f : Document → Parsed α) (default : α) :
    Parsed α :=
  match d.field? name with
  | some content => f content
  | none => .ok default

def toText : Document → Parsed String
  | text s => .ok s
  | _ => malformed "text"

def toBool : Document → Parsed Bool
  | bool b => .ok b
  | _ => malformed "truth value"

def toList {α : Type} (f : Document → Parsed α) : Document → Parsed (List α)
  | list items => items.mapM f
  | _ => malformed "list"

def toPair {α β : Type} (f : Document → Parsed α) (g : Document → Parsed β) :
    Document → Parsed (α × β)
  | list [a, b] => do return (← f a, ← g b)
  | _ => malformed "pair"

def toOption {α : Type} (f : Document → Parsed α) : Document → Parsed (Option α)
  | null => .ok none
  | d => (f d).map some

/-- Integers of any width may be written as text. -/
def toInt : Document → Parsed Int
  | int n => .ok n
  | text s => found "integer" s.toInt?
  | _ => malformed "integer"

def toNat (d : Document) : Parsed Nat := do
  let n ← d.toInt
  if 0 ≤ n then return n.toNat else malformed "natural number"

def toWord (k : IntKind) (d : Document) : Parsed (Word k) := do
  found "integer in range" (Word.ofInt? k (← d.toInt))

def hexDigit? (c : Char) : Option Nat :=
  if c.isDigit then some (c.toNat - '0'.toNat)
  else if 'a' ≤ c ∧ c ≤ 'f' then some (c.toNat - 'a'.toNat + 10)
  else none

def hexNumber (digits : List Char) : Parsed Nat :=
  digits.foldlM (fun n c => return n * 16 + (← found "hexadecimal digit" (hexDigit? c))) 0

/-- Two digits to a byte. -/
def hexBytes? : List Char → Option (List UInt8)
  | [] => some []
  | a :: b :: rest => do
    return UInt8.ofNat ((← hexDigit? a) * 16 + (← hexDigit? b)) :: (← hexBytes? rest)
  | _ => none

def toBytes (d : Document) : Parsed (List UInt8) := do
  found "hexadecimal bytes" (hexBytes? (← d.toText).toList)

def quietNaN : FloatFormat → Nat
  | .single => 0x7fc00000
  | .double => 0x7ff8000000000000

/-- The bits in hexadecimal, or the word for a NaN. -/
def toFloat (f : FloatFormat) (d : Document) : Parsed (Binary f) := do
  let digits ← d.toText
  if digits = "nan" then return .ofBits f (quietNaN f)
  else return .ofBits f (← hexNumber digits.toList)

def ofNat (n : Nat) : Document := int n

def ofTexts (texts : List String) : Document := list (texts.map text)

def ofOption {α : Type} (f : α → Document) : Option α → Document
  | some a => f a
  | none => null

/-- An integer written as text. -/
def ofWide (n : Int) : Document := text (toString n)

/-- Integers of more than 32 bits are written as text. -/
def ofWord {k : IntKind} (w : Word k) : Document :=
  if k.bytes ≤ 4 then int w.val else ofWide w.val

def ofBytes (bytes : List UInt8) : Document :=
  text (String.join (bytes.map fun b => Numeral.hex 2 b.toNat))

def ofFloat {f : FloatFormat} (x : Binary f) : Document :=
  text (if x.isNaN then "nan" else Numeral.hex (2 * f.bytes) x.bits)

end Document
end TypedColumns
