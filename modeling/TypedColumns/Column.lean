import TypedColumns.Error

/-!
Well-formed column types and the columns derived from them: elements, entries and members. Every
derived column is well formed because its parent is.
-/
namespace TypedColumns

namespace LogicalType

theorem checkAll_of_mem {members : List (String × LogicalType)} (h : checkAll members = .ok ())
    {name : String} {type : LogicalType} (hm : (name, type) ∈ members) : type.check = .ok () := by
  induction members with
  | nil => simp at hm
  | cons head rest ih =>
    obtain ⟨n, t⟩ := head
    simp only [checkAll] at h
    cases ht : t.check with
    | error e => simp [ht, bind, Except.bind] at h
    | ok u =>
      simp only [ht, bind, Except.bind] at h
      rcases List.mem_cons.mp hm with heq | hmem
      · simp only [Prod.mk.injEq] at heq
        rw [heq.2, ht]
      · exact ih h hmem

theorem check_map_left {key value : LogicalType} (h : (map key value).check = .ok ()) :
    key.check = .ok () := by
  cases hk : key.check with
  | error e => simp [check, hk, bind, Except.bind] at h
  | ok u => rfl

theorem check_map_right {key value : LogicalType} (h : (map key value).check = .ok ()) :
    value.check = .ok () := by
  cases hk : key.check with
  | error e => simp [check, hk, bind, Except.bind] at h
  | ok u => simpa [check, hk, bind, Except.bind] using h

theorem check_entry {key value : LogicalType} (h : (map key value).check = .ok ()) :
    (entry key value).check = .ok () := by
  simp [entry, check, checkAll, check_map_left h, check_map_right h, bind, Except.bind]

theorem checkAll_of_check_union {alternatives : List (String × LogicalType)}
    (h : (union alternatives).check = .ok ()) : checkAll alternatives = .ok () := by
  simp only [check] at h
  split at h
  · simp at h
  · exact h

/-- Member vectors of a STRUCT or UNION; the first one of a UNION holds the tags. -/
def memberTypes : LogicalType → List LogicalType
  | struct members => members.map Prod.snd
  | union alternatives => scalar (.int .u8) :: alternatives.map Prod.snd
  | _ => []

theorem check_of_mem_memberTypes {type member : LogicalType} (h : type.check = .ok ())
    (hm : member ∈ type.memberTypes) : member.check = .ok () := by
  cases type with
  | struct members =>
    obtain ⟨⟨name, t⟩, hp, rfl⟩ := List.mem_map.mp hm
    exact checkAll_of_mem (by simpa [check] using h) hp
  | union alternatives =>
    rcases List.mem_cons.mp hm with rfl | hm
    · rfl
    · obtain ⟨⟨name, t⟩, hp, rfl⟩ := List.mem_map.mp hm
      exact checkAll_of_mem (checkAll_of_check_union h) hp
  | _ => simp [memberTypes] at hm

def memberNames : LogicalType → List String
  | struct members => members.map Prod.fst
  | union alternatives => alternatives.map Prod.fst
  | _ => []

end LogicalType

/-- A well-formed type. -/
structure Column where
  type : LogicalType
  valid : type.check = .ok ()

namespace Column

@[ext] theorem ext {a b : Column} (h : a.type = b.type) : a = b := by
  cases a; cases b; simp_all

instance : DecidableEq Column := fun a b =>
  decidable_of_iff (a.type = b.type) ⟨Column.ext, fun h => by rw [h]⟩

instance : Inhabited Column := ⟨⟨.scalar .null, rfl⟩⟩

def ofType (type : LogicalType) : Result Column :=
  match h : type.check with
  | .ok () => .ok ⟨type, h⟩
  | .error fault => .error (.native (.type fault))

def ofInt (k : IntKind) : Column := ⟨.scalar (.int k), rfl⟩

def kind (c : Column) : Kind := c.type.kind

def storage (c : Column) : Kind := c.type.storage

/-- Bytes of a slot, zero without slots. -/
def slotWidth (c : Column) : Nat := c.storage.slotWidth?.getD 0

/-- Count of member vectors, the tags of a UNION included. -/
def memberCount (c : Column) : Nat := c.type.memberTypes.length

def arraySize? (c : Column) : Option Nat :=
  match c.type with
  | .array _ size => some size
  | _ => none

/-- Places of a DECIMAL. -/
def scale (c : Column) : Nat :=
  match c.type with
  | .decimal _ scale => scale
  | _ => 0

def dictionary? (c : Column) : Option (Array String) :=
  match c.type with
  | .enum dictionary => some dictionary
  | _ => none

def memberNames (c : Column) : List String := c.type.memberNames

/-- Elements of a LIST or ARRAY, or the entries of a MAP as structs. -/
def child : Column → Result Column
  | ⟨.list child, h⟩ => .ok ⟨child, h⟩
  | ⟨.array child _, h⟩ => .ok ⟨child, h⟩
  | ⟨.map _ _, h⟩ => .ok ⟨_, LogicalType.check_entry h⟩
  | c => .error (.argument (.noChildColumns c.kind))

def keyValue : Column → Result (Column × Column)
  | ⟨.map _ _, h⟩ => .ok (⟨_, LogicalType.check_map_left h⟩, ⟨_, LogicalType.check_map_right h⟩)
  | c => .error (.argument (.noChildColumns c.kind))

/-- Every member vector's column. -/
def members (c : Column) : List Column :=
  c.type.memberTypes.attach.map fun type =>
    ⟨type.1, LogicalType.check_of_mem_memberTypes c.valid type.2⟩

def member (c : Column) (index : Nat) : Result Column :=
  match c.kind with
  | .struct | .union =>
    match c.members[index]? with
    | some column => .ok column
    | none => .error (.indexOutOfRange index c.memberCount)
  | kind => .error (.argument (.noChildColumns kind))

end Column
end TypedColumns
