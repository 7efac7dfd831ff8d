import TypedColumns.Arrow.ColumnType
import TypedColumns.Proofs.Results

/-!
Arrow types without a column type. The error of a data type is that of the first part in it that has
no column type. The mapping returns all of its errors.
-/
namespace TypedColumns

open Result (FailsOnly)

/-- The error, if there is one. -/
def Result.fault? {α : Type} : Result α → Option Error
  | .ok _ => none
  | .error e => some e

namespace Result

variable {α β γ : Type}

@[simp] theorem fault?_ok (a : α) : fault? (.ok a : Result α) = none := rfl

@[simp] theorem fault?_error (e : Error) : fault? (.error e : Result α) = some e := rfl

@[simp] theorem fault?_map (f : α → β) (x : Result α) : fault? (x.map f) = fault? x := by
  cases x <;> rfl

theorem fault?_eq_some {x : Result α} {e : Error} : fault? x = some e ↔ x = .error e := by
  cases x <;> simp [fault?]

end Result

namespace Arrow

namespace DataType

mutual

/-- There is a dictionary in the type, at any depth. -/
def hasDictionary : DataType → Bool
  | list _ _ item | fixedList _ item _ => item.hasDictionary
  | struct fields => fieldsHaveDictionary fields
  | map _ entries => entries.hasDictionary
  | dictionary _ _ => true
  | foreign _ inside => someHasDictionary inside
  | _ => false

def fieldsHaveDictionary : List (String × DataType) → Bool
  | [] => false
  | (_, type) :: rest => type.hasDictionary || fieldsHaveDictionary rest

def someHasDictionary : List DataType → Bool
  | [] => false
  | type :: rest => type.hasDictionary || someHasDictionary rest

end

mutual

/-- The type and what is mapped inside of it, in the order in which they are met. The entries of a
map are looked into for a key and a value, and not mapped themselves. -/
def parts : DataType → List DataType
  | list large name item => list large name item :: item.parts
  | fixedList name item size => fixedList name item size :: item.parts
  | struct fields => struct fields :: partsOf fields
  | map name entries => map name entries :: match entries with
    | struct [(_, key), (_, value)] => key.parts ++ value.parts
    | _ => []
  | type => [type]

def partsOf : List (String × DataType) → List DataType
  | [] => []
  | (_, type) :: rest => type.parts ++ partsOf rest

end

/-- No column has the type, whatever its children are. -/
def unsupported : DataType → Bool
  | float16 | duration _ | decimal256 _ _ | foreign _ _ => true
  | interval unit => unit != .monthDayNano
  | decimal128 _ scale => scale < 0
  | fixedList _ _ size => size < 0
  | _ => false

/-- What is wrong with a part by itself. -/
def ownFault? (type : DataType) : Option Error :=
  if type.unsupported then some (.arrow (.noColumnType type))
  else match type with
    | decimal128 precision scale => (decimalType precision scale.toNat).fault?
    | map _ entries => match entries with
      | struct [_, _] => none
      | entries => some (.argument (.arrowMapEntries entries))
    | dictionary key content => some (.argument (.arrowDictionary (dictionary key content)))
    | _ => none

/-- Types that are made of other types by the mapping. -/
def isNested : DataType → Bool
  | list _ _ _ | fixedList _ _ _ | struct _ | map _ _ => true
  | _ => false

/-- Induction with a hypothesis for every field of a struct. -/
@[elab_as_elim]
theorem induction_on_fields {motive : DataType → Prop}
    (list : ∀ large name item, motive item → motive (.list large name item))
    (fixedList : ∀ name item size, motive item → motive (.fixedList name item size))
    (struct : ∀ fields, (∀ f ∈ fields, motive f.2) → motive (.struct fields))
    (map : ∀ name entries, motive entries → motive (.map name entries))
    (other : ∀ type, type.isNested = false → motive type) (type : DataType) : motive type := by
  refine @DataType.rec motive (fun fields => ∀ f ∈ fields, motive f.2) (fun _ => True)
    (fun f => motive f.2) ?null ?boolean ?int ?float16 ?float ?utf8 ?binary ?fixedBinary ?date32
    ?date64 ?time32 ?time64 ?timestamp ?duration ?interval ?decimal128 ?decimal256 list fixedList
    struct map ?dictionary ?foreign ?nil ?cons trivial (fun _ _ _ _ => trivial) (fun _ _ ih => ih)
    type
  case nil => exact List.forall_mem_nil _
  case cons => exact fun _ _ first rest => List.forall_mem_cons.mpr ⟨first, rest⟩
  all_goals
    intros
    exact other _ rfl

/-- Fields are mapped in order, up to the first fault. -/
theorem fault?_toMembers {fields : List (String × DataType)}
    (each : ∀ f ∈ fields, f.2.toLogical.fault? = f.2.parts.findSome? ownFault?) :
    (toMembers fields).fault? = (partsOf fields).findSome? ownFault? := by
  induction fields with
  | nil => rfl
  | cons f rest ih =>
    obtain ⟨first, others⟩ := List.forall_mem_cons.mp each
    rw [toMembers, partsOf, List.findSome?_append, ← first, ← ih others]
    cases f.2.toLogical <;> cases toMembers rest <;> rfl

/-- The entries of a map are a struct of a key and a value. -/
theorem ownFault?_map {name : String} {entries : DataType} (other : ∀ keyName key valueName value,
    entries = struct [(keyName, key), (valueName, value)] → False) :
    (map name entries).ownFault? = some (.argument (.arrowMapEntries entries)) := by
  unfold ownFault?
  rw [if_neg (by simp [unsupported])]
  dsimp only
  split
  · exact absurd rfl (other _ _ _ _)
  · rfl

/-- Whatever else is wrong with a part is a wrong argument. -/
theorem isArgument_of_ownFault? {type : DataType} (supported : ¬type.unsupported) {e : Error}
    (h : type.ownFault? = some e) : ∃ fault, e = .argument fault := by
  unfold ownFault? at h
  rw [if_neg supported] at h
  split at h
  · unfold decimalType at h
    split at h
    · cases h
    · cases h
      exact ⟨_, rfl⟩
  · split at h
    · cases h
    · cases h
      exact ⟨_, rfl⟩
  · cases h
    exact ⟨_, rfl⟩
  · cases h

/-- A type has the error of the first part of it that is wrong by itself, and a column type if there
is no such part. -/
theorem fault?_toLogical (type : DataType) :
    type.toLogical.fault? = type.parts.findSome? ownFault? := by
  induction type using induction_on_fields with
  | list large name item ih =>
    rw [toLogical, Result.fault?_map, ih, parts, List.findSome?_cons]
    rfl
  | fixedList name item size ih =>
    rw [toLogical, parts, List.findSome?_cons]
    by_cases nonneg : 0 ≤ size
    · have plain : ownFault? (fixedList name item size) = none := by
        simp [ownFault?, unsupported, nonneg]
      rw [if_pos nonneg, Result.fault?_map, ih, plain]
    · have faulty : ownFault? (fixedList name item size) =
          some (.arrow (.noColumnType (fixedList name item size))) := by
        simp [ownFault?, unsupported, Int.not_le.mp nonneg]
      rw [if_neg nonneg, faulty]
      rfl
  | struct fields ih =>
    rw [toLogical, Result.fault?_map, fault?_toMembers ih, parts, List.findSome?_cons]
    rfl
  | map name entries ih =>
    rw [toLogical.eq_def, parts.eq_def]
    dsimp only
    split
    · next _ key _ value =>
      -- The entries have the faults of the key and of the value and none of their own.
      rw [toLogical, toMembers, toMembers, toMembers, parts, partsOf, partsOf, partsOf,
        List.append_nil, List.findSome?_cons] at ih
      rw [List.findSome?_cons]
      refine Eq.trans ?_ ih
      cases key.toLogical <;> cases value.toLogical <;> rfl
    · next other =>
      rw [List.findSome?_cons, ownFault?_map other]
      rfl
  | other type leaf =>
    cases type with
    | list _ _ _ | fixedList _ _ _ | struct _ | map _ _ => cases leaf
    | decimal128 precision scale =>
      by_cases nonneg : 0 ≤ scale
      · simp [toLogical, parts, ownFault?, unsupported, nonneg, Int.not_lt.mpr nonneg]
      · simp [toLogical, parts, ownFault?, unsupported, nonneg, refuse]
    | interval unit => cases unit <;> rfl
    | float f => cases f <;> rfl
    | _ => rfl

theorem ownFault?_unsupported {type : DataType} (h : type.unsupported) :
    type.ownFault? = some (.arrow (.noColumnType type)) :=
  if_pos h

theorem ownFault?_dictionary (key content : DataType) :
    (dictionary key content).ownFault? =
      some (.argument (.arrowDictionary (dictionary key content))) := rfl

theorem mem_partsOf {fields : List (String × DataType)} {f : String × DataType} (hf : f ∈ fields)
    {part : DataType} (hp : part ∈ f.2.parts) : part ∈ partsOf fields := by
  induction fields with
  | nil => cases hf
  | cons first rest ih =>
    rw [partsOf, List.mem_append]
    rcases List.mem_cons.mp hf with rfl | hf
    · exact .inl hp
    · exact .inr (ih hf)

theorem fieldsHaveDictionary_iff {fields : List (String × DataType)} :
    fieldsHaveDictionary fields = true ↔ ∃ f ∈ fields, f.2.hasDictionary = true := by
  induction fields with
  | nil => simp [fieldsHaveDictionary]
  | cons f rest ih => simp [fieldsHaveDictionary, ih]

/-- A dictionary in a type is a fault of some part, of itself or of a map whose entries it spoils. -/
theorem faulty_of_hasDictionary {type : DataType} (h : type.hasDictionary) :
    ∃ part ∈ type.parts, part.ownFault?.isSome := by
  induction type using induction_on_fields with
  | list large name item ih =>
    rw [hasDictionary] at h
    obtain ⟨part, hp, faulty⟩ := ih h
    exact ⟨part, by rw [parts]; exact List.mem_cons_of_mem _ hp, faulty⟩
  | fixedList name item size ih =>
    rw [hasDictionary] at h
    obtain ⟨part, hp, faulty⟩ := ih h
    exact ⟨part, by rw [parts]; exact List.mem_cons_of_mem _ hp, faulty⟩
  | struct fields ih =>
    rw [hasDictionary, fieldsHaveDictionary_iff] at h
    obtain ⟨f, hf, here⟩ := h
    obtain ⟨part, hp, faulty⟩ := ih f hf here
    exact ⟨part, by rw [parts]; exact List.mem_cons_of_mem _ (mem_partsOf hf hp), faulty⟩
  | map name entries ih =>
    rw [hasDictionary] at h
    obtain ⟨part, hp, faulty⟩ := ih h
    rw [parts.eq_def]
    dsimp only
    split
    · next _ key _ value =>
      refine ⟨part, List.mem_cons_of_mem _ ?_, faulty⟩
      rw [parts, partsOf, partsOf, partsOf, List.append_nil] at hp
      rcases List.mem_cons.mp hp with rfl | hp
      · cases faulty
      · exact hp
    · next other =>
      refine ⟨_, List.mem_cons_self, ?_⟩
      rw [ownFault?_map other]
      rfl
  | other type leaf =>
    cases type with
    | list _ _ _ | fixedList _ _ _ | struct _ | map _ _ => cases leaf
    | dictionary _ _ | foreign _ _ => exact ⟨_, List.mem_cons_self, rfl⟩
    | _ => cases h

/-- A type with a dictionary has no column type. The error is a wrong argument, or names a part that
no column has the type of and that is met before every dictionary. -/
theorem toLogical_of_hasDictionary {type : DataType} (h : type.hasDictionary) :
    ∃ e, type.toLogical = .error e ∧ ((∃ fault, e = .argument fault) ∨
      ∃ before part after, type.parts = before ++ part :: after ∧ part.unsupported ∧
        (∀ key content, .dictionary key content ∉ before) ∧ e = .arrow (.noColumnType part)) := by
  obtain ⟨part, hp, faulty⟩ := faulty_of_hasDictionary h
  obtain ⟨e, found⟩ : ∃ e, type.parts.findSome? ownFault? = some e :=
    Option.isSome_iff_exists.mp (List.findSome?_isSome_iff.mpr ⟨part, hp, faulty⟩)
  refine ⟨e, Result.fault?_eq_some.mp ((fault?_toLogical type).trans found), ?_⟩
  obtain ⟨before, part, after, split, first, none⟩ := List.findSome?_eq_some_iff.mp found
  by_cases bare : part.unsupported
  · refine .inr ⟨before, part, after, split, bare, fun key content earlier => ?_, ?_⟩
    · have plain := none _ earlier
      rw [ownFault?_dictionary] at plain
      cases plain
    · rw [ownFault?_unsupported bare] at first
      exact (Option.some.inj first).symm
  · exact .inl (isArgument_of_ownFault? bare first)

/-- What the mapping refuses is refused with an error. -/
theorem toLogical_returns (type : DataType) : FailsOnly (·.isPanic = false) type.toLogical := by
  intro e he
  have found := (fault?_toLogical type).symm.trans (Result.fault?_eq_some.mpr he)
  obtain ⟨part, -, faulty⟩ := List.exists_of_findSome?_eq_some found
  by_cases bare : part.unsupported
  · rw [ownFault?_unsupported bare] at faulty
    exact Option.some.inj faulty ▸ rfl
  · obtain ⟨fault, rfl⟩ := isArgument_of_ownFault? bare faulty
    rfl

end DataType
end Arrow
end TypedColumns
