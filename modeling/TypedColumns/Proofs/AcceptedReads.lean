import TypedColumns.Proofs.CacheFreeReading
import TypedColumns.Proofs.MemoryContract
import TypedColumns.Proofs.Resolution

/-!
Plans for accepted targets do not go wrong. On a vector of the plan's column, preparing the plan and
reading with it end in an error only by the data that the vector holds or the row that is asked for.
-/
namespace TypedColumns

open Result (FailsOnly)

/-- Errors of preparing a plan for a view: memory that does not fit together. In a vector that keeps
its contract the children have the declared types. -/
inductive Error.OfBinding (view : ColumnView) : Error → Prop where
  | native (fault : NativeFault) (h : view.Sound → fault.OfData) : OfBinding view (.native fault)

/-- Errors of reading a row: those of the data, and that of a row that there is not. -/
inductive Error.OfRow (view : ColumnView) (row : Nat) : Error → Prop where
  | native (fault : NativeFault) (h : view.Sound → fault.OfData) : OfRow view row (.native fault)
  | domain (fault : DomainFault) : OfRow view row (.domain fault)
  | null (index : Nat) (target : Target) : OfRow view row (.nullViolation index target)
  | outside (h : view.rows ≤ row) : OfRow view row (.indexOutOfRange row view.rows)
  | unreadable (h : ¬ view.Sound) : OfRow view row .unreadable

namespace Error

variable {view child : ColumnView} {row j : Nat}

theorem OfBinding.parent {α : Type} {x : Result α} (sound : view.Sound → child.Sound)
    (h : FailsOnly (OfBinding child) x) : FailsOnly (OfBinding view) x := by
  intro e he
  cases h e he with
  | native fault h => exact .native fault (h ∘ sound)

/-- Errors of the rows that a child has are errors of the parent's row. -/
theorem OfRow.parent {α : Type} {x : Result α} (sound : view.Sound → child.Sound)
    (hj : j < child.rows) (h : FailsOnly (OfRow child j) x) : FailsOnly (OfRow view row) x := by
  intro e he
  cases h e he with
  | native fault h => exact .native fault (h ∘ sound)
  | domain fault => exact .domain fault
  | null index target => exact .null index target
  | outside h => exact absurd hj (Nat.not_lt_of_le h)
  | unreadable h => exact .unreadable (mt sound h)

theorem OfBinding.data (fault : NativeFault) (h : fault.OfData) :
    OfBinding view (.native fault) :=
  .native fault fun _ => h

theorem OfRow.data (fault : NativeFault) (h : fault.OfData) : OfRow view row (.native fault) :=
  .native fault fun _ => h

end Error

/-- Neither preparing the plan for the view nor reading with what is prepared goes wrong. -/
structure Converter.GoesRight {c : Target} (plan : Converter c) (view : ColumnView) : Prop where
  prepare : FailsOnly (Error.OfBinding view) (plan.prepare view)
  tryConvert : ∀ conv, plan.prepare view = .ok conv → ∀ row,
    FailsOnly (Error.OfRow view row) (conv.tryConvert view row)
  convert : ∀ conv, plan.prepare view = .ok conv → ∀ row require,
    FailsOnly (Error.OfRow view row) (conv.convert view row require)

/-- The plan goes right on every view of the type. -/
def Converter.Typed {c : Target} (plan : Converter c) (type : LogicalType) : Prop :=
  ∀ view : ColumnView, view.column.type = type → plan.GoesRight view

/-- Readers are made for views of the type, and read the rows that hold values. -/
def Reading.Typed {α : Type} (reading : Reading α) (type : LogicalType) : Prop :=
  ∀ view : ColumnView, view.column.type = type →
    FailsOnly (Error.OfBinding view) (reading.on view) ∧
    ∀ read, reading.on view = .ok read → ∀ row < view.rows, view.native.bit? row = some true →
      FailsOnly (Error.OfRow view row) (read view row)

/-- A reader of slots finds a value outside its domain, or no memory in a vector that breaks the
contract. -/
theorem Reader.Decodes.typed {α : Type} {type : LogicalType} {read : Reader α}
    (h : read.Decodes type) : (Reading.closed read).Typed type := by
  have bounded := h.bounded
  obtain ⟨decode, hd⟩ := h
  rintro view rfl
  obtain ⟨reads, fails⟩ := hd view rfl rfl
  refine ⟨.ok read, ?_⟩
  rintro _ ⟨⟩ row hr hb e he
  have cause := he
  rw [reads row] at cause
  rcases Result.bind_eq_error.mp cause with load | ⟨bytes, -, undecoded⟩
  · obtain rfl := ColumnView.unreadable_of_loaded load
    exact .unreadable fun sound => bounded view sound rfl rfl row hr hb _ he rfl
  · obtain ⟨fault, rfl⟩ := fails bytes e undecoded
    exact .domain fault

namespace Converter

variable {c : Target} {plan conv : Converter c} {type : LogicalType}

theorem Typed.of_reading (source : plan.Source type) (h : plan.reading.Typed type) :
    plan.Typed type := by
  intro view ht
  obtain ⟨binds, reads⟩ := h view ht
  have checked : plan.checkSource view = .ok () := by
    apply if_pos
    rw [source.kind, source.storage, ← ht]
    exact ⟨rfl, rfl⟩
  have tries : ∀ conv, plan.prepare view = .ok conv → ∀ row,
      FailsOnly (Error.OfRow view row) (conv.tryConvert view row) := by
    intro conv prepared row
    obtain ⟨read, bound, rfl⟩ := prepare_eq_ok prepared
    apply tryConvert_failsOnly
    · rw [checked]
      exact .ok ()
    · exact .outside
    · intro hr hb
      refine .unreadable fun sound => ?_
      obtain ⟨valid, hv⟩ := sound.native.bit_readable (Nat.lt_of_lt_of_le hr sound.covered)
      rw [hb] at hv
      contradiction
    · exact fun _ => reads read bound row
  refine ⟨?_, tries, ?_⟩
  · rw [prepare_eq checked]
    exact binds.map _
  · intro conv prepared row require
    exact convert_failsOnly (tries conv prepared row) (.null row conv.target) require

namespace GoesRight

variable {view child : ColumnView} {row j : Nat} (h : plan.GoesRight child)
  (sound : view.Sound → child.Sound)
include h sound

theorem prepare_child : FailsOnly (Error.OfBinding view) (plan.prepare child) :=
  .parent sound h.prepare

theorem convert_child (prepared : plan.prepare child = .ok conv) (hj : j < child.rows)
    (require : Bool) : FailsOnly (Error.OfRow view row) (conv.convert child j require) :=
  .parent sound hj (h.convert conv prepared j require)

end GoesRight
end Converter

namespace ColumnView

variable {view child : ColumnView} {index : Nat}

theorem kind_of_sound (h : view.Sound) : view.native.kind = view.column.kind :=
  congrArg LogicalType.kind h.type

section Declared

variable {type : LogicalType} (declared : view.column.type.childTypes[index]? = some type)
include declared

/-- A vector that keeps the contract has every child that its type declares. -/
theorem child_of_sound (h : view.Sound) :
    ∃ native, view.native.children[index]? = some native := by
  obtain ⟨-, -, -, -, types, -⟩ := h.native
  rw [← h.type, ← types, List.getElem?_map, Option.map_eq_some_iff] at declared
  obtain ⟨native, found, -⟩ := declared
  exact ⟨native, found⟩

theorem nativeMember_failsOnly (hk : view.column.kind = .struct ∨ view.column.kind = .union) :
    FailsOnly (Error.OfBinding view) (view.native.member index) := by
  have fault (missing : view.native.children[index]? = none) (count : Nat) :
      Error.OfBinding view (.native (.memberOutOfRange index count)) := by
    refine .native _ fun sound => ?_
    obtain ⟨native, found⟩ := child_of_sound declared sound
    rw [missing] at found
    cases found
  unfold NativeVector.member
  split
  · split
    · exact .ok _
    · next missing => exact .error (fault missing _)
  · split
    · exact .ok _
    · next missing => exact .error (fault missing _)
  · next notStruct notUnion =>
    refine .error (.native _ fun sound => ?_)
    rw [← kind_of_sound sound] at hk
    exact hk.elim (fun h => absurd h notStruct) fun h => absurd h notUnion

end Declared

section First

variable {type : LogicalType} (declared : view.column.type.childTypes[0]? = some type)
include declared

theorem first_of_sound (h : view.Sound) :
    ∃ native rest, view.native.children = native :: rest := by
  obtain ⟨native, found⟩ := child_of_sound declared h
  cases hc : view.native.children with
  | nil => simp [hc] at found
  | cons first rest => exact ⟨first, rest, rfl⟩

theorem listChild_failsOnly (hk : view.column.kind = .list ∨ view.column.kind = .map) :
    FailsOnly (Error.OfBinding view) view.native.listChild := by
  unfold NativeVector.listChild
  split
  · exact .ok _
  · exact .ok _
  · next notList notMap =>
    refine .error (.native _ fun sound => ?_)
    obtain ⟨native, rest, children⟩ := first_of_sound declared sound
    rw [← kind_of_sound sound] at hk
    rcases hk with hk | hk
    · exact absurd children (notList native rest hk)
    · exact absurd children (notMap native rest hk)

theorem arrayChild_failsOnly (hk : view.column.kind = .array) :
    FailsOnly (Error.OfBinding view) view.native.arrayChild := by
  unfold NativeVector.arrayChild
  split
  · exact .ok _
  · next notArray =>
    refine .error (.native _ fun sound => ?_)
    obtain ⟨native, rest, children⟩ := first_of_sound declared sound
    rw [← kind_of_sound sound] at hk
    exact absurd children (notArray native rest hk)

end First

/-- The view of a declared member opens, or its memory is at fault. -/
theorem member_opens (hk : view.column.kind = .struct ∨ view.column.kind = .union)
    {type : LogicalType} (declared : view.column.type.childTypes[index]? = some type) :
    FailsOnly (Error.OfBinding view) (view.member index) ∧
      ∀ child, view.member index = .ok child → child.column.type = type := by
  constructor
  · apply member_failsOnly Error.OfBinding.data
    · rw [Column.childTypes_members hk] at declared
      obtain ⟨d, hd, -⟩ := Column.member_ok hk declared
      exact ⟨d, hd⟩
    · exact nativeMember_failsOnly declared hk
  · intro child hm
    exact (opens_of_step (s := .member index) hm).column_type declared

/-- The view of the elements of a LIST or ARRAY. -/
theorem elements_failsOnly {part : LogicalType} (hp : view.column.type.element? = some part) :
    FailsOnly (Error.OfBinding view) (Binder.elements view view.column.type.size?) := by
  have declared : view.column.type.childTypes[0]? = some part := by
    rw [LogicalType.childTypes_element hp]
    rfl
  obtain ⟨d, hd, -⟩ := Column.child_element hp
  cases ht : view.column.type with
  | list _ =>
    have hk : view.column.kind = .list := congrArg LogicalType.kind ht
    have native := listChild_failsOnly declared (.inl hk)
    exact listChildren_failsOnly Error.OfBinding.data ⟨d, hd⟩ native
  | array _ size =>
    have hk : view.column.kind = .array := congrArg LogicalType.kind ht
    have hs : view.column.arraySize? = some size := by simp [Column.arraySize?, ht]
    have native := arrayChild_failsOnly declared hk
    exact arrayChildren_failsOnly Error.OfBinding.data hs ⟨d, hd⟩ native
  | _ => rw [ht] at hp; cases hp

/-- The view of the entries of a MAP. -/
theorem entries_failsOnly {key content : LogicalType} (ht : view.column.type = .map key content) :
    FailsOnly (Error.OfBinding view) view.listChildren := by
  have hk : view.column.kind = .map := congrArg LogicalType.kind ht
  have declared : view.column.type.childTypes[0]? = some (.entry key content) := by rw [ht]; rfl
  obtain ⟨d, hd, -⟩ := Column.child_map ht
  have native := listChild_failsOnly declared (.inr hk)
  exact listChildren_failsOnly Error.OfBinding.data ⟨d, hd⟩ native

end ColumnView

namespace Binder

variable {c k v : Target} {α : Type} {view : ColumnView} {row : Nat}

/-- Where the elements of an ARRAY open, 64 bits count them. -/
theorem elements_room {children : ColumnView}
    (hc : elements view view.column.type.size? = .ok children) {size : Nat}
    (hs : view.column.type.size? = some size) : view.rows * size < sizeModulus := by
  cases ht : view.column.type with
  | array part size' =>
    rw [ht] at hc hs
    cases hs
    exact (ColumnView.arrayChildren_rows ht hc).2
  | _ => rw [ht] at hs; cases hs

/-- The entry of a row is read from memory alone. -/
theorem entryOf_failsOnly {size? : Option Nat}
    (hw : size? = none → view.column.storage.slotWidth? = some 16)
    (room : ∀ size, size? = some size → view.rows * size < sizeModulus) (hr : row < view.rows) :
    FailsOnly (Error.OfRow view row) (entryOf view row size?) := by
  intro e he
  cases size? with
  | some size =>
    rw [(entryOf_array view hr (room size rfl)).1] at he
    cases he
  | none =>
    obtain rfl := ColumnView.unreadable_of_loaded (Result.map_eq_error.mp he)
    exact .unreadable fun sound => entryOf_bounded sound hw hr _ he rfl

theorem list_typed {element : Converter c} {type child : LogicalType}
    (part : type.element? = some child) (h : element.Typed child) (finish : List c.Host → α) :
    (Reading.unbound (list element type.size? finish)).Typed type := by
  rintro view rfl
  have right {children : ColumnView}
      (hc : elements view view.column.type.size? = .ok children) : element.GoesRight children :=
    h children (ColumnView.elements_type part hc)
  constructor
  · apply (ColumnView.elements_failsOnly part).bind
    intro children hc
    exact ((right hc).prepare_child fun sound => sound.elements hc).bind fun _ _ => .ok _
  · intro read bound row hr _
    obtain ⟨children, conv, hc, prepared, rfl⟩ := list_eq_ok bound
    have width : view.column.type.size? = none → view.column.storage.slotWidth? = some 16 :=
      LogicalType.slotWidth_of_entries part
    have entry := entryOf_failsOnly width (fun _ => elements_room hc) hr
    have items := mapChildren_failsOnly entry Error.OfRow.data
      fun j hj => (right hc).convert_child (fun sound => sound.elements hc) prepared hj true
    exact items.bind fun _ _ => .ok _

theorem map_typed {keys : Converter k} {contents : Converter v} {key content : LogicalType}
    (hk : keys.Typed key) (hv : contents.Typed content)
    (finish : List (k.Host × v.Host) → α) :
    (Reading.unbound (map keys contents finish)).Typed (.map key content) := by
  intro view ht
  have part {entries : ColumnView} (he : view.listChildren = .ok entries) (index : Nat)
      {type : LogicalType} (declared : [key, content][index]? = some type) :
      FailsOnly (Error.OfBinding entries) (entries.member index) ∧
        ∀ child, entries.member index = .ok child → child.column.type = type := by
    have entry := ColumnView.entries_type ht he
    apply ColumnView.member_opens (.inl (congrArg LogicalType.kind entry))
    rw [entry]
    exact declared
  constructor
  · apply (ColumnView.entries_failsOnly ht).bind
    intro entries he
    have sound (s : view.Sound) : entries.Sound := s.step (s := .list) he
    obtain ⟨keyOpens, keyType⟩ := part he 0 rfl
    obtain ⟨contentOpens, contentType⟩ := part he 1 rfl
    apply (Error.OfBinding.parent sound keyOpens).bind
    intro keyView hkey
    apply (Error.OfBinding.parent sound contentOpens).bind
    intro contentView hcontent
    apply ((hk keyView (keyType keyView hkey)).prepare_child
      fun s => (sound s).member hkey).bind
    intro _ _
    apply ((hv contentView (contentType contentView hcontent)).prepare_child
      fun s => (sound s).member hcontent).bind
    intro _ _
    exact .ok _
  · intro read bound row hr _
    obtain ⟨entries, keyView, contentView, keyConv, contentConv, he, hkey, hcontent, keyPrepared,
      contentPrepared, rfl⟩ := map_eq_ok bound
    have sound (s : view.Sound) : entries.Sound := s.step (s := .list) he
    obtain ⟨-, keyType⟩ := part he 0 rfl
    obtain ⟨-, contentType⟩ := part he 1 rfl
    have keyRows : keyView.rows = entries.rows :=
      (ColumnView.opens_of_step (s := .member 0) hkey).rows
    have contentRows : contentView.rows = entries.rows :=
      (ColumnView.opens_of_step (s := .member 1) hcontent).rows
    have width : view.column.storage.slotWidth? = some 16 := by
      rw [Column.storage, ht]
      rfl
    have entry : FailsOnly (Error.OfRow view row) (entryOf view row none) :=
      entryOf_failsOnly (fun _ => width) (by rintro _ ⟨⟩) hr
    apply (mapChildren_failsOnly entry Error.OfRow.data _).bind
    · intro pairs _
      exact .ok _
    · intro j hj
      apply ((hk keyView (keyType keyView hkey)).convert_child (fun s => (sound s).member hkey)
        keyPrepared hj true).bind
      intro a _
      apply ((hv contentView (contentType contentView hcontent)).convert_child
        (fun s => (sound s).member hcontent) contentPrepared (by omega) true).bind
      intro b _
      exact .ok (a, b)

section Members

variable {members : List (String × LogicalType)} {plans : List (Converter Target.value)}
  {index : Nat}
  (hk : view.column.kind = .struct ∨ view.column.kind = .union)
  (ht : view.column.type.childTypes.drop index = members.map Prod.snd)
  (typed : List.Forall₂ (fun m plan => plan.Typed m.2) members plans)
include hk ht typed

/-- The plan of a member goes right on the view of that member. -/
theorem member_goesRight {i : Nat} {plan : Converter Target.value} (hp : plans[i]? = some plan) :
    FailsOnly (Error.OfBinding view) (view.member (index + i)) ∧
      ∀ child, view.member (index + i) = .ok child → plan.GoesRight child := by
  obtain ⟨m, hm, right, -⟩ := part_of_plan typed hp
  have declared : view.column.type.childTypes[index + i]? = some m.2 := by
    rw [← List.getElem?_drop, ht, List.getElem?_map, hm]
    rfl
  obtain ⟨opens, type⟩ := ColumnView.member_opens hk declared
  exact ⟨opens, fun child hc => right child (type child hc)⟩

theorem members_bind : FailsOnly (Error.OfBinding view) (Binder.members view index plans) := by
  apply members_failsOnly
  intro i plan hp
  obtain ⟨opens, right⟩ := member_goesRight hk ht typed hp
  exact ⟨opens, fun child hc => (right child hc).prepare_child fun sound => sound.member hc⟩

theorem members_convert {bound : List (Converter Target.value × ColumnView)}
    (h : Binder.members view index plans = .ok bound) (hr : row < view.rows) :
    ∀ b ∈ bound, FailsOnly (Error.OfRow view row) (b.1.convert b.2 row false) := by
  intro b hb
  obtain ⟨i, hi⟩ := List.getElem?_of_mem hb
  obtain ⟨-, at'⟩ := members_eq_ok h
  obtain ⟨plan, hp, hm, prepared⟩ := at' i b hi
  obtain ⟨-, right⟩ := member_goesRight hk ht typed hp
  have rows : b.2.rows = view.rows := (ColumnView.opens_of_step (s := .member (index + i)) hm).rows
  exact (right b.2 hm).convert_child (fun sound => sound.member hm) prepared (rows ▸ hr) false

end Members

theorem struct_typed {members : List (String × LogicalType)} {plans : List (Converter Target.value)}
    (names : List String) (typed : List.Forall₂ (fun m plan => plan.Typed m.2) members plans) :
    (Reading.unbound (struct names plans)).Typed (.struct members) := by
  intro view ht
  have hk : view.column.kind = .struct := congrArg LogicalType.kind ht
  have declared : view.column.type.childTypes.drop 0 = members.map Prod.snd := by rw [ht]; rfl
  constructor
  · exact (members_bind (.inl hk) declared typed).bind fun _ _ => .ok _
  · intro read bound row hr _
    obtain ⟨members, hm, rfl⟩ := struct_eq_ok bound
    exact (FailsOnly.mapM (members_convert (.inl hk) declared typed hm hr)).bind fun _ _ => .ok _

/-- The tags of a UNION are read as any column of their type. -/
theorem tagPlan_typed : LogicalType.tagPlan.Typed (.scalar (.int .u8)) :=
  Converter.Typed.of_reading LogicalType.tagPlan_source LogicalType.tag_decodes.typed

theorem union_typed {alternatives : List (String × LogicalType)}
    {plans : List (Converter Target.value)}
    (typed : List.Forall₂ (fun m plan => plan.Typed m.2) alternatives plans) :
    (Reading.unbound (union LogicalType.tagPlan plans)).Typed (.union alternatives) := by
  intro view ht
  have hk : view.column.kind = .union := congrArg LogicalType.kind ht
  have declared : view.column.type.childTypes.drop 1 = alternatives.map Prod.snd := by rw [ht]; rfl
  have tag : view.column.type.childTypes[0]? = some (.scalar (.int .u8)) := by rw [ht]; rfl
  obtain ⟨opens, tagged⟩ := ColumnView.member_opens (.inr hk) tag
  constructor
  · apply opens.bind
    intro tags hm
    apply (members_bind (.inr hk) declared typed).bind
    intro _ _
    exact .ok _
  · intro read bound row hr _
    obtain ⟨tags, members, htags, hm, rfl⟩ := union_eq_ok bound
    have rows : tags.rows = view.rows := (ColumnView.opens_of_step (s := .member 0) htags).rows
    apply ((tagPlan_typed tags (tagged tags htags)).convert_child (fun sound => sound.member htags)
      rfl (rows ▸ hr) true).bind
    intro n _
    split
    · next plan member hb =>
      exact members_convert (.inr hk) declared typed hm hr _ (List.mem_of_getElem? hb)
    · exact .error (.data _ (.unionTag _ _ _))

end Binder

theorem Reading.Typed.map {α β : Type} {reading : Reading α} {type : LogicalType}
    (h : reading.Typed type) (f : α → β) : (reading.map fun x => .ok (f x)).Typed type := by
  intro view ht
  obtain ⟨binds, reads⟩ := h view ht
  rw [Reading.on_map]
  refine ⟨binds.map _, ?_⟩
  intro read bound row hr hb
  obtain ⟨inner, inside, rfl⟩ := Result.map_eq_ok.mp bound
  exact (reads inner inside row hr hb).bind fun _ _ => .ok _

/-- The plans of the members are typed when their readings are. -/
theorem Converter.members_typed {members : List (String × LogicalType)}
    {plans : List (Converter Target.value)}
    (sources : List.Forall₂ (fun m plan => plan.Source m.2) members plans)
    (readings : ∀ m plan, (m, plan) ∈ members.zip plans → plan.reading.Typed m.2) :
    List.Forall₂ (fun m plan => plan.Typed m.2) members plans := by
  rw [List.forall₂_iff_zip] at sources ⊢
  exact ⟨sources.1, fun hz => .of_reading (sources.2 hz) (readings _ _ hz)⟩

theorem Reading.Shape.typed {type : LogicalType} {α : Type} {reading : Reading α}
    (shape : reading.Shape type) : reading.Typed type := by
  induction shape with
  | slot leaf decodes => exact decodes.typed
  | elements part source shape ih => exact Binder.list_typed part (.of_reading source ih) _
  | struct sources shapes ih => exact Binder.struct_typed _ (Converter.members_typed sources ih)
  | map keySource keyShape contentSource contentShape ihKeys ihContents =>
    exact Binder.map_typed (.of_reading keySource ihKeys)
      (.of_reading contentSource ihContents) _
  | union sources shapes ih => exact Binder.union_typed (Converter.members_typed sources ih)
  | mapped f shape ih => exact ih.map f

/-- Whatever a column resolves to goes right on the views of the column. -/
theorem Column.Resolves.goesRight {c : Column} {t : Target} {plan : Converter t}
    (h : c.Resolves plan) {view : ColumnView} (hc : view.column = c) : plan.GoesRight view := by
  obtain ⟨source, shape⟩ := h.shaped
  exact Converter.Typed.of_reading source shape.typed view (congrArg Column.type hc)

/-- The target that a key asks for. -/
def CacheKey.target : CacheKey → Target
  | typed t | variant t => t

namespace CacheKey

variable {c : Column} (key : CacheKey)

theorem resolves {plan : Converter key.carrier} (h : key.resolve c = .ok plan) :
    c.Resolves plan := by
  cases key with
  | typed t => exact .typed h
  | variant t => exact .variant h

theorem resolve_accepted (h : c.checkTarget key.target = .ok ()) :
    ∃ plan, key.resolve c = .ok plan := by
  cases key with
  | typed t =>
    exact (Column.checked_resolver (c.resolve t) rfl
      (LogicalType.typedPlan_isPlan c.valid)).1.mpr h
  | variant t =>
    exact (Column.checked_resolver (c.resolveVariant t) rfl
      (LogicalType.variantPlan_isPlan c.valid)).1.mpr h

theorem resolve_refused {e : Error} (h : c.checkTarget key.target = .error e) :
    key.resolve c = .error e := by
  cases key <;> exact congrArg (· >>= _) h

end CacheKey

inductive Error.IsMismatch : Error → Prop where
  | intro (declared storage : Kind) (requested : Request) :
      IsMismatch (.typeMismatch declared storage requested)

theorem Error.OfBinding.not_mismatch {view : ColumnView} {e : Error} (h : e.OfBinding view) :
    ¬ e.IsMismatch := by
  rintro ⟨⟩
  cases h

theorem Error.OfRow.not_mismatch {view : ColumnView} {row : Nat} {e : Error}
    (h : e.OfRow view row) : ¬ e.IsMismatch := by
  rintro ⟨⟩
  cases h

/-- An answer goes right when the plan does. -/
theorem Read.answer_not_mismatch {view : ColumnView} {r : Read}
    {plan conv : Converter r.key.carrier} (right : plan.GoesRight view)
    (prepared : plan.prepare view = .ok conv) :
    FailsOnly (¬ ·.IsMismatch) (r.answer view conv) := by
  have convert (row : Nat) (require : Bool) := (right.convert conv prepared row require).mono
    fun _ => Error.OfRow.not_mismatch
  cases r with
  | get t row | getAs t row => exact convert row true
  | getOrDefault t row => exact convert row false
  | tryGet t row =>
    exact (right.tryConvert conv prepared row).mono fun _ => Error.OfRow.not_mismatch
  | values t => exact .mapM fun row _ => convert row true

theorem Schema.locate_not_mismatch (schema : Schema) (column : ColumnRef) :
    FailsOnly (¬ ·.IsMismatch) (schema.locate column) := by
  cases column with
  | index index => exact .ok index
  | name name =>
    change FailsOnly _ (schema.indexOf name)
    unfold Schema.indexOf
    split
    · exact .ok _
    · exact .error nofun

theorem Schema.column_not_mismatch (schema : Schema) (index : Nat) :
    FailsOnly (¬ ·.IsMismatch) (schema.column index) := by
  unfold Schema.column
  split
  · exact .ok _
  · exact .error nofun

/-- A chunk without the column, or with a vector of another type, is not a mismatch of targets. -/
theorem NativeChunk.view_not_mismatch (chunk : NativeChunk) (schema : Schema) (index : Nat) :
    FailsOnly (¬ ·.IsMismatch) (chunk.view schema index) := by
  apply FailsOnly.bind
  · exact schema.column_not_mismatch index
  · intro column _
    apply FailsOnly.bind
    · unfold NativeChunk.vector
      split
      · exact .ok _
      · exact .error nofun
    · intro native _
      unfold ColumnView.withColumn
      split
      · exact ColumnView.firstRows_failsOnly (fun _ _ => nofun) _ _ _ _
      · exact .error nofun

namespace Uncached

variable {s : Uncached} {column : ColumnRef} {t : Target} {index number : Nat} {r : Read}

/-- A check asks whether the schema's column fits the target. -/
theorem checkType_located (hl : s.schema.locate column = .ok index) {found : SchemaColumn}
    (hc : s.schema.column index = .ok found) :
    s.checkType column t = found.column.checkTarget t := by
  unfold checkType Schema.plan
  rw [hl, Result.ok_bind, hc, Result.ok_bind]
  cases ht : found.column.checkTarget t with
  | error e =>
    rw [CacheKey.resolve_refused (.typed t) ht]
    rfl
  | ok u =>
    obtain ⟨plan, hp⟩ := CacheKey.resolve_accepted (.typed t) ht
    rw [hp]
    rfl

theorem located_of_checkType (h : FailsOnly Error.IsMismatch (s.checkType column t)) :
    ∃ index found, s.schema.locate column = .ok index ∧ s.schema.column index = .ok found := by
  cases hl : s.schema.locate column with
  | error e =>
    exact absurd (h e (by rw [checkType, hl]; rfl)) (s.schema.locate_not_mismatch column e hl)
  | ok index =>
    refine ⟨index, ?_⟩
    cases hc : s.schema.column index with
    | error e =>
      have refused : s.checkType column t = .error e := by
        rw [checkType, hl, Result.ok_bind, Schema.plan, hc]
        rfl
      exact absurd (h e refused) (s.schema.column_not_mismatch index e hc)
    | ok found => exact ⟨found, rfl, rfl⟩

section Reads

variable {found : SchemaColumn} {chunk : NativeChunk}

/-- The column of a view of the chunk is the one of the schema. -/
theorem column_of_view (hc : s.schema.column index = .ok found) {view : ColumnView}
    (hv : chunk.view s.schema index = .ok view) : view.column = found.column := by
  unfold NativeChunk.view at hv
  rw [hc, Result.ok_bind] at hv
  obtain ⟨native, -, hv⟩ := Result.bind_eq_ok.mp hv
  exact ColumnView.withColumn_column hv

variable (hl : s.schema.locate column = .ok index) (hc : s.schema.column index = .ok found)
include hl hc

theorem read_accepted (ha : found.column.checkTarget r.key.target = .ok ()) :
    FailsOnly (¬ ·.IsMismatch) (s.read number column r) := by
  apply FailsOnly.bind
  · unfold Uncached.chunk
    split
    · exact .ok _
    · exact .error nofun
  intro chunk _
  simp only [hl, Result.ok_bind]
  apply (chunk.view_not_mismatch s.schema index).bind
  intro view hv
  have same := column_of_view hc hv
  rw [← same] at ha
  obtain ⟨plan, hp⟩ := r.key.resolve_accepted ha
  have right := (r.key.resolves hp).goesRight rfl
  unfold Read.direct
  rw [hp, Result.ok_bind]
  apply FailsOnly.bind
  · exact right.prepare.mono fun _ => Error.OfBinding.not_mismatch
  · intro conv prepared
    exact Read.answer_not_mismatch right prepared

theorem read_refused {e : Error} (he : found.column.checkTarget r.key.target = .error e)
    (hn : s.chunk number = .ok chunk) {view : ColumnView}
    (hv : chunk.view s.schema index = .ok view) : s.read number column r = .error e := by
  have same := column_of_view hc hv
  rw [← same] at he
  unfold read Read.direct
  rw [hn, Result.ok_bind, hl, Result.ok_bind, hv, Result.ok_bind, r.key.resolve_refused he]
  rfl

end Reads
end Uncached

namespace Session

variable {s later : Session}

theorem Valid.schema_after (h : s.Valid) (ops : List Operation) :
    (s.after ops).erase.schema = s.erase.schema :=
  (congrArg Uncached.schema (h.after ops).1).trans (Uncached.schema_after _ ops)

section Checked

variable {column ref : ColumnRef} {t : Target} {r : Read} (h : s.Valid) (hs : later.Valid)
  (same : later.erase.schema = s.erase.schema)
  (hr : s.erase.schema.locate ref = s.erase.schema.locate column) (hk : r.key.target = t)
include h hs same hr hk

/-- A check that succeeds rules out type mismatches in reads of the column as that target. -/
theorem Valid.read_of_check (number : Nat) (checked : (s.step (.checkType column t)).1 = .ok ()) :
    FailsOnly (¬ ·.IsMismatch) (later.read number ref r).1 := by
  rw [(h.step_checkType column t).1] at checked
  rw [(hs.step_read number ref r).1]
  obtain ⟨index, found, hl, hc⟩ := Uncached.located_of_checkType (by rw [checked]; exact .ok ())
  rw [Uncached.checkType_located hl hc, ← hk] at checked
  rw [← hr, ← same] at hl
  rw [← same] at hc
  exact Uncached.read_accepted hl hc checked

/-- The mismatch of a check that fails is that of every read of the column as that target. -/
theorem Valid.read_of_refusal {number : Nat} {e : Error}
    (checked : (s.step (.checkType column t)).1 = .error e) (he : e.IsMismatch)
    {chunk : DataChunk} (hn : later.chunk number = .ok chunk) {index : Nat}
    (hi : chunk.schema.locate ref = .ok index) {view : ColumnView}
    (hv : chunk.view index = .ok view) : (later.read number ref r).1 = .error e := by
  rw [(h.step_checkType column t).1] at checked
  rw [(hs.step_read number ref r).1]
  have mismatch : FailsOnly Error.IsMismatch (s.erase.checkType column t) := by
    rw [checked]
    exact .error he
  obtain ⟨located, found, hl, hc⟩ := Uncached.located_of_checkType mismatch
  rw [Uncached.checkType_located hl hc, ← hk] at checked
  rw [← hr, ← same] at hl
  rw [← same] at hc
  have declared : chunk.schema = later.erase.schema :=
    (hs.chunks chunk (Array.mem_of_getElem? (chunk_eq_ok hn))).declared
  rw [declared, hl] at hi
  cases hi
  rw [DataChunk.view_eq, declared] at hv
  have found' : later.erase.chunk number = .ok chunk.native := by
    rw [erase_chunk, hn]
    rfl
  exact Uncached.read_refused hl hc checked found' hv

end Checked

/-- Accepted plans do not go wrong. For every target that a column accepts, both resolvers give a
plan; on any view of the column, preparing it ends with a fault of the memory or not at all, and
reading with it, missing elements required or not, ends with a fault of the data or for a row that
there is not. So a check that succeeds rules out type mismatches in all later reads of that column as
that target, and the mismatch of a check that fails is what every such read ends with. -/
theorem accepted_reads :
    (∀ (c : Column) (t : Target) (view : ColumnView), c.checkTarget t = .ok () → view.column = c →
      (∃ plan, c.resolve t = .ok plan ∧ plan.GoesRight view) ∧
      ∃ plan, c.resolveVariant t = .ok plan ∧ plan.GoesRight view) ∧
    ∀ schema config pending before later column t,
      let checked :=
        ((start ⟨schema, config, pending, .empty⟩).after before).step (.checkType column t)
      let s := checked.2.after later
      ∀ number ref r, schema.locate ref = schema.locate column → r.key.target = t →
        (checked.1 = .ok () → FailsOnly (¬ ·.IsMismatch) (s.read number ref r).1) ∧
        ∀ e, checked.1 = .error e → e.IsMismatch → ∀ chunk index view,
          s.chunk number = .ok chunk → chunk.schema.locate ref = .ok index →
            chunk.view index = .ok view → (s.read number ref r).1 = .error e := by
  constructor
  · intro c t view ha hc
    obtain ⟨typed, ht⟩ := CacheKey.resolve_accepted (.typed t) ha
    obtain ⟨variant, hv⟩ := CacheKey.resolve_accepted (.variant t) ha
    exact ⟨⟨typed, ht, (CacheKey.resolves (.typed t) ht).goesRight hc⟩,
      ⟨variant, hv, (CacheKey.resolves (.variant t) hv).goesRight hc⟩⟩
  · intro schema config pending before later column t checked s number ref r hr ht
    have valid := ((valid_start schema config pending).after before).2
    have validLater := (valid.after (.checkType column t :: later)).2
    have same := valid.schema_after (.checkType column t :: later)
    have declared := (valid_start schema config pending).schema_after before
    rw [← show _ = schema from declared] at hr
    constructor
    · exact valid.read_of_check validLater same hr ht number
    · intro e refused he chunk index view hn hi hv
      exact valid.read_of_refusal validLater same hr ht refused he hn hi hv

/-- A LIST of booleans whose only entry goes past the child: reading lists does not go wrong, and
reading text is refused as by the check. -/
theorem accepted_reads_entry_outside :
    let child : NativeVector := ⟨.scalar .boolean, 2, #[1, 0], none, #[], [], 0⟩
    let entry : ListEntry := ⟨.wrap .u64 1, .wrap .u64 5⟩
    let native : NativeVector :=
      ⟨.list (.scalar .boolean), 1, entry.toBytes.toArray, none, #[], [child], 2⟩
    let column : Column := ⟨.list (.scalar .boolean), rfl⟩
    let s := (start ⟨⟨[⟨"flags", column⟩]⟩, {}, [.ok ⟨1, [native]⟩], .empty⟩).after [.next]
    (∃ plan, column.resolve (.list .bool) = .ok plan ∧ plan.GoesRight ⟨column, 1, native, []⟩) ∧
    FailsOnly (¬ ·.IsMismatch) ((s.step (.checkType (.index 0) (.list .bool))).2.read 0
      (.name "flags") (.get (.list .bool) 0)).1 ∧
    ((s.step (.checkType (.index 0) .string)).2.read 0 (.name "flags") (.get .string 0)).1 =
      .error (.typeMismatch .list .list (.target .string)) := by
  intro child entry native column s
  obtain ⟨plans, reads⟩ := accepted_reads
  have session (t : Target) := reads ⟨[⟨"flags", column⟩]⟩ {} [.ok ⟨1, [native]⟩] [.next] []
    (.index 0) t 0 (.name "flags") (.get t 0) rfl rfl
  refine ⟨(plans column (.list .bool) ⟨column, 1, native, []⟩ rfl rfl).1, ?_, ?_⟩
  · exact (session (.list .bool)).1 rfl
  · exact (session .string).2 _ rfl (.intro _ _ _) _ 0 ⟨column, 1, native, []⟩ rfl rfl rfl

end Session
end TypedColumns
