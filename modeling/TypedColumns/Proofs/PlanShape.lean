import TypedColumns.Proofs.SlotDecoding

/-!
What plans are made of. Whatever its target, a plan for columns of a type decodes slots, or binds
plans for the parts of the type; its results may go through a function afterwards.
-/
namespace TypedColumns

/-- The plan is for columns of the kind and storage of `type`. -/
structure Converter.Source {c : Target} (plan : Converter c) (type : LogicalType) : Prop where
  kind : plan.kind = type.kind
  storage : plan.storage = type.storage

/-- Elements in a row of an ARRAY. -/
def LogicalType.size? : LogicalType → Option Nat
  | array _ size => some size
  | _ => none

/-- Rows whose elements are not counted have entries in their slots. -/
theorem LogicalType.slotWidth_of_entries {type child : LogicalType}
    (part : type.element? = some child) (hs : type.size? = none) :
    type.storage.slotWidth? = some 16 := by
  cases type with
  | list _ => rfl
  | array _ _ => cases hs
  | _ => cases part

inductive Reading.Shape : LogicalType → {α : Type} → Reading α → Prop where
  | slot {type : LogicalType} {α : Type} {read : Reader α} (leaf : type.kind.isNested = false)
      (decodes : read.Decodes type) : Shape type (.closed read)
  | elements {type child : LogicalType} {c : Target} {α : Type} {element : Converter c}
      {finish : List c.Host → α} (part : type.element? = some child)
      (source : element.Source child) (shape : Shape child element.reading) :
      Shape type (.unbound (Binder.list element type.size? finish))
  | struct {members : List (String × LogicalType)} {names : List String}
      {plans : List (Converter Target.value)}
      (sources : List.Forall₂ (fun m plan => plan.Source m.2) members plans)
      (shapes : ∀ m plan, (m, plan) ∈ members.zip plans → Shape m.2 plan.reading) :
      Shape (.struct members) (.unbound (Binder.struct names plans))
  | map {key content : LogicalType} {k v : Target} {α : Type} {keys : Converter k}
      {contents : Converter v} {finish : List (k.Host × v.Host) → α}
      (keySource : keys.Source key) (keyShape : Shape key keys.reading)
      (contentSource : contents.Source content) (contentShape : Shape content contents.reading) :
      Shape (.map key content) (.unbound (Binder.map keys contents finish))
  | union {alternatives : List (String × LogicalType)} {plans : List (Converter Target.value)}
      (sources : List.Forall₂ (fun m plan => plan.Source m.2) alternatives plans)
      (shapes : ∀ m plan, (m, plan) ∈ alternatives.zip plans → Shape m.2 plan.reading) :
      Shape (.union alternatives) (.unbound (Binder.union LogicalType.tagPlan plans))
  | mapped {type : LogicalType} {α β : Type} {reading : Reading α} (f : α → β)
      (shape : Shape type reading) : Shape type (reading.map fun x => .ok (f x))

/-- A plan for columns of `type`, by the parts of the type. -/
structure Converter.Shaped {c : Target} (plan : Converter c) (type : LogicalType) : Prop where
  source : plan.Source type
  shape : plan.reading.Shape type

namespace Converter.Shaped

variable {c d : Target} {type : LogicalType} {plan : Converter c}

theorem closed {read : Reader c.Host} (leaf : type.kind.isNested = false)
    (decodes : read.Decodes type) (defaultIsInvalid : Bool) :
    (Converter.ofReading type (.closed read) defaultIsInvalid).Shaped type :=
  ⟨⟨rfl, rfl⟩, .slot leaf decodes⟩

theorem map (h : plan.Shaped type) (f : c.Host → d.Host) :
    (plan.map (d := d) fun x => .ok (f x)).Shaped type :=
  ⟨⟨h.source.kind, h.source.storage⟩, .mapped f h.shape⟩

theorem retarget (h : plan.Shaped type) (t : Target) : (plan.retarget t).Shaped type :=
  ⟨⟨h.source.kind, h.source.storage⟩, h.shape⟩

end Converter.Shaped

namespace LogicalType

open Converter (Shaped)

theorem check_element {type child : LogicalType} (h : type.check = .ok ())
    (part : type.element? = some child) : child.check = .ok () := by
  cases type with
  | list child => cases part; exact h
  | array child size => cases part; exact h
  | _ => cases part

theorem tag_decodes : (Reader.widened .u8 .u8).Decodes (scalar (.int .u8)) :=
  Reader.Decodes.image (.int rfl rfl) fun _ => Word.widen .u8

theorem tagPlan_source : tagPlan.Source (scalar (.int .u8)) := ⟨rfl, rfl⟩

theorem listPlan_shaped {c d : Target} {type child : LogicalType} {element : Converter c}
    {finish : List c.Host → d.Host} {plan : Converter d} (part : type.element? = some child)
    (h : element.Shaped child) (hp : listPlan type element finish = .ok plan) :
    plan.Shaped type := by
  cases type with
  | list child => cases part; cases hp; exact ⟨⟨rfl, rfl⟩, .elements rfl h.source h.shape⟩
  | array child size => cases part; cases hp; exact ⟨⟨rfl, rfl⟩, .elements rfl h.source h.shape⟩
  | _ => cases part

theorem mapPlan_shaped {k v d : Target} {key value : LogicalType} {keys : Converter k}
    {contents : Converter v} (hk : keys.Shaped key) (hv : contents.Shaped value)
    (finish : List (k.Host × v.Host) → d.Host) :
    (mapPlan (map key value) keys contents finish).Shaped (map key value) :=
  ⟨⟨rfl, rfl⟩, .map hk.source hk.shape hv.source hv.shape⟩

theorem structPlan_shaped {members : List (String × LogicalType)}
    {plans : List (Converter Target.value)}
    (h : List.Forall₂ (fun m plan => plan.Shaped m.2) members plans) :
    (structPlan (struct members) plans).Shaped (struct members) := by
  refine ⟨⟨rfl, rfl⟩, .struct (h.imp fun _ _ hs => hs.source) ?_⟩
  intro m plan hm
  exact ((List.forall₂_iff_zip.mp h).2 hm).shape

/-- Each member has the plan of its own type. -/
theorem boxedPlans_inv {members : List (String × LogicalType)}
    {plans : List (Converter Target.value)}
    (h : boxedPlans members = .ok plans) :
    List.Forall₂ (fun m plan => boxedPlan m.2 = .ok plan) members plans := by
  induction members generalizing plans with
  | nil => cases h; exact .nil
  | cons m rest ih =>
    rw [boxedPlans, Result.bind_eq_ok] at h
    obtain ⟨plan, hp, h⟩ := h
    obtain ⟨others, ho, h⟩ := Result.bind_eq_ok.mp h
    cases h
    exact .cons hp (ih ho)

theorem boxedPlans_shaped {members : List (String × LogicalType)}
    {plans : List (Converter Target.value)}
    (h : boxedPlans members = .ok plans) (hm : ∀ m ∈ members, ∀ plan : Converter Target.value,
      boxedPlan m.2 = .ok plan → plan.Shaped m.2) :
    List.Forall₂ (fun m plan => plan.Shaped m.2) members plans := by
  have made := boxedPlans_inv h
  rw [List.forall₂_iff_zip] at made ⊢
  exact ⟨made.1, fun hz => hm _ (List.of_mem_zip hz).1 _ (made.2 hz)⟩

theorem boxedPlan_shaped {type : LogicalType} (h : type.check = .ok ())
    {plan : Converter Target.value} (hp : boxedPlan type = .ok plan) : plan.Shaped type := by
  have slot {type : LogicalType} (h : type.check = .ok ()) (leaf : type.kind.isNested = false)
      {plan : Converter Target.value} (hp : boxedPlan type = .ok plan) : plan.Shaped type := by
    obtain ⟨read, hr⟩ := boxed?_isSome h leaf
    rw [boxedPlan_leaf leaf hr] at hp
    cases hp
    exact .closed (c := .value) leaf (Reader.boxed?_decodes hr) false
  induction type using induction_on_members generalizing plan with
  | scalar kind => exact slot h (check_scalar_nested h) hp
  | decimal width scale => exact slot h rfl hp
  | enum dictionary => exact slot h rfl hp
  | list child ih =>
    rw [boxedPlan] at hp
    obtain ⟨element, he, hp⟩ := Result.bind_eq_ok.mp hp
    exact listPlan_shaped rfl (ih h he) hp
  | array child size ih =>
    rw [boxedPlan] at hp
    obtain ⟨element, he, hp⟩ := Result.bind_eq_ok.mp hp
    exact listPlan_shaped rfl (ih h he) hp
  | struct members ih =>
    rw [boxedPlan] at hp
    obtain ⟨plans, hps, hp⟩ := Result.bind_eq_ok.mp hp
    cases hp
    have shaped := boxedPlans_shaped hps fun m hm plan => ih m hm (checkAll_of_mem h hm)
    exact (structPlan_shaped shaped).map (d := .value) Value.struct
  | map key value ihk ihv =>
    rw [boxedPlan] at hp
    obtain ⟨keys, hk, hp⟩ := Result.bind_eq_ok.mp hp
    obtain ⟨values, hv, hp⟩ := Result.bind_eq_ok.mp hp
    cases hp
    have shaped := mapPlan_shaped (d := .pairs) (ihk (check_map_left h) hk)
      (ihv (check_map_right h) hv) id
    exact shaped.map (d := .value) Value.map
  | union alternatives ih =>
    rw [boxedPlan] at hp
    obtain ⟨plans, hps, hp⟩ := Result.bind_eq_ok.mp hp
    cases hp
    have shaped := boxedPlans_shaped hps fun m hm plan =>
      ih m hm (checkAll_of_mem (checkAll_of_check_union h) hm)
    refine ⟨⟨rfl, rfl⟩, .union (shaped.imp fun _ _ hs => hs.source) ?_⟩
    intro m plan hm
    exact ((List.forall₂_iff_zip.mp shaped).2 hm).shape

theorem blobReader?_decodes {t : Target} {read : Reader (List t.Host)}
    (hr : blobReader? t = some read) : read.Decodes (scalar .blob) := by
  cases t with
  | int l =>
    cases l with
    | u8 => cases hr; exact Reader.bytes_decodes
    | _ => cases hr
  | _ => cases hr

theorem typedPlan_shaped {t : Target} {type : LogicalType} (h : type.check = .ok ())
    {plan : Converter t} (hp : typedPlan t type = .ok plan) : plan.Shaped type := by
  induction t generalizing type with
  | option t ih =>
    obtain ⟨inner, hi, rfl⟩ := typedPlan_of_option hp
    exact (ih h hi).map (d := .option t) some
  | value => exact boxedPlan_shaped h hp
  | struct =>
    cases type with
    | struct members =>
      obtain ⟨plans, hps, hp⟩ := Result.bind_eq_ok.mp hp
      cases hp
      exact structPlan_shaped (boxedPlans_shaped hps fun m hm plan =>
        boxedPlan_shaped (checkAll_of_mem h hm))
    | _ => cases hp
  | pairs =>
    cases type with
    | map key value =>
      obtain ⟨keys, hk, hp⟩ := Result.bind_eq_ok.mp hp
      obtain ⟨values, hv, hp⟩ := Result.bind_eq_ok.mp hp
      cases hp
      exact mapPlan_shaped (boxedPlan_shaped (check_map_left h) hk)
        (boxedPlan_shaped (check_map_right h) hv) _
    | _ => cases hp
  | map k v ihk ihv =>
    cases type with
    | map key value =>
      obtain ⟨keys, hk, hp⟩ := Result.bind_eq_ok.mp hp
      obtain ⟨values, hv, hp⟩ := Result.bind_eq_ok.mp hp
      cases hp
      exact mapPlan_shaped (ihk (check_map_left h) hk) (ihv (check_map_right h) hv) _
    | _ => cases hp
  | list t ih =>
    have elements {child : LogicalType} (part : type.element? = some child) :
        plan.Shaped type := by
      rw [typedPlan_list part] at hp
      obtain ⟨element, he, hp⟩ := Result.bind_eq_ok.mp hp
      exact listPlan_shaped part (ih (check_element h part) he) hp
    cases type with
    | list child => exact elements rfl
    | array child size => exact elements rfl
    | scalar kind =>
      cases kind with
      | blob =>
        simp only [typedPlan] at hp
        split at hp
        · next read hr =>
          cases hp
          exact .closed (c := .list t) rfl (blobReader?_decodes hr) false
        · cases hp
      | _ => cases hp
    | _ => cases hp
  | fixedList t ih =>
    have elements {child : LogicalType} (part : type.element? = some child) :
        plan.Shaped type := by
      rw [typedPlan_fixedList part] at hp
      obtain ⟨element, he, hp⟩ := Result.bind_eq_ok.mp hp
      exact listPlan_shaped part (ih (check_element h part) he) hp
    cases type with
    | list child => exact elements rfl
    | array child size => exact elements rfl
    | scalar kind =>
      cases kind with
      | blob =>
        simp only [typedPlan] at hp
        split at hp
        · next read hr =>
          cases hp
          exact .closed (c := .fixedList t) rfl (blobReader?_decodes hr) false
        · cases hp
      | _ => cases hp
    | _ => cases hp
  | _ =>
    rw [typedPlan_leaf type rfl] at hp
    split at hp
    · next read hr =>
      cases hp
      exact .closed (not_nested_of_typed? h hr) (Reader.typed?_decodes hr) false
    · cases hp

theorem boxedAs_shaped {t : Target} {type : LogicalType} (h : type.check = .ok ())
    {plan : Converter Target.value} (hp : boxedAs t type = .ok plan) : plan.Shaped type := by
  obtain ⟨typed, ht, hp⟩ := Result.bind_eq_ok.mp hp
  cases hp
  exact ((typedPlan_shaped h ht).map (d := .value) t.toValue).retarget t

theorem variantPlan_shaped {t : Target} {type : LogicalType} (h : type.check = .ok ())
    {plan : Converter Target.value} (hp : variantPlan t type = .ok plan) : plan.Shaped type := by
  induction t generalizing type plan with
  | option t ih =>
    obtain ⟨inner, hi, hp⟩ := Result.bind_eq_ok.mp hp
    cases hp
    exact (ih h hi).retarget (.option t)
  | value => exact boxedPlan_shaped h hp
  | map k v ihk ihv =>
    cases type with
    | map key value =>
      obtain ⟨keys, hk, hp⟩ := Result.bind_eq_ok.mp hp
      obtain ⟨values, hv, hp⟩ := Result.bind_eq_ok.mp hp
      cases hp
      exact (mapPlan_shaped (ihk (check_map_left h) hk) (ihv (check_map_right h) hv) _).retarget _
    | _ => cases hp
  | list t ih =>
    have elements {child : LogicalType} (part : type.element? = some child) :
        plan.Shaped type := by
      rw [variantPlan_list part] at hp
      obtain ⟨element, he, hp⟩ := Result.bind_eq_ok.mp hp
      obtain ⟨whole, hw, hp⟩ := Result.bind_eq_ok.mp hp
      cases hp
      exact (listPlan_shaped part (ih (check_element h part) he) hw).retarget (.list t)
    cases type with
    | list child => exact elements rfl
    | array child size => exact elements rfl
    | _ => exact boxedAs_shaped h hp
  | fixedList t ih =>
    have elements {child : LogicalType} (part : type.element? = some child) :
        plan.Shaped type := by
      rw [variantPlan_fixedList part] at hp
      obtain ⟨element, he, hp⟩ := Result.bind_eq_ok.mp hp
      obtain ⟨whole, hw, hp⟩ := Result.bind_eq_ok.mp hp
      cases hp
      exact (listPlan_shaped part (ih (check_element h part) he) hw).retarget (.fixedList t)
    cases type with
    | list child => exact elements rfl
    | array child size => exact elements rfl
    | _ => exact boxedAs_shaped h hp
  | enum name members =>
    cases type with
    | enum dictionary =>
      cases hp
      have decodes : Reader.Decodes (.enum dictionary)
          ((Reader.enumKnown dictionary name members).map fun member => .ok (Value.enum member)) :=
        (Reader.enumKnown_decodes dictionary name members).map fun _ => .ok _
      exact (Shaped.closed (c := .value) rfl decodes false).retarget (.enum name members)
    | _ => cases hp
  | _ => exact boxedAs_shaped h hp

end LogicalType

/-- A plan that column `c` is resolved to: for a target known in advance, for one chosen at run
time, or for boxed values. -/
inductive Column.Resolves (c : Column) : {t : Target} → Converter t → Prop where
  | typed {t : Target} {plan : Converter t} (h : c.resolve t = .ok plan) : Resolves c plan
  | variant {t : Target} {plan : Converter Target.value} (h : c.resolveVariant t = .ok plan) :
      Resolves c plan
  | boxed {plan : Converter Target.value} (h : c.resolveBoxed = .ok plan) : Resolves c plan

theorem Column.Resolves.shaped {c : Column} {t : Target} {plan : Converter t}
    (h : c.Resolves plan) : plan.Shaped c.type := by
  cases h with
  | typed h =>
    obtain ⟨_, -, h⟩ := Result.bind_eq_ok.mp h
    exact LogicalType.typedPlan_shaped c.valid h
  | variant h =>
    obtain ⟨_, -, h⟩ := Result.bind_eq_ok.mp h
    exact LogicalType.variantPlan_shaped c.valid h
  | boxed h => exact LogicalType.boxedPlan_shaped c.valid h

end TypedColumns
