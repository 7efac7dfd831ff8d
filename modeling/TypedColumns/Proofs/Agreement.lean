import TypedColumns.Proofs.Keys
import TypedColumns.Proofs.Resolution

/-!
A target known in advance and the same target chosen at run time are read by one another's rules:
the plans check the same sources, fail with the same errors and give values that stand for the same
elements. The values differ in form in two ways, which `Target.Agrees` spells out.
-/
namespace TypedColumns

/-- The readers give related results for every row of every view. -/
def Reader.Agree {α β : Type} (R : α → β → Prop) (r : Reader α) (s : Reader β) : Prop :=
  ∀ view row, Result.Rel R (r view row) (s view row)

inductive Reading.Agree {α β : Type} (R : α → β → Prop) : Reading α → Reading β → Prop where
  | closed {r : Reader α} {s : Reader β} (h : r.Agree R s) : Agree R (.closed r) (.closed s)
  | unbound {a : Binder α} {b : Binder β}
      (h : ∀ view, Result.Rel (Reader.Agree R) (a view) (b view)) :
      Agree R (.unbound a) (.unbound b)

namespace Converter

variable {c d : Target}

/-- The converters declare the same and read related elements; where they tolerate a missing
element, its values are related too. -/
structure Agree (R : c.Host → d.Host → Prop) (p : Converter c) (q : Converter d) : Prop where
  target : p.target = q.target
  kind : p.kind = q.kind
  storage : p.storage = q.storage
  policy : p.defaultIsInvalid = q.defaultIsInvalid
  reading : p.reading.Agree R q.reading
  missing : p.defaultIsInvalid = true → R c.missing d.missing

namespace Agree

variable {R : c.Host → d.Host → Prop} {p : Converter c} {q : Converter d}

theorem checkSource (h : p.Agree R q) (view : ColumnView) :
    p.checkSource view = q.checkSource view := by
  unfold Converter.checkSource
  rw [h.target, h.kind, h.storage]

theorem prepare (h : p.Agree R q) (view : ColumnView) :
    Result.Rel (Agree R) (p.prepare view) (q.prepare view) := by
  obtain ⟨target, kind, storage, policy, reading⟩ := p
  obtain ⟨target', kind', storage', policy', reading'⟩ := q
  have hs := h.checkSource view
  obtain ⟨ht, hk, hst, hp, hr, hm⟩ := h
  cases hr with
  | closed hr => exact .ok ⟨ht, hk, hst, hp, .closed hr, hm⟩
  | unbound hb =>
    simp only [Converter.prepare, isBound, bindTo]
    rw [hs]
    apply Result.Rel.bind_same
    intro _
    apply (hb view).bind
    intro r s hrs
    exact .ok ⟨ht, hk, hst, hp, .closed hrs, hm⟩

theorem tryConvert (h : p.Agree R q) (view : ColumnView) (row : Nat) :
    Result.Rel (Option.Rel R) (p.tryConvert view row) (q.tryConvert view row) := by
  obtain ⟨target, kind, storage, policy, reading⟩ := p
  obtain ⟨target', kind', storage', policy', reading'⟩ := q
  have hs := h.checkSource view
  obtain ⟨ht, hk, hst, hp, hr, hm⟩ := h
  cases hr with
  | unbound hb =>
    obtain rfl : target = target' := ht
    exact .error _
  | closed hr =>
    simp only [Converter.tryConvert]
    rw [hs]
    apply Result.Rel.bind_same
    intro _
    apply Result.Rel.bind_same
    intro valid
    cases valid with
    | false => exact .ok .none
    | true => exact (hr view row).map fun _ _ hab => .some hab

theorem convert (h : p.Agree R q) (view : ColumnView) (row : Nat) :
    Result.Rel R (p.convert view row true) (q.convert view row true) := by
  unfold Converter.convert
  apply (h.tryConvert view row).bind
  intro x y hxy
  cases hxy with
  | some hab => exact .ok hab
  | none =>
    rw [← h.policy, ← h.target]
    cases hd : p.defaultIsInvalid with
    | false => exact .error _
    | true => exact .ok (h.missing hd)

theorem refl {R : c.Host → c.Host → Prop} (h : ∀ x, R x x) (p : Converter c) : p.Agree R p := by
  refine ⟨rfl, rfl, rfl, rfl, ?_, fun _ => h _⟩
  cases p.reading with
  | closed read => exact .closed fun view row => .refl h _
  | unbound bind => exact .unbound fun view => .refl (fun read view row => .refl h _) _

/-- Two readings of one type for the target `c`, the second one with boxed results. -/
theorem ofReading {R : c.Host → Value → Prop} (type : LogicalType) {reading : Reading c.Host}
    {boxed : Reading Value} (h : reading.Agree R boxed) (missing : c.isNullable = false) :
    (Converter.ofReading (c := c) type reading false).Agree R
      ((Converter.ofReading (c := .value) type boxed false).retarget c) := by
  refine ⟨rfl, rfl, rfl, rfl, h, ?_⟩
  intro hd
  change (false || c.isNullable) = true at hd
  rw [missing] at hd
  contradiction

end Agree
end Converter

/-- A reading agrees with the same reading whose results are passed through `f`. -/
theorem Reading.agree_map {α β : Type} (f : α → β) (reading : Reading α) :
    reading.Agree (fun x y => y = f x) (reading.map fun x => .ok (f x)) := by
  have one (x : Result α) : Result.Rel (fun x y => y = f x) x (x >>= fun x => .ok (f x)) := by
    cases x with
    | error e => exact .error e
    | ok a => exact .ok rfl
  cases reading with
  | closed read => exact .closed fun view row => one _
  | unbound bind =>
    refine .unbound fun view => ?_
    cases bind view with
    | error e => exact .error e
    | ok read => exact .ok fun view row => one _

/-- Results on one side may be passed through a function that keeps the relation. -/
theorem Reading.Agree.map_left {α β γ : Type} {R : α → β → Prop} {S : γ → β → Prop}
    {a : Reading α} {b : Reading β} (h : a.Agree R b) {f : α → γ}
    (hf : ∀ x y, R x y → S (f x) y) : (a.map fun x => .ok (f x)).Agree S b := by
  have one {x : Result α} {y : Result β} (hxy : Result.Rel R x y) :
      Result.Rel S (x >>= fun x => .ok (f x)) y := by
    cases hxy with
    | error e => exact .error e
    | ok hr => exact .ok (hf _ _ hr)
  cases h with
  | closed hr => exact .closed fun view row => one (hr view row)
  | unbound hb =>
    exact .unbound fun view => (hb view).map_left fun _ _ hrs view row => one (hrs view row)

namespace Binder

variable {c d k l v w : Target} {α β : Type} {T : α → β → Prop}

theorem mapChildren_agree {R : α → β → Prop} (view : ColumnView) (row : Nat) (size? : Option Nat)
    (childRows : Nat) {f : Nat → Result α} {g : Nat → Result β}
    (h : ∀ child, Result.Rel R (f child) (g child)) :
    Result.Rel (List.Forall₂ R) (mapChildren view row size? childRows f)
      (mapChildren view row size? childRows g) := by
  unfold mapChildren
  apply Result.Rel.bind_same
  intro span
  exact Result.Rel.mapM fun child _ => h child

theorem list_agree {R : c.Host → d.Host → Prop} {p : Converter c} {q : Converter d}
    (h : p.Agree R q) (size? : Option Nat) {finish : List c.Host → α} {finish' : List d.Host → β}
    (hf : ∀ xs ys, List.Forall₂ R xs ys → T (finish xs) (finish' ys)) (view : ColumnView) :
    Result.Rel (Reader.Agree T) (Binder.list p size? finish view)
      (Binder.list q size? finish' view) := by
  unfold Binder.list
  apply Result.Rel.bind_same
  intro children
  apply (h.prepare children).bind
  intro p' q' h'
  apply Result.Rel.ok
  intro view row
  apply (mapChildren_agree view row size? _ fun child => h'.convert children child).bind
  intro xs ys hxs
  exact .ok (hf xs ys hxs)

theorem map_agree {R : k.Host → l.Host → Prop} {S : v.Host → w.Host → Prop}
    {keys : Converter k} {keys' : Converter l} {contents : Converter v} {contents' : Converter w}
    (hk : keys.Agree R keys') (hc : contents.Agree S contents')
    {finish : List (k.Host × v.Host) → α} {finish' : List (l.Host × w.Host) → β}
    (hf : ∀ xs ys, List.Forall₂ (fun x y => R x.1 y.1 ∧ S x.2 y.2) xs ys →
      T (finish xs) (finish' ys)) (view : ColumnView) :
    Result.Rel (Reader.Agree T) (Binder.map keys contents finish view)
      (Binder.map keys' contents' finish' view) := by
  unfold Binder.map
  apply Result.Rel.bind_same
  intro entries
  apply Result.Rel.bind_same
  intro keyView
  apply Result.Rel.bind_same
  intro contentView
  apply (hk.prepare keyView).bind
  intro p p' hp
  apply (hc.prepare contentView).bind
  intro q q' hq
  apply Result.Rel.ok
  intro view row
  refine Result.Rel.bind (R := List.Forall₂ fun x y => R x.1 y.1 ∧ S x.2 y.2) ?_ ?_
  · apply mapChildren_agree
    intro entry
    apply (hp.convert keyView entry).bind
    intro a a' ha
    apply (hq.convert contentView entry).bind
    intro b b' hb
    exact .ok ⟨ha, hb⟩
  · intro xs ys hxs
    exact .ok (hf xs ys hxs)

end Binder

namespace Target

/-- `v` is what the reader for a target chosen at run time gives where the one for `t` gives `x`, in
a column of `type`. It is the boxed form of `x`, but bytes from a LIST or ARRAY are a list of
integers and not a blob, and a map has every pair in order where `x` has the last one of each
key. -/
def Agrees : (t : Target) → LogicalType → t.Host → Value → Prop
  | option _, _, none, v => v = .null
  | option t, type, some x, v => t.Agrees type x v
  | list t, type, xs, v => match type.element? with
    | some child => ∃ items, v = .list items ∧ List.Forall₂ (t.Agrees child) xs items
    | none => v = (list t).toValue xs
  | fixedList t, type, xs, v => match type.element? with
    | some child => ∃ items, v = .list items ∧ List.Forall₂ (t.Agrees child) xs items
    | none => v = (fixedList t).toValue xs
  | map k w, .map key content, kept, v =>
    ∃ (entries : List (k.Host × w.Host)) (pairs : List (Value × Value)), v = .map pairs ∧
      List.Forall₂ (fun x y => k.Agrees key x.1 y.1 ∧ w.Agrees content x.2 y.2) entries pairs ∧
      KeepsLast entries kept
  | t, _, x, v => v = t.toValue x

theorem agrees_elements {t : Target} {type child : LogicalType} (he : type.element? = some child)
    {xs : List t.Host} {items : List Value} (h : List.Forall₂ (t.Agrees child) xs items) :
    (list t).Agrees type xs (.list items) ∧ (fixedList t).Agrees type xs (.list items) := by
  constructor
  · unfold Agrees
    rw [he]
    exact ⟨items, rfl, h⟩
  · unfold Agrees
    rw [he]
    exact ⟨items, rfl, h⟩

theorem agrees_bytes {type : LogicalType} (he : type.element? = none) (t : Target) :
    (list t).Agrees type = (fun xs v => v = (list t).toValue xs) ∧
      (fixedList t).Agrees type = (fun xs v => v = (fixedList t).toValue xs) := by
  constructor
  · funext xs v
    unfold Agrees
    rw [he]
  · funext xs v
    unfold Agrees
    rw [he]

/-- The targets that are known in advance: the keys of every map have an equality. -/
def isStatic : Target → Bool
  | option t | list t | fixedList t => t.isStatic
  | map k v => k.isKey && k.isStatic && v.isStatic
  | _ => true

end Target

open LogicalType

/-- The plan for a target known in advance is a reading without a null policy of its own. -/
def LogicalType.PlainPlan (t : Target) (type : LogicalType) : Prop :=
  (∃ reading, typedPlan t type = .ok (.ofReading type reading false)) ∨
    ∃ e, typedPlan t type = .error e

namespace LogicalType

theorem plainPlan_leaf (type : LogicalType) {t : Target} (leaf : t.isLeaf) : PlainPlan t type := by
  unfold PlainPlan
  rw [typedPlan_leaf type leaf]
  cases Reader.typed? type t with
  | some read => exact .inl ⟨_, rfl⟩
  | none => exact .inr ⟨_, rfl⟩

theorem plainPlan_struct (type : LogicalType) : PlainPlan .struct type := by
  cases type with
  | struct members =>
    unfold PlainPlan
    rw [typedPlan]
    cases boxedPlans members with
    | error e => exact .inr ⟨e, rfl⟩
    | ok plans => exact .inl ⟨_, rfl⟩
  | _ => exact .inr ⟨_, rfl⟩

theorem plainPlan_pairs (type : LogicalType) : PlainPlan .pairs type := by
  cases type with
  | map key value =>
    unfold PlainPlan
    rw [typedPlan]
    cases boxedPlan key with
    | error e => exact .inr ⟨e, rfl⟩
    | ok keys =>
      cases boxedPlan value with
      | error e => exact .inr ⟨e, rfl⟩
      | ok values => exact .inl ⟨_, rfl⟩
  | _ => exact .inr ⟨_, rfl⟩

/-- Without elements only the bytes of a BLOB are a list. -/
theorem plainPlan_list (t : Target) {type : LogicalType} (h : type.element? = none) :
    PlainPlan (.list t) type ∧ PlainPlan (.fixedList t) type := by
  cases type with
  | list child | array child size => cases h
  | scalar kind =>
    unfold PlainPlan
    by_cases hk : kind = .blob
    · subst hk
      simp only [typedPlan]
      cases blobReader? t with
      | some read => exact ⟨.inl ⟨_, rfl⟩, .inl ⟨_, rfl⟩⟩
      | none => exact ⟨.inr ⟨_, rfl⟩, .inr ⟨_, rfl⟩⟩
    · constructor <;> right <;> cases kind <;> first | exact ⟨_, rfl⟩ | contradiction
  | _ => exact ⟨.inr ⟨_, rfl⟩, .inr ⟨_, rfl⟩⟩

theorem boxedAs_agree {t : Target} {type : LogicalType} (h : PlainPlan t type)
    (missing : t.isNullable = false) :
    Result.Rel (Converter.Agree fun x v => v = t.toValue x) (typedPlan t type)
      (boxedAs t type) := by
  unfold boxedAs
  rcases h with ⟨reading, hp⟩ | ⟨e, hp⟩
  · rw [hp]
    exact .ok (.ofReading type (reading.agree_map t.toValue) missing)
  · rw [hp]
    exact .error e

/-- The table of members and the search among them find the same member or fail alike. -/
theorem enum_agree (dictionary : Array String) (name : String) (members : List String) :
    (Reader.enumMember dictionary name members).Agree (fun x v => v = Value.enum x)
      ((Reader.enumKnown dictionary name members).map fun member => .ok (Value.enum member)) := by
  intro view row
  simp only [Reader.enumMember, Reader.enumKnown, Reader.memberName, Reader.memberTable, Reader.map,
    bind_assoc, Array.getElem?_map]
  apply Result.Rel.bind_same
  intro n
  cases hn : dictionary[n]? with
  | none => exact .error _
  | some found =>
    cases hm : members.find? (· == found) with
    | none =>
      have absent : members.contains found = false := by
        rw [List.find?_eq_none] at hm
        simpa using fun hf => hm found hf (beq_self_eq_true found)
      simp only [Option.map_some, Result.ok_bind, hm, absent]
      exact .error _
    | some member =>
      obtain rfl : member = found := by simpa using List.find?_some hm
      have present : members.contains member = true := by
        simpa using List.mem_of_find?_eq_some hm
      simp only [Option.map_some, Result.ok_bind, hm, present]
      exact .ok rfl

theorem listPlan_agree {t d : Target} {type child : LogicalType} {R : d.Host → Value → Prop}
    (he : type.element? = some child) {S : t.Host → Value → Prop} {p : Converter t}
    {q : Converter Target.value} (h : p.Agree S q) (missing : d.isNullable = false)
    {finish : List t.Host → d.Host}
    (hf : ∀ xs ys, List.Forall₂ S xs ys → R (finish xs) (.list ys)) :
    Result.Rel (Converter.Agree R) (listPlan type p finish)
      (do
        let plan : Converter Target.value ← listPlan type q Value.list
        return plan.retarget d) := by
  cases type with
  | list child =>
    exact .ok (.ofReading _ (.unbound (Binder.list_agree (α := d.Host) (β := Value) h none hf))
      missing)
  | array child size =>
    exact .ok (.ofReading _
      (.unbound (Binder.list_agree (α := d.Host) (β := Value) h (some size) hf)) missing)
  | _ => cases he

/-- The plans for a target known in advance and for the same target chosen at run time agree, down
to the element that an error is about. -/
theorem plans_agree {t : Target} (h : t.isStatic) {type : LogicalType} (valid : type.check = .ok ())
    (ha : type.accepts t) :
    Result.Rel (Converter.Agree (t.Agrees type)) (typedPlan t type) (variantPlan t type) := by
  induction t generalizing type with
  | option t ih =>
    have ha' : type.accepts t := by simpa [accepts] using ha
    obtain ⟨p, hp, -⟩ := typedPlan_isPlan valid ha'
    obtain ⟨q, hq, -⟩ := variantPlan_isPlan valid ha'
    have inner := ih h valid ha'
    rw [hp, hq] at inner
    rw [typedPlan_option hp, variantPlan, hq]
    cases inner with
    | ok hpq =>
      exact .ok ⟨rfl, hpq.kind, hpq.storage, rfl, hpq.reading.map_left fun _ _ hx => hx,
        fun _ => rfl⟩
  | value => exact .refl (.refl fun _ => rfl) _
  | struct => exact boxedAs_agree (plainPlan_struct type) rfl
  | pairs => exact boxedAs_agree (plainPlan_pairs type) rfl
  | map k v ihk ihv =>
    simp only [Target.isStatic, Bool.and_eq_true] at h
    obtain ⟨key, content, rfl, hak, hac⟩ := map_of_accepts valid ha
    apply (ihk h.1.2 (check_map_left valid) hak).bind
    intro keys keys' hk
    apply (ihv h.2 (check_map_right valid) hac).bind
    intro contents contents' hc
    refine .ok (.ofReading _ (.unbound (Binder.map_agree hk hc ?_)) rfl)
    intro entries pairs hp
    exact ⟨entries, pairs, rfl, hp, Target.distinctKeys_keepsLast h.1.1 entries⟩
  | list t ih =>
    rcases elements_of_accepts_list valid ha with ⟨child, he, hc, hac⟩ | ⟨rfl, rfl⟩
    · rw [typedPlan_list he, variantPlan_list he]
      apply (ih h hc hac).bind
      intro p q hpq
      exact listPlan_agree he hpq rfl fun xs ys hxs => (Target.agrees_elements he hxs).1
    · rw [(Target.agrees_bytes rfl (.int .u8)).1]
      exact boxedAs_agree (plainPlan_list (.int .u8) rfl).1 rfl
  | fixedList t ih =>
    rcases elements_of_accepts_list valid (accepts_fixedList type t ▸ ha)
      with ⟨child, he, hc, hac⟩ | ⟨rfl, rfl⟩
    · rw [typedPlan_fixedList he, variantPlan_fixedList he]
      apply (ih h hc hac).bind
      intro p q hpq
      exact listPlan_agree he hpq rfl fun xs ys hxs => (Target.agrees_elements he hxs).2
    · rw [(Target.agrees_bytes rfl (.int .u8)).2]
      exact boxedAs_agree (plainPlan_list (.int .u8) rfl).2 rfl
  | enum name members =>
    cases type with
    | enum dictionary => exact .ok (.ofReading _ (.closed (enum_agree dictionary name members)) rfl)
    | scalar kind => exact .error _
    | _ => exact .error _
  | _ => exact boxedAs_agree (plainPlan_leaf type rfl) rfl

end LogicalType

/-- Every row of the view is missing for both converters, or has values that `R` relates, or gives
both the same error. -/
def Converter.SameReads {c d : Target} (R : c.Host → d.Host → Prop) (p : Converter c)
    (q : Converter d) (view : ColumnView) : Prop :=
  ∀ row, Result.Rel (Option.Rel R) (p.tryConvert view row) (q.tryConvert view row) ∧
    Result.Rel R (p.convert view row true) (q.convert view row true)

namespace Column

/-- Reading column `c` as `t` comes to the same whether `t` is known in advance or chosen at run
time: both are refused, or both have plans that prepare alike for every view and then read alike. -/
def ResolversAgree (c : Column) (t : Target) : Prop :=
  Result.Rel
    (fun p q => ∀ view, Result.Rel (fun p q => p.SameReads (t.Agrees c.type) q view)
      (p.prepare view) (q.prepare view))
    (c.resolve t) (c.resolveVariant t)

theorem resolvers_agree (c : Column) {t : Target} (h : t.isStatic) :
    c.ResolversAgree t ∧
      ∀ e, c.resolve t = .error e → e = .typeMismatch c.kind c.storage (.target t) := by
  constructor
  · unfold ResolversAgree resolve resolveVariant
    rcases c.checkTarget_eq t with ⟨ha, hc⟩ | ⟨-, hc⟩
    · rw [hc]
      apply (LogicalType.plans_agree h c.valid ha).mono
      intro p q hpq view
      apply (hpq.prepare view).mono
      intro p' q' hpq' row
      exact ⟨hpq'.tryConvert view row, hpq'.convert view row⟩
    · rw [hc]
      exact .error _
  · intro e he
    obtain ⟨-, refusal, -⟩ :=
      checked_resolver (c.resolve t) rfl (LogicalType.typedPlan_isPlan c.valid)
    have refused := refusal e he
    rcases c.checkTarget_eq t with ⟨-, hc⟩ | ⟨-, hc⟩
    · rw [hc] at refused
      contradiction
    · rw [hc] at refused
      cases refused
      rfl

theorem resolvers_agree_map_of_bytes :
    (Target.map .string (.list (.int .u8))).isStatic = true ∧
      (⟨.map (.scalar .varchar) (.list (.scalar (.int .u8))), rfl⟩ : Column).ResolversAgree
        (.map .string (.list (.int .u8))) :=
  ⟨rfl, (resolvers_agree _ rfl).1⟩

end Column
end TypedColumns
