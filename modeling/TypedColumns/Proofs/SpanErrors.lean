import TypedColumns.Proofs.Binding
import TypedColumns.Proofs.PlanShape

/-!
An error about a span is true of it. Whatever a plan reads, and however deep in its elements, an
error that an entry exceeds the child rows names an entry that does.
-/
namespace TypedColumns

open Result (FailsOnly)

/-- The span that the error is about, if it is about one, ends past the child rows. -/
def Error.TrueOfSpan (e : Error) : Prop :=
  ∀ row offset length childRows,
    e = .native (.spanOutOfRange row offset length childRows) → childRows < offset + length

/-- The reader's errors about spans are true, on every view like those of `type`. -/
def Reader.TrueOfSpans {α : Type} (type : LogicalType) (read : Reader α) : Prop :=
  ∀ view : ColumnView, view.column.kind = type.kind → view.column.storage = type.storage →
    ∀ row, FailsOnly Error.TrueOfSpan (read view row)

/-- Whatever view the reading is bound to, the reader that it gets has true errors about spans. -/
def Reading.TrueOfSpans {α : Type} (type : LogicalType) (reading : Reading α) : Prop :=
  ∀ view read, reading.on view = .ok read → read.TrueOfSpans type

theorem Reader.Decodes.trueOfSpans {α : Type} {type : LogicalType} {read : Reader α}
    (h : read.Decodes type) : read.TrueOfSpans type := by
  obtain ⟨decode, hd⟩ := h
  intro view hk hs row
  obtain ⟨reads, domain⟩ := hd view hk hs
  rw [reads row]
  apply FailsOnly.bind
  · intro e he
    obtain rfl := ColumnView.unreadable_of_loaded he
    exact nofun
  · intro bytes _
    refine (domain bytes).mono ?_
    rintro _ ⟨fault, rfl⟩
    exact nofun

namespace Converter

variable {c : Target} {plan conv : Converter c} {type : LogicalType}

theorem convert_trueOfSpan (source : plan.Source type) {read : Reader c.Host}
    (h : read.TrueOfSpans type) (view : ColumnView) (row : Nat) (require : Bool) :
    FailsOnly Error.TrueOfSpan ((plan.withReader read).convert view row require) := by
  refine convert_failsOnly (tryConvert_failsOnly ?_ (fun _ => nofun) (fun _ _ => nofun) ?_) nofun _
  · unfold checkSource
    split
    · exact .ok ()
    · exact .error nofun
  · intro checked _ _
    obtain ⟨hk, hs⟩ := checkSource_eq_ok checked
    exact h view (hk.trans source.kind) (hs.trans source.storage) row

theorem convert_prepared_trueOfSpan (source : plan.Source type)
    (h : plan.reading.TrueOfSpans type) {view : ColumnView}
    (prepared : plan.prepare view = .ok conv) (other : ColumnView) (row : Nat) (require : Bool) :
    FailsOnly Error.TrueOfSpan (conv.convert other row require) := by
  obtain ⟨read, bound, rfl⟩ := prepare_eq_ok prepared
  exact convert_trueOfSpan source (h view read bound) other row require

end Converter

namespace Binder

variable {c k v : Target} {α : Type}

theorem mapChildren_trueOfSpan (view : ColumnView) (row childRows : Nat) (size? : Option Nat)
    {f : Nat → Result α} (h : ∀ j, FailsOnly Error.TrueOfSpan (f j)) :
    FailsOnly Error.TrueOfSpan (mapChildren view row size? childRows f) := by
  apply FailsOnly.bind
  · apply FailsOnly.bind
    · intro e he
      cases size? with
      | some size =>
        simp only [entryOf] at he
        split_ifs at he
        cases he
        exact nofun
      | none =>
        obtain rfl := ColumnView.unreadable_of_loaded (Result.map_eq_error.mp he)
        exact nofun
    · rintro ⟨offset, length⟩ -
      simp only
      split
      · exact .ok _
      · next outside =>
        apply FailsOnly.error
        rintro _ _ _ _ ⟨⟩
        exact Nat.lt_of_not_le outside
  · rintro ⟨start, stop⟩ -
    exact .mapM fun j _ => h j

theorem list_trueOfSpans {element : Converter c} {type child : LogicalType} {size? : Option Nat}
    (source : element.Source child) (h : element.reading.TrueOfSpans child)
    (finish : List c.Host → α) :
    (Reading.unbound (list element size? finish)).TrueOfSpans type := by
  intro view read bound other _ _ row
  obtain ⟨children, conv, -, prepared, rfl⟩ := list_eq_ok bound
  have items := mapChildren_trueOfSpan other row children.rows size? fun j =>
    Converter.convert_prepared_trueOfSpan source h prepared children j true
  exact items.bind fun _ _ => .ok _

theorem map_trueOfSpans {keys : Converter k} {contents : Converter v} {key content : LogicalType}
    (keySource : keys.Source key) (hk : keys.reading.TrueOfSpans key)
    (contentSource : contents.Source content) (hv : contents.reading.TrueOfSpans content)
    (finish : List (k.Host × v.Host) → α) :
    (Reading.unbound (map keys contents finish)).TrueOfSpans (.map key content) := by
  intro view read bound other _ _ row
  obtain ⟨entries, keyView, contentView, keyConv, contentConv, -, -, -, keyPrepared,
    contentPrepared, rfl⟩ := map_eq_ok bound
  have keyErrors (j : Nat) :=
    Converter.convert_prepared_trueOfSpan keySource hk keyPrepared keyView j true
  have contentErrors (j : Nat) :=
    Converter.convert_prepared_trueOfSpan contentSource hv contentPrepared contentView j true
  have pairs := mapChildren_trueOfSpan other row keyView.rows none fun j =>
    (keyErrors j).bind fun a _ => (contentErrors j).bind fun b _ => .ok (a, b)
  exact pairs.bind fun _ _ => .ok _

theorem members_trueOfSpan {members : List (String × LogicalType)}
    {plans : List (Converter Target.value)} {view : ColumnView} {index : Nat}
    {bound : List (Converter Target.value × ColumnView)}
    (sources : List.Forall₂ (fun m plan => plan.Source m.2) members plans)
    (h : ∀ m plan, (m, plan) ∈ members.zip plans → plan.reading.TrueOfSpans m.2)
    (hb : Binder.members view index plans = .ok bound) :
    ∀ b ∈ bound, ∀ row, FailsOnly Error.TrueOfSpan (b.1.convert b.2 row false) := by
  intro b mem row
  obtain ⟨i, hi⟩ := List.getElem?_of_mem mem
  obtain ⟨-, at'⟩ := members_eq_ok hb
  obtain ⟨plan, hp, -, prepared⟩ := at' i b hi
  obtain ⟨m, -, source, hz⟩ := part_of_plan sources hp
  exact Converter.convert_prepared_trueOfSpan source (h m plan hz) prepared b.2 row false

end Binder

/-- Errors about spans are true in all that a plan reads, by the parts of its type. -/
theorem Reading.Shape.trueOfSpans {type : LogicalType} {α : Type} {reading : Reading α}
    (shape : reading.Shape type) : reading.TrueOfSpans type := by
  induction shape with
  | slot leaf decodes =>
    rintro view _ ⟨⟩
    exact decodes.trueOfSpans
  | elements part source shape ih => exact Binder.list_trueOfSpans source ih _
  | struct sources shapes ih =>
    intro view read bound other _ _ row
    obtain ⟨members, hm, rfl⟩ := Binder.struct_eq_ok bound
    have values := FailsOnly.mapM fun b hb => Binder.members_trueOfSpan sources ih hm b hb row
    exact values.bind fun _ _ => .ok _
  | map keySource keyShape contentSource contentShape ihKeys ihContents =>
    exact Binder.map_trueOfSpans keySource ihKeys contentSource ihContents _
  | union sources shapes ih =>
    intro view read bound other _ _ row
    obtain ⟨tags, members, -, hm, rfl⟩ := Binder.union_eq_ok bound
    apply (Converter.convert_trueOfSpan LogicalType.tagPlan_source
      LogicalType.tag_decodes.trueOfSpans tags row true).bind
    intro n _
    split
    · next plan member hb =>
      exact Binder.members_trueOfSpan sources ih hm _ (List.mem_of_getElem? hb) row
    · exact .error nofun
  | mapped f shape ih =>
    intro view read bound other hk hs row
    rw [Reading.on_map] at bound
    obtain ⟨inner, inside, rfl⟩ := Result.map_eq_ok.mp bound
    exact (ih view inner inside other hk hs row).bind fun _ _ => .ok _

end TypedColumns
