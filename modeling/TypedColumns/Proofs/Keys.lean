import TypedColumns.Host
import Mathlib.Data.List.Induction
import Mathlib.Tactic.Ring

/-!
Keys and what is kept of entries with repeated keys. The equality of keys is an equivalence, though
not identity: decimals and zoned date-times have several forms.
-/
namespace TypedColumns

/-- A test of equality that is an equivalence. -/
structure IsEquality {α : Type} (eq : α → α → Bool) : Prop where
  refl : ∀ a, eq a a = true
  symm : ∀ a b, eq a b = true → eq b a = true
  trans : ∀ a b c, eq a b = true → eq b c = true → eq a c = true

namespace IsEquality

variable {α : Type} {eq : α → α → Bool}

theorem of_iff {β : Type} (f : α → β) (h : ∀ a b, eq a b = true ↔ f a = f b) : IsEquality eq where
  refl a := (h a a).mpr rfl
  symm a b hab := (h b a).mpr ((h a b).mp hab).symm
  trans a b c hab hbc := (h a c).mpr (((h a b).mp hab).trans ((h b c).mp hbc))

/-- Equal things test equal to the same things. -/
theorem congr (h : IsEquality eq) {a b : α} (hab : eq a b = true) (c : α) : eq a c = eq b c := by
  apply Bool.eq_iff_iff.mpr
  constructor
  · exact h.trans b a c (h.symm a b hab)
  · exact h.trans a b c hab

theorem comm (h : IsEquality eq) (a b : α) : eq a b = eq b a :=
  Bool.eq_iff_iff.mpr ⟨h.symm a b, h.symm b a⟩

theorem items (h : IsEquality eq) : IsEquality (Target.equalItems eq) where
  refl as := by
    induction as with
    | nil => rfl
    | cons a as ih => simp [Target.equalItems, h.refl a, ih]
  symm as := by
    induction as with
    | nil =>
      intro bs hab
      cases bs with
      | nil => rfl
      | cons b bs => simp [Target.equalItems] at hab
    | cons a as ih =>
      intro bs hab
      cases bs with
      | nil => simp [Target.equalItems] at hab
      | cons b bs =>
        simp only [Target.equalItems, Bool.and_eq_true] at hab ⊢
        exact ⟨h.symm a b hab.1, ih bs hab.2⟩
  trans as := by
    induction as with
    | nil =>
      intro bs cs hab hbc
      cases bs with
      | nil => exact hbc
      | cons b bs => simp [Target.equalItems] at hab
    | cons a as ih =>
      intro bs cs hab hbc
      cases bs with
      | nil => simp [Target.equalItems] at hab
      | cons b bs =>
        cases cs with
        | nil => simp [Target.equalItems] at hbc
        | cons c cs =>
          simp only [Target.equalItems, Bool.and_eq_true] at hab hbc ⊢
          exact ⟨h.trans a b c hab.1 hbc.1, ih bs cs hab.2 hbc.2⟩

end IsEquality

theorem Decimal.equal_isEquality : IsEquality Decimal.equal where
  refl a := by simp [Decimal.equal]
  symm a b hab := by
    simp only [Decimal.equal, beq_iff_eq] at hab ⊢
    exact hab.symm
  trans a b c hab hbc := by
    simp only [Decimal.equal, beq_iff_eq] at hab hbc ⊢
    have hb : (0 : Int) < (Nat.pow 10 b.scale : Nat) := by
      exact_mod_cast Nat.pow_pos (n := b.scale) (by decide : 0 < 10)
    apply Int.eq_of_mul_eq_mul_right hb.ne'
    calc a.mantissa * (Nat.pow 10 c.scale : Nat) * (Nat.pow 10 b.scale : Nat)
        = a.mantissa * (Nat.pow 10 b.scale : Nat) * (Nat.pow 10 c.scale : Nat) := by ring
      _ = b.mantissa * (Nat.pow 10 c.scale : Nat) * (Nat.pow 10 a.scale : Nat) := by rw [hab]; ring
      _ = c.mantissa * (Nat.pow 10 a.scale : Nat) * (Nat.pow 10 b.scale : Nat) := by rw [hbc]; ring

namespace Target

/-- Targets whose values are keys: no floats, whose NaN differs from itself, and nothing that may
hold one. -/
def isKey : Target → Bool
  | option t | list t | fixedList t => t.isKey
  | float _ | map .. | struct | pairs | value => false
  | _ => true

theorem equalKeys_isEquality {t : Target} (h : t.isKey) : IsEquality (equalKeys t) := by
  induction t with
  | float f | map k v ihk ihv | struct | pairs | value => simp [isKey] at h
  | list t ih => exact (ih h).items
  | fixedList t ih => exact (ih h).items
  | option t ih =>
    refine ⟨?_, ?_, ?_⟩
    · rintro (_ | a)
      · rfl
      · exact (ih h).refl a
    · rintro (_ | a) (_ | b) hab
      · rfl
      · simp [equalKeys] at hab
      · simp [equalKeys] at hab
      · exact (ih h).symm a b hab
    · rintro (_ | a) (_ | b) (_ | c) hab hbc
      all_goals first | rfl | (simp [equalKeys] at hab; done) | (simp [equalKeys] at hbc; done) | skip
      exact (ih h).trans a b c hab hbc
  | decimal => exact Decimal.equal_isEquality
  | offsetDateTime => exact .of_iff OffsetDateTime.instant fun a b => beq_iff_eq
  | _ => exact .of_iff id fun a b => beq_iff_eq

section

variable {k v : Target}

/-- The content of the first entry with an equal key. -/
def lookup (key : k.Host) (entries : List (k.Host × v.Host)) : Option v.Host :=
  (entries.find? fun entry => equalKeys k entry.1 key).map Prod.snd

/-- `kept` has the keys of `entries` once each, with the content of their last occurrence. Its order
is left open. -/
structure KeepsLast (entries kept : List (k.Host × v.Host)) : Prop where
  distinct : (kept.map Prod.fst).Pairwise fun a b => equalKeys k a b = false
  keys : ∀ key ∈ kept.map Prod.fst, key ∈ entries.map Prod.fst
  last : ∀ key, lookup key kept = lookup key entries.reverse

theorem lookup_cons (key : k.Host) (entry : k.Host × v.Host) (rest : List (k.Host × v.Host)) :
    lookup key (entry :: rest) =
      if equalKeys k entry.1 key then some entry.2 else lookup key rest := by
  unfold lookup
  by_cases h : equalKeys k entry.1 key
  · simp [h]
  · simp [h]

theorem lookup_insertKey (hk : IsEquality (equalKeys k)) (key other : k.Host) (content : v.Host)
    (kept : List (k.Host × v.Host)) :
    lookup other (insertKey key content kept) =
      if equalKeys k key other then some content else lookup other kept := by
  induction kept with
  | nil => exact lookup_cons other (key, content) []
  | cons entry rest ih =>
    obtain ⟨key', content'⟩ := entry
    by_cases same : equalKeys k key' key
    · rw [insertKey, if_pos same, lookup_cons, lookup_cons, hk.congr same other]
      by_cases ho : equalKeys k key other <;> simp [ho]
    · rw [insertKey, if_neg same, lookup_cons, lookup_cons, ih]
      by_cases ho : equalKeys k key other
      · -- `key'` differs from `key`, so it differs from what equals `key`.
        have hd : equalKeys k key' other = false := by
          rw [hk.comm, ← hk.congr ho, hk.comm]
          simpa using same
        simp [ho, hd]
      · simp [ho]

theorem keys_insertKey (key : k.Host) (content : v.Host) (kept : List (k.Host × v.Host)) :
    (insertKey key content kept).map Prod.fst =
      if kept.any (fun entry => equalKeys k entry.1 key) then kept.map Prod.fst
      else kept.map Prod.fst ++ [key] := by
  induction kept with
  | nil => rfl
  | cons entry rest ih =>
    obtain ⟨key', content'⟩ := entry
    by_cases same : equalKeys k key' key
    · simp [insertKey, same]
    · rw [insertKey, if_neg same, List.map_cons, ih, List.any_cons]
      by_cases found : rest.any (fun entry => equalKeys k entry.1 key) <;> simp [found, same]

/-- One insertion keeps what was kept and replaces the content of its key. -/
theorem KeepsLast.insertKey (hk : IsEquality (equalKeys k)) {entries kept : List (k.Host × v.Host)}
    (h : KeepsLast entries kept) (entry : k.Host × v.Host) :
    KeepsLast (entries ++ [entry]) (insertKey entry.1 entry.2 kept) := by
  refine ⟨?_, ?_, ?_⟩
  · rw [keys_insertKey]
    split
    · exact h.distinct
    · next absent =>
      rw [List.pairwise_append]
      refine ⟨h.distinct, List.pairwise_singleton _ _, ?_⟩
      intro a ha b hb
      obtain rfl := List.mem_singleton.mp hb
      obtain ⟨other, ho, rfl⟩ := List.mem_map.mp ha
      simp only [List.any_eq_true, not_exists, not_and, Bool.not_eq_true] at absent
      exact absent other ho
  · intro key hkey
    rw [keys_insertKey] at hkey
    rw [List.map_append, List.mem_append]
    split at hkey
    · exact .inl (h.keys key hkey)
    · rcases List.mem_append.mp hkey with old | new
      · exact .inl (h.keys key old)
      · exact .inr new
  · intro key
    rw [lookup_insertKey hk, List.reverse_append, List.reverse_singleton, List.singleton_append,
      lookup_cons, h.last]

/-- Collecting entries one after the other keeps the last content of each key. -/
theorem distinctKeys_keepsLast (h : k.isKey) (entries : List (k.Host × v.Host)) :
    KeepsLast entries (distinctKeys entries) := by
  have hk := equalKeys_isEquality h
  -- The induction is on the entries collected so far, from the front.
  induction entries using List.reverseRecOn with
  | nil => exact ⟨.nil, fun _ h => h, fun _ => rfl⟩
  | append_singleton entries entry ih =>
    have step : distinctKeys (entries ++ [entry]) =
        insertKey entry.1 entry.2 (distinctKeys entries) := by
      simp [distinctKeys, List.foldl_append]
    rw [step]
    exact ih.insertKey hk entry

end

end Target
end TypedColumns
