import Mathlib.Logic.Equiv.Basic
import TypedColumns.Proofs.IntegerColumns

/-!
ENUM columns. A row is written by a name or by a code and stored as a code; whatever reads it as a
name or as a member of an enumeration looks the code up in the dictionary, so that the order of the
dictionary does not matter as long as the codes follow it.
-/
namespace TypedColumns

/-- Codes are below this number: slots have one, two or four bytes, by the count of names. -/
def codeLimit (names : Nat) : Nat :=
  if names ≤ 255 then 0x100 else if names ≤ 65535 then 0x10000 else 0x100000000

/-- The values that are taken into a column with the dictionary: its names, and every integer that a
slot has room for, whether the dictionary has a name for it or not. -/
def Value.IsTaken (dictionary : Array String) : Value → Prop
  | .null => True
  | .text name | .enum name => name ∈ dictionary
  | .int _ w => 0 ≤ w.val ∧ w.val < codeLimit dictionary.size
  | _ => False

/-- A name is stored as its first position, and an integer as itself. -/
def Value.HasCode (dictionary : Array String) : Value → Nat → Prop
  | .text name, code | .enum name, code =>
    dictionary[code]? = some name ∧ ∀ earlier < code, dictionary[earlier]? ≠ some name
  | .int _ w, code => w.val = code
  | _, _ => False

namespace LogicalType

variable {dictionary : Array String} {v : Value} {code : Nat}

theorem enumStorage_holds_iff (names : Nat) (c : Int) :
    (enumStorage names).Holds c ↔ 0 ≤ c ∧ c < codeLimit names := by
  unfold enumStorage codeLimit
  split_ifs <;> simp only [IntKind.Holds, IntKind.min, IntKind.max] <;> omega

/-- Every position in a dictionary is a code. -/
theorem position_lt (valid : (enum dictionary).check = .ok ()) (h : code < dictionary.size) :
    code < codeLimit dictionary.size := by
  have holds := (enumStorage_holds_iff _ _).mp (enumStorage_holds valid h)
  omega

theorem idxOf?_eq_some_iff {name : String} : dictionary.idxOf? name = some code ↔
    dictionary[code]? = some name ∧ ∀ earlier < code, dictionary[earlier]? ≠ some name := by
  rw [Array.idxOf?_eq_map_finIdxOf?_val, Option.map_eq_some_iff]
  constructor
  · rintro ⟨position, found, rfl⟩
    obtain ⟨here, first⟩ := Array.finIdxOf?_eq_some_iff.mp found
    refine ⟨by rw [← here]; simp, fun earlier below there => ?_⟩
    obtain ⟨inside, same⟩ := Array.getElem?_eq_some_iff.mp there
    exact first ⟨earlier, inside⟩ below same
  · rintro ⟨here, first⟩
    obtain ⟨inside, same⟩ := Array.getElem?_eq_some_iff.mp here
    refine ⟨⟨code, inside⟩, Array.finIdxOf?_eq_some_iff.mpr ⟨same, ?_⟩, rfl⟩
    intro earlier below there
    exact first earlier below (by rw [← there]; simp)

/-- A code that the slots have room for is stored. -/
theorem slotOf_code (stored : Word (enumStorage dictionary.size)) (h : v.HasCode dictionary code)
    (same : stored.val = code) : (enum dictionary).slotOf v = .ok stored.toBytes := by
  have position : (enum dictionary).codeOf dictionary v = .ok stored.val := by
    cases v with
    | text name =>
      simp only [codeOf, Value.string?, idxOf?_eq_some_iff.mpr h, same]
    | enum name =>
      simp only [codeOf, Value.string?, idxOf?_eq_some_iff.mpr h, same]
    | int k w =>
      have number : w.val = code := h
      have small : enumStorage dictionary.size ≠ .u128 := by
        rcases enumStorage_cases dictionary.size with hk | hk | hk <;> rw [hk] <;> decide
      have inside : IntKind.i128.Holds w.val := by
        rw [number, ← same]
        exact stored.holds.of_signed small
      rw [same, ← number]
      exact intOf_int_ok _ inside
    | _ => cases h
  show (do (enum dictionary).intSlot _ (← (enum dictionary).codeOf dictionary v) v) = _
  rw [position, Result.ok_bind, intSlot_val]

/-- Only what is taken has a slot. -/
theorem isTaken_of_slotOf {slot : List UInt8} (h : (enum dictionary).slotOf v = .ok slot) :
    v.IsTaken dictionary := by
  obtain ⟨n, hn, hs⟩ := Result.bind_eq_ok.mp h
  obtain ⟨stored, same, -⟩ := intSlot_eq_ok hs
  have named {name : String} (hv : v.string? = some name) : name ∈ dictionary := by
    simp only [codeOf, hv] at hn
    split at hn
    · next found => exact Array.mem_of_getElem? (idxOf?_eq_some_iff.mp found).1
    · cases hn
  cases v with
  | null => trivial
  | text name => exact named rfl
  | enum name => exact named rfl
  | int k w =>
    have number : n = w.val := intOf_int hn
    have holds := (enumStorage_holds_iff _ _).mp stored.holds
    rwa [same, number] at holds
  | _ => cases hn

/-- What is taken has a code that the slots have room for. -/
theorem hasCode_of_isTaken (valid : (enum dictionary).check = .ok ()) (there : v.isNull = false)
    (h : v.IsTaken dictionary) :
    ∃ code, v.HasCode dictionary code ∧ code < codeLimit dictionary.size := by
  have named {name : String} (member : name ∈ dictionary) : ∃ code,
      (dictionary[code]? = some name ∧ ∀ earlier < code, dictionary[earlier]? ≠ some name) ∧
        code < codeLimit dictionary.size := by
    obtain ⟨code, found, -⟩ := idxOf?_of_mem member
    have first := idxOf?_eq_some_iff.mp found
    exact ⟨code, first, position_lt valid (Array.getElem?_eq_some_iff.mp first.1).1⟩
  cases v with
  | null => cases there
  | text name => exact named h
  | enum name => exact named h
  | int k w =>
    obtain ⟨nonneg, below⟩ : 0 ≤ w.val ∧ w.val < codeLimit dictionary.size := h
    exact ⟨w.val.toNat, (Int.toNat_of_nonneg nonneg).symm, by omega⟩
  | _ => cases h

/-- The name of a code; `target` is what an error says it is read as. -/
def nameOf (dictionary : Array String) (code : Nat) (target : String) : Result String :=
  match dictionary[code]? with
  | some name => .ok name
  | none => .error (.domain (.enumCode code dictionary.size target))

/-- The member of an enumeration that has the name of the code. -/
def memberOf (dictionary : Array String) (code : Nat) (target : String) (members : List String) :
    Result String := do
  let name ← nameOf dictionary code target
  if name ∈ members then .ok name else .error (.domain (.enumMember name code target))

section Readers

variable {view : ColumnView} {row : Nat} (found : Reader.code view row = .ok code) (target : String)
include found

theorem memberName_eq : Reader.memberName dictionary target view row =
    (nameOf dictionary code target).map fun name => (code, name) := by
  rw [Reader.memberName, found, Result.ok_bind, nameOf]
  cases dictionary[code]? <;> rfl

theorem enumName_eq : Reader.enumName dictionary view row = nameOf dictionary code "String" := by
  rw [Reader.enumName, Reader.map, memberName_eq found]
  cases nameOf dictionary code "String" <;> rfl

/-- The search among the members of a target that is chosen at run time. -/
theorem enumKnown_eq (members : List String) : Reader.enumKnown dictionary target members view row =
    memberOf dictionary code target members := by
  rw [Reader.enumKnown, Reader.map, memberName_eq found, memberOf]
  cases nameOf dictionary code target with
  | error e => rfl
  | ok name => simp only [Result.map_ok, Result.ok_bind, List.contains_iff_mem]

/-- The table that is made once for all members finds what the search finds. -/
theorem enumMember_eq (members : List String) :
    Reader.enumMember dictionary target members view row =
      memberOf dictionary code target members := by
  simp only [Reader.enumMember, Reader.memberTable, found, Result.ok_bind, Array.getElem?_map,
    memberOf, nameOf]
  cases dictionary[code]? with
  | none => rfl
  | some name =>
    simp only [Option.map_some, Result.ok_bind]
    cases search : members.find? (· == name) with
    | none =>
      have absent : name ∉ members := by
        rw [List.find?_eq_none] at search
        exact fun member => search name member (beq_self_eq_true name)
      rw [if_neg absent]
    | some member =>
      obtain rfl : member = name := by simpa using List.find?_some search
      rw [if_pos (List.mem_of_find?_eq_some search)]

end Readers
end LogicalType

namespace NativeVector

open LogicalType

/-- The row of a column with the dictionary is read as its code by integers and as the name of the
code by everything else. -/
structure ReadsCode (n : NativeVector) (dictionary : Array String) (row code : Nat) : Prop where
  integers : n.ReadsWider (enumStorage dictionary.size) row code
  text : n.RowReads row .string (nameOf dictionary code "String")
  boxed : n.RowReads row .value ((nameOf dictionary code "String").map .enum)
  member (target : String) (members : List String) :
    n.RowReads row (.enum target members) (memberOf dictionary code target members)

theorem HasWord.readsCode {n : NativeVector} {dictionary : Array String} {row code : Nat}
    {stored : Word (enumStorage dictionary.size)} (h : n.HasWord (.enum dictionary) row stored)
    (same : stored.val = code) : n.ReadsCode dictionary row code := by
  have toNat : stored.val.toNat = code := by omega
  have codes {view : ColumnView} (hc : view.column.type = .enum dictionary)
      (word : view.intAt (enumStorage dictionary.size) row = .ok stored) :
      Reader.code view row = .ok code := by
    rw [code_eq row hc, word, Result.map_ok, toNat]
  refine ⟨same ▸ h.readsWider rfl, ?_, ?_, fun target members => ?_⟩
  · exact h.reads_typed rfl rfl rfl fun view hc word => enumName_eq (codes hc word)
  · have boxed := h.reads_boxed rfl (enum_wordSlots h.valid)
    have named : enumValue dictionary code = (nameOf dictionary code "String").map .enum := by
      unfold enumValue nameOf
      cases dictionary[code]? <;> rfl
    rwa [toNat, named] at boxed
  · refine h.rowReads fun view hc hn valid word => ?_
    have found := codes hc word
    obtain ⟨⟨_, checked⟩, rows, native, path⟩ := view
    subst hc hn
    have plan : typedPlan (.enum target members) (.enum dictionary) = .ok (.ofReading
        (.enum dictionary) (.closed (Reader.enumMember dictionary target members)) false) := rfl
    refine ColumnView.rowReads_of_closed rfl valid plan rfl
      (Converter.checkSource_of_eq rfl rfl rfl) (Converter.checkSource_of_eq rfl rfl rfl) rfl rfl
      (enumMember_eq found target members) ?_
    rw [Reader.map, enumKnown_eq found]
    cases memberOf dictionary code target members <;> rfl

end NativeVector

/-- The same error about another code. -/
def Error.withCode (code : Nat) : Error → Error
  | .domain (.enumCode _ names target) => .domain (.enumCode code names target)
  | .domain (.enumMember name _ target) => .domain (.enumMember name code target)
  | e => e

namespace LogicalType

variable {dictionary : Array String} (σ : Equiv.Perm (Fin dictionary.size))

/-- The dictionary with every name at its new position. -/
def permuted : Array String := Array.ofFn fun i => dictionary[σ.symm i]

/-- The new code for a code; what is beyond the dictionary stays. -/
def moved (code : Nat) : Nat := if h : code < dictionary.size then σ ⟨code, h⟩ else code

/-- The same row for the permuted dictionary: codes are moved and all else is as before. The kind of
the integer that a code is written as may be another one. -/
inductive Remapped : Value → Value → Prop
  | same {v : Value} (uncoded : ∀ k w, v ≠ .int k w) : Remapped v v
  | code {k l : IntKind} {w : Word k} {w' : Word l} {code : Nat} (before : w.val = code)
      (after : w'.val = moved σ code) : Remapped (.int k w) (.int l w')

@[simp] theorem size_permuted : (permuted σ).size = dictionary.size := Array.size_ofFn

theorem mem_permuted {name : String} : name ∈ permuted σ ↔ name ∈ dictionary := by
  simp only [permuted, Array.mem_ofFn]
  constructor
  · rintro ⟨i, rfl⟩
    exact Array.getElem_mem _
  · intro member
    obtain ⟨i, inside, rfl⟩ := Array.mem_iff_getElem.mp member
    exact ⟨σ ⟨i, inside⟩, by simp⟩

/-- What is found for a code is found for the moved code in the permuted dictionary. -/
theorem permuted_moved (code : Nat) : (permuted σ)[moved σ code]? = dictionary[code]? := by
  unfold moved
  split_ifs with h
  · have inside : (σ ⟨code, h⟩).val < (permuted σ).size := by
      rw [size_permuted]
      exact (σ ⟨code, h⟩).isLt
    rw [Array.getElem?_eq_getElem inside, Array.getElem?_eq_getElem h]
    simp [permuted]
  · rw [Array.getElem?_eq_none (by rw [size_permuted]; omega), Array.getElem?_eq_none (by omega)]

theorem moved_lt {code : Nat} (valid : (enum dictionary).check = .ok ())
    (h : code < codeLimit dictionary.size) : moved σ code < codeLimit dictionary.size := by
  unfold moved
  split_ifs with inside
  · exact position_lt valid (σ ⟨code, inside⟩).isLt
  · exact h

variable {σ} {v v' : Value}

theorem Remapped.isNull (h : Remapped σ v v') : v'.isNull = v.isNull := by
  cases h <;> rfl

theorem Remapped.isTaken (h : Remapped σ v v') (valid : (enum dictionary).check = .ok ())
    (taken : v.IsTaken dictionary) : v'.IsTaken (permuted σ) := by
  cases h with
  | same uncoded =>
    cases v with
    | null => trivial
    | text name => exact (mem_permuted σ).mpr taken
    | enum name => exact (mem_permuted σ).mpr taken
    | int k w => exact absurd rfl (uncoded k w)
    | _ => cases taken
  | @code k l w w' code before after =>
    have below : w.val < codeLimit dictionary.size := taken.2
    have still : moved σ code < codeLimit dictionary.size := moved_lt σ valid (by omega)
    show 0 ≤ w'.val ∧ w'.val < codeLimit (permuted σ).size
    rw [size_permuted]
    omega

/-- The codes of the two rows have the same name in the two dictionaries, or none. -/
theorem Remapped.found (h : Remapped σ v v') {code code' : Nat} (before : v.HasCode dictionary code)
    (after : v'.HasCode (permuted σ) code') : (permuted σ)[code']? = dictionary[code]? := by
  cases h with
  | same uncoded =>
    cases v with
    | text name => exact after.1.trans before.1.symm
    | enum name => exact after.1.trans before.1.symm
    | int k w => exact absurd rfl (uncoded k w)
    | _ => cases before
  | @code k l w w' c hw hw' =>
    have same : code = c := by
      have number : w.val = code := before
      omega
    have same' : code' = moved σ c := by
      have number : w'.val = code' := after
      omega
    rw [same, same', permuted_moved]

/-- Codes with the same name are read as the same name and the same members, or give the same
errors but for the code. -/
theorem nameOf_permuted {code code' : Nat} (found : (permuted σ)[code']? = dictionary[code]?)
    (target : String) : nameOf (permuted σ) code' target =
      (nameOf dictionary code target).mapError (Error.withCode code') := by
  unfold nameOf
  rw [found, size_permuted]
  cases dictionary[code]? <;> rfl

theorem memberOf_permuted {code code' : Nat} (found : (permuted σ)[code']? = dictionary[code]?)
    (target : String) (members : List String) : memberOf (permuted σ) code' target members =
      (memberOf dictionary code target members).mapError (Error.withCode code') := by
  unfold memberOf
  rw [nameOf_permuted found]
  cases nameOf dictionary code target with
  | error e => rfl
  | ok name =>
    simp only [Except.mapError, Result.ok_bind]
    split_ifs <;> rfl

end LogicalType

/-- Targets that see the name of a code rather than the code. -/
def Target.SeesNames (t : Target) : Prop :=
  t = .string ∨ t = .value ∨ ∃ name members, t = .enum name members

namespace NativeVector

open LogicalType

variable {dictionary : Array String} {rows : List Value}

/-- Codes with the same name are seen as the same. -/
theorem ReadsCode.permuted {n n' : NativeVector} {σ : Equiv.Perm (Fin dictionary.size)}
    {row code code' : Nat} (h : n.ReadsCode dictionary row code)
    (h' : n'.ReadsCode (permuted σ) row code')
    (found : (LogicalType.permuted σ)[code']? = dictionary[code]?) {t : Target} (ht : t.SeesNames) :
    ∃ answer, n.RowReads row t answer ∧
      n'.RowReads row t (answer.mapError (Error.withCode code')) := by
  rcases ht with rfl | rfl | ⟨target, members, rfl⟩
  · exact ⟨_, h.text, nameOf_permuted found "String" ▸ h'.text⟩
  · refine ⟨_, h.boxed, ?_⟩
    have boxed := h'.boxed
    rw [nameOf_permuted found] at boxed
    convert boxed using 1
    cases nameOf dictionary code "String" <;> rfl
  · exact ⟨_, h.member target members, memberOf_permuted found target members ▸ h'.member ..⟩

section Stored

variable (valid : (enum dictionary).check = .ok ())
  (room : rows.length * (enumStorage dictionary.size).bytes < sizeModulus)
include valid room

theorem ofValues_enum_iff :
    (∃ n, ofValues (.enum dictionary) rows = .ok n) ↔ ∀ v ∈ rows, v.IsTaken dictionary := by
  rw [ofValues_iff valid rfl rfl room]
  refine forall₂_congr fun v _ => ⟨fun written => ?_, fun taken there => ?_⟩
  · cases missing : v.isNull with
    | true =>
      obtain rfl : v = .null := by
        cases v <;> first | rfl | cases missing
      trivial
    | false =>
      obtain ⟨slot, hs⟩ := written missing
      exact isTaken_of_slotOf hs
  · obtain ⟨code, has, below⟩ := hasCode_of_isTaken valid there taken
    have holds := (enumStorage_holds_iff dictionary.size code).mpr (by omega)
    exact ⟨_, slotOf_code ⟨code, holds⟩ has rfl⟩

theorem readsCode_of_ofValues {n : NativeVector} (h : ofValues (.enum dictionary) rows = .ok n)
    {row : Nat} (hrow : row < rows.length) (there : rows[row].isNull = false) :
    ∃ code, rows[row].HasCode dictionary code ∧ n.ReadsCode dictionary row code := by
  have taken := (ofValues_enum_iff valid room).mp ⟨n, h⟩ _ (List.getElem_mem hrow)
  obtain ⟨code, has, below⟩ := hasCode_of_isTaken valid there taken
  let stored : Word (enumStorage dictionary.size) :=
    ⟨code, (enumStorage_holds_iff _ _).mpr (by omega)⟩
  have word : n.HasWord (.enum dictionary) row stored :=
    hasWord_of_ofValues rfl h hrow there (slotOf_code stored has rfl)
  exact ⟨code, has, word.readsCode rfl⟩

/-- Rows are taken into an ENUM column exactly if all are null, names of the dictionary or integers
that its slots have room for, and what is refused is a wrong argument. A row is stored as a code, the
first position of its name or its integer: this is what integer targets read, and what texts, boxed
values and enumerations of any members look up. Where the names of the dictionary are permuted and
the codes are moved with them, no name and no member that is read is another one. -/
theorem codes_kept :
    ((∃ n, ofValues (.enum dictionary) rows = .ok n) ↔ ∀ v ∈ rows, v.IsTaken dictionary) ∧
    (∀ e, ofValues (.enum dictionary) rows = .error e → ∃ fault, e = .argument fault) ∧
    ∀ n, ofValues (.enum dictionary) rows = .ok n → n.rows = rows.length ∧
      (∀ (row : Nat) (hrow : row < rows.length), rows[row].isNull = false →
        ∃ code, rows[row].HasCode dictionary code ∧ n.ReadsCode dictionary row code) ∧
      ∀ (σ : Equiv.Perm (Fin dictionary.size)) rows', List.Forall₂ (Remapped σ) rows rows' →
        ∃ n', ofValues (.enum (permuted σ)) rows' = .ok n' ∧
          ∀ (row : Nat) (hrow : row < rows.length), rows[row].isNull = false →
            ∀ t : Target, t.SeesNames → ∃ answer code', n.RowReads row t answer ∧
              n'.RowReads row t (answer.mapError (Error.withCode code')) := by
  refine ⟨ofValues_enum_iff valid room, ofValues_isArgument valid rfl nofun rfl room, fun n hn =>
    ⟨(slotOf_of_ofValues rfl hn).1,
      fun row hrow there => readsCode_of_ofValues valid room hn hrow there,
      fun σ rows' remapped => ?_⟩⟩
  have valid' : (enum (permuted σ)).check = .ok () := by
    rw [check, size_permuted]
    rwa [check] at valid
  have room' : rows'.length * (enumStorage (permuted σ).size).bytes < sizeModulus := by
    rwa [size_permuted, ← remapped.length_eq]
  have each (row : Nat) (hrow : row < rows.length) : ∃ hrow' : row < rows'.length,
      Remapped σ rows[row] rows'[row] := ⟨remapped.length_eq ▸ hrow, remapped.get _ _⟩
  have taken := (ofValues_enum_iff valid room).mp ⟨n, hn⟩
  have taken' : ∀ v' ∈ rows', v'.IsTaken (permuted σ) := by
    intro v' hv'
    obtain ⟨row, hrow', rfl⟩ := List.mem_iff_getElem.mp hv'
    obtain ⟨_, same⟩ := each row (remapped.length_eq ▸ hrow')
    exact same.isTaken valid (taken _ (List.getElem_mem _))
  obtain ⟨n', hn'⟩ := (ofValues_enum_iff valid' room').mpr taken'
  refine ⟨n', hn', fun row hrow there t ht => ?_⟩
  obtain ⟨hrow', same⟩ := each row hrow
  obtain ⟨code, has, reads⟩ := readsCode_of_ofValues valid room hn hrow there
  obtain ⟨code', has', reads'⟩ := readsCode_of_ofValues valid' room' hn' hrow' (same.isNull ▸ there)
  obtain ⟨answer, before, after⟩ := reads.permuted reads' (same.found has has') ht
  exact ⟨answer, code', before, after⟩

end Stored

/-- With a name that occurs twice, a code of its second occurrence and a code beyond the dictionary;
then with the first two names in each other's place. -/
theorem codes_kept_with_repeated_names :
    let dictionary : Array String := #["b", "a", "b"]
    let rows : List Value := [.null, .text "b", .int .i64 (.wrap .i64 2), .int .u8 (.wrap .u8 9)]
    ∃ n, ofValues (.enum dictionary) rows = .ok n ∧ n.RowReads 1 (.int .u8) (.ok 0) ∧
      n.RowReads 1 .string (.ok "b") ∧ n.RowReads 2 (.enum "Letter" ["a", "b"]) (.ok "b") ∧
      n.RowReads 3 .string (.error (.domain (.enumCode 9 3 "String"))) ∧
      ∃ n', ofValues (.enum (permuted (Equiv.swap (0 : Fin dictionary.size) 1))) rows = .ok n' ∧
        n'.RowReads 1 .string (.ok "b") := by
  intro dictionary rows
  have room : rows.length * (enumStorage dictionary.size).bytes < sizeModulus := by decide
  obtain ⟨taken, -, stored⟩ := codes_kept rfl room
  have each : ∀ v ∈ rows, v.IsTaken dictionary := by
    intro v hv
    simp only [rows, List.mem_cons, List.not_mem_nil, or_false] at hv
    rcases hv with rfl | rfl | rfl | rfl
    · trivial
    · simp [Value.IsTaken, dictionary]
    · exact ⟨by decide, by decide⟩
    · exact ⟨by decide, by decide⟩
  obtain ⟨n, hn⟩ := taken.mpr each
  obtain ⟨-, reads, moves⟩ := stored n hn
  obtain ⟨code, ⟨-, first⟩, name⟩ := reads 1 (by decide) rfl
  obtain rfl : code = 0 := by
    by_contra later
    exact first 0 (Nat.pos_of_ne_zero later) rfl
  obtain ⟨x, hx, integer, -⟩ := name.integers .u8 (by decide)
  obtain rfl : x = 0 := Word.ext hx
  obtain ⟨code, two, second⟩ := reads 2 (by decide) rfl
  obtain rfl : 2 = code := Int.ofNat.inj two
  obtain ⟨code, nine, beyond⟩ := reads 3 (by decide) rfl
  obtain rfl : 9 = code := Int.ofNat.inj nine
  -- Neither 2, which keeps its place, nor 9, which has none, is moved.
  let σ : Equiv.Perm (Fin dictionary.size) := Equiv.swap 0 1
  have null : Remapped σ .null .null := .same (by simp)
  have text : Remapped σ (.text "b") (.text "b") := .same (by simp)
  have inside : Remapped σ (.int .i64 (.wrap .i64 2)) (.int .i64 (.wrap .i64 2)) := .code two two
  have outside : Remapped σ (.int .u8 (.wrap .u8 9)) (.int .u8 (.wrap .u8 9)) := .code nine nine
  have alike : List.Forall₂ (Remapped σ) rows rows :=
    .cons null (.cons text (.cons inside (.cons outside .nil)))
  obtain ⟨n', hn', alike⟩ := moves σ rows alike
  obtain ⟨answer, code', before, after⟩ := alike 1 (by decide) rfl .string (.inl rfl)
  obtain rfl := before.unique name.text
  exact ⟨n, hn, integer, name.text, second.member "Letter" ["a", "b"], beyond.text, n', hn', after⟩

end NativeVector
end TypedColumns
