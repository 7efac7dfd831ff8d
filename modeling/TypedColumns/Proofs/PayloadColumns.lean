import TypedColumns.Proofs.ArrowSlots
import TypedColumns.Proofs.PayloadRoundTrip
import TypedColumns.Proofs.RowReads

/-!
Columns of payloads: texts, blobs, bit strings and integers of any length. Whether a payload stands in
its slot or beside the slots, and whatever the rows around it hold, a row is read as what its own
bytes say.
-/
namespace TypedColumns

namespace Utf8

/-- The bytes are those of some characters. -/
def Valid (bytes : List UInt8) : Prop := ByteArray.IsValidUTF8 ⟨bytes.toArray⟩

theorem decode_of_valid {bytes : List UInt8} (h : Valid bytes) :
    ∃ text, decode bytes = .ok text ∧ encode text = bytes := by
  refine ⟨.fromUTF8 ⟨bytes.toArray⟩ h, ?_, rfl⟩
  have found : String.fromUTF8? ⟨bytes.toArray⟩ = some (.fromUTF8 ⟨bytes.toArray⟩ h) := dif_pos h
  simp only [decode, found]

theorem decode_of_not_valid {bytes : List UInt8} (h : ¬ Valid bytes) :
    ∃ fault, decode bytes = .error fault := by
  have nothing : String.fromUTF8? ⟨bytes.toArray⟩ = none := dif_neg h
  exact ⟨faultFrom 0 0 ⟨0, 0, 0⟩ bytes, by simp only [decode, nothing]⟩

end Utf8

namespace NativeVector

open LogicalType

variable {n : NativeVector} {kind : Kind} {row : Nat} {payload : List UInt8}

/-- A VARCHAR row with the payload: the text of its bytes, if they are one. -/
structure ReadsText (n : NativeVector) (row : Nat) (payload : List UInt8) : Prop where
  valid : Utf8.Valid payload → ∃ text, Utf8.encode text = payload ∧
    n.RowReads row .string (.ok text) ∧ n.RowReads row .value (.ok (.text text))
  invalid : ¬ Utf8.Valid payload → ∃ fault,
    n.RowReads row .string (.error (.domain (.utf8 fault))) ∧
    n.RowReads row .value (.error (.domain (.utf8 fault)))

/-- A BLOB row with the payload: the bytes themselves. -/
structure ReadsBytes (n : NativeVector) (row : Nat) (payload : List UInt8) : Prop where
  list : n.RowReads row (.list (.int .u8)) (.ok (payload.map Target.wordOfByte))
  fixedList : n.RowReads row (.fixedList (.int .u8)) (.ok (payload.map Target.wordOfByte))
  boxed : n.RowReads row .value (.ok (.blob payload))

/-- A row whose payload stands for a value of the target, or for none. -/
structure ReadsDecoded (n : NativeVector) (row : Nat) (t : Target) (decoded : Result t.Host)
    (text : t.Host → String) : Prop where
  typed : n.RowReads row t decoded
  text : n.RowReads row .string (decoded.map text)
  boxed : n.RowReads row .value (decoded.map t.toValue)

/-- What a row with the payload is read as in a column of the kind. -/
def ReadsPayload (n : NativeVector) (row : Nat) (payload : List UInt8) : Kind → Prop
  | .varchar => n.ReadsText row payload
  | .blob => n.ReadsBytes row payload
  | .bit => n.ReadsDecoded row .bitString
    ((BitString.ofBlob payload).mapError fun fault => .domain (.bit fault)) BitString.text
  | .varInt => n.ReadsDecoded row .varInt
    ((VarInt.ofBlob payload).mapError fun fault => .domain (.varInt fault)) VarInt.text
  | _ => False

namespace HoldsPayload

theorem readsText (h : n.HoldsPayload (.scalar .varchar) row payload) :
    n.ReadsText row payload := by
  have typed : n.RowReads row .string
      ((Utf8.decode payload).mapError fun fault => .domain (.utf8 fault)) :=
    h.reads_typed rfl rfl rfl fun view stored => by rw [Reader.string, stored]; rfl
  have boxed := h.reads_boxed rfl leafAt_varchar
  constructor
  · intro valid
    obtain ⟨text, decoded, bytes⟩ := Utf8.decode_of_valid valid
    rw [decoded] at typed boxed
    exact ⟨text, bytes, typed, boxed⟩
  · intro invalid
    obtain ⟨fault, refused⟩ := Utf8.decode_of_not_valid invalid
    rw [refused] at typed boxed
    exact ⟨_, typed, boxed⟩

theorem readsBytes (h : n.HoldsPayload (.scalar .blob) row payload) : n.ReadsBytes row payload := by
  have reads (view : ColumnView) (stored : view.payloadAt row = .ok payload) :
      Reader.bytes view row = .ok (payload.map Target.wordOfByte) := by
    rw [Reader.bytes, stored]
    rfl
  refine ⟨h.rowReads fun view hc valid stored => ?_, h.rowReads fun view hc valid stored => ?_,
    h.reads_boxed rfl leafAt_blob⟩
  · exact view.rowReads_plain (by rw [hc]; rfl) (by rw [hc]; rfl) (by rw [hc]; rfl) valid
      (reads view stored)
  · exact view.rowReads_plain (by rw [hc]; rfl) (by rw [hc]; rfl) (by rw [hc]; rfl) valid
      (reads view stored)

/-- A row whose reader decodes the payload is read as what the decoder gives, as the text of that and
boxed. -/
theorem readsDecoded (h : n.HoldsPayload (.scalar kind) row payload) {t : Target} (leaf : t.isLeaf)
    (plain : variantPlan t (.scalar kind) = boxedAs t (.scalar kind)) {read : Reader t.Host}
    {text : t.Host → String} {decode : List UInt8 → Result t.Host}
    (reads : ∀ view row, read view row = view.payloadAt row >>= decode)
    (typed : Reader.typed? (.scalar kind) t = some read)
    (texts : Reader.typed? (.scalar kind) .string = some (read.map fun x => .ok (text x)))
    (found : ∀ (v : NativeVector) row, v.leafAt (.scalar kind) row =
      ColumnView.loaded (v.payload? row) >>= fun bytes =>
        decode bytes >>= fun x => .ok (t.toValue x))
    (flat : kind.isNested = false) : n.ReadsDecoded row t (decode payload) text := by
  have decoded (view : ColumnView) (stored : view.payloadAt row = .ok payload) :
      read view row = decode payload := by
    rw [reads, stored]
    rfl
  refine ⟨h.reads_typed leaf plain typed decoded,
    h.reads_typed rfl rfl texts fun view stored => ?_, ?_⟩
  · rw [Reader.map, decoded view stored, Result.map_eq_bind]
  · have boxed := h.reads_boxed flat found
    rwa [← Result.map_eq_bind] at boxed

theorem readsPayload (string : kind.isStringLike) (h : n.HoldsPayload (.scalar kind) row payload) :
    n.ReadsPayload row payload kind := by
  cases kind with
  | varchar => exact h.readsText
  | blob => exact h.readsBytes
  | bit => exact h.readsDecoded (t := .bitString) rfl rfl (fun _ _ => rfl) rfl rfl leafAt_bit rfl
  | varInt => exact h.readsDecoded (t := .varInt) rfl rfl (fun _ _ => rfl) rfl rfl leafAt_varInt rfl
  | _ => cases string

end HoldsPayload

/-- Rows with the same bit, and with the same payload if that is set. -/
theorem sameAt_of_payloads (string : kind.isStringLike) {v w : NativeVector}
    (bits : v.bit? row = w.bit? row)
    (payloads : v.bit? row = some true → v.payload? row = w.payload? row) :
    SameAt (.scalar kind) v w row := by
  refine ⟨bits, fun set => ?_⟩
  have storage : (LogicalType.scalar kind).storage.isStringLike = true := string
  show v.content? _ row = w.content? _ row
  rw [content?, content?, storage, if_pos rfl, if_pos rfl, payloads set]

/-- What is in the rows of a vector of payloads. -/
structure Stores (n : NativeVector) (kind : Kind) (values : List (Option (List UInt8))) :
    Prop where
  typed : n.type = .scalar kind
  rows : n.rows = values.length
  bits (row : Nat) (cell : Option (List UInt8)) : values[row]? = some cell →
    n.bit? row = some cell.isSome
  payloads (row : Nat) (payload : List UInt8) : values[row]? = some (some payload) →
    n.payload? row = some payload

variable {values values' : List (Option (List UInt8))}

theorem ofPayloads_stores (string : kind.isStringLike)
    (short : ∀ payload, some payload ∈ values → payload.length < 0x100000000)
    (room : values.length < sizeModulus) :
    ∃ n, ofPayloads (.scalar kind) values = .ok n ∧ n.Stores kind values := by
  obtain ⟨n, hn, typed, rows, bitmap, payloads⟩ := ofPayloads_ok string short room
  refine ⟨n, hn, typed, rows, fun row cell found => ?_, fun row payload found => ?_⟩
  · obtain ⟨inside, rfl⟩ := List.getElem?_eq_some_iff.mp found
    have flag : row < (values.map Option.isSome).length := by rwa [List.length_map]
    rw [bit?, bitmap, Bitmap.rowBit?_ofFlags flag, List.getElem_map]
  · obtain ⟨inside, same⟩ := List.getElem?_eq_some_iff.mp found
    exact payloads row inside payload same

theorem Stores.holdsPayload (h : n.Stores kind values) (string : kind.isStringLike)
    (found : values[row]? = some (some payload)) : n.HoldsPayload (.scalar kind) row payload := by
  obtain ⟨inside, -⟩ := List.getElem?_eq_some_iff.mp found
  exact ⟨check_of_stringLike string, h.typed, h.rows ▸ inside, h.bits row _ found,
    h.payloads row payload found⟩

/-- A row is the same wherever it holds the same payload, or none. -/
theorem Stores.sameAt {n' : NativeVector} (h : n.Stores kind values) (h' : n'.Stores kind values')
    (string : kind.isStringLike) (inside : row < values.length)
    (same : values'[row]? = values[row]?) : SameAt (.scalar kind) n n' row := by
  have found := List.getElem?_eq_getElem inside
  refine sameAt_of_payloads string ?_ fun set => ?_
  · rw [h.bits row _ found, h'.bits row _ (same.trans found)]
  · cases cell : values[row] with
    | none =>
      rw [h.bits row _ found, cell] at set
      cases set
    | some payload =>
      rw [cell] at found
      rw [h.payloads row payload found, h'.payloads row payload (same.trans found)]

/-- Views of equally many rows answer what asks for such a row alone alike. -/
theorem Stores.direct_congr {n' : NativeVector} (h : n.Stores kind values)
    (h' : n'.Stores kind values') (string : kind.isStringLike)
    (same : values'[row]? = values[row]?) {rows : Nat} (below : row < rows)
    (few : rows ≤ values.length) (few' : rows ≤ values'.length) :
    ∃ view view', ColumnView.ofNative n rows = .ok view ∧ ColumnView.ofNative n' rows = .ok view' ∧
      ∀ r : Read, (∀ asked, r.Touches asked → asked = row) → r.direct view = r.direct view' := by
  have valid := check_of_stringLike string
  let whole (n : NativeVector) : ColumnView := ⟨⟨.scalar kind, valid⟩, rows, n, []⟩
  have opens {n : NativeVector} {values : List (Option (List UInt8))} (h : n.Stores kind values)
      (few : rows ≤ values.length) : ColumnView.ofNative n rows = .ok (whole n) := by
    unfold ColumnView.ofNative
    rw [h.typed, Column.ofType_of_check valid, Result.ok_bind,
      ColumnView.firstRows_of_le (h.rows ▸ few)]
  refine ⟨whole n, whole n', opens h few, opens h' few', fun r asks => ?_⟩
  refine Read.direct_congr (show (whole n').column = (whole n).column from rfl) rfl
    (leaf_of_stringLike string) r fun asked _ touched => ?_
  obtain rfl := asks asked touched
  exact h.sameAt h' string (by omega) same

/-- Payloads below 4 GiB are taken into a column of their kind, and every row that has one is read as
what its bytes are or stand for: a VARCHAR as their text if they are valid UTF-8, a BLOB as the bytes,
a BIT and a VARINT as what their blobs decode to, and otherwise as the error of that. What a row is
read as does not depend on the other rows, be they missing, malformed or long. -/
theorem payloads_kept (string : kind.isStringLike)
    (short : ∀ payload, some payload ∈ values → payload.length < 0x100000000)
    (room : values.length < sizeModulus) :
    ∃ n, ofPayloads (.scalar kind) values = .ok n ∧ n.rows = values.length ∧
      (∀ row, values[row]? = some none → n.bit? row = some false) ∧
      (∀ row payload, values[row]? = some (some payload) →
        n.bit? row = some true ∧ n.payload? row = some payload ∧ n.ReadsPayload row payload kind) ∧
      ∀ values', (∀ payload, some payload ∈ values' → payload.length < 0x100000000) →
        values'.length < sizeModulus → ∃ n', ofPayloads (.scalar kind) values' = .ok n' ∧
          ∀ row, values'[row]? = values[row]? →
            ∀ rows, row < rows → rows ≤ values.length → rows ≤ values'.length →
              ∃ view view', ColumnView.ofNative n rows = .ok view ∧
                ColumnView.ofNative n' rows = .ok view' ∧
                ∀ r : Read, (∀ asked, r.Touches asked → asked = row) →
                  r.direct view = r.direct view' := by
  obtain ⟨n, hn, stores⟩ := ofPayloads_stores string short room
  refine ⟨n, hn, stores.rows, fun row found => stores.bits row none found,
    fun row payload found => ?_, fun values' short' room' => ?_⟩
  · have holds := stores.holdsPayload string found
    exact ⟨holds.there, holds.stored, holds.readsPayload string⟩
  · obtain ⟨n', hn', stores'⟩ := ofPayloads_stores string short' room'
    exact ⟨n', hn', fun row same rows below few few' =>
      stores.direct_congr stores' string same below few few'⟩

/-- A text in its slot, a missing row and a text beside the slots; then with a byte in front that
starts no character. -/
theorem payloads_kept_behind_a_malformed_row :
    let long := "beside the slots"
    let values := [some (Utf8.encode "in a slot"), none, some (Utf8.encode long)]
    ∃ n, ofPayloads (.scalar .varchar) values = .ok n ∧ n.bit? 1 = some false ∧
      n.RowReads 0 .string (.ok "in a slot") ∧ n.RowReads 2 .string (.ok long) ∧
      ∃ n' view, ofPayloads (.scalar .varchar) (some [0xFF] :: values.tail) = .ok n' ∧
        ColumnView.ofNative n' 3 = .ok view ∧ (Read.get .string 2).direct view = .ok long := by
  intro long values
  have short : ∀ payload, some payload ∈ values → payload.length < 0x100000000 := by
    intro payload hp
    simp only [values, List.mem_cons, List.not_mem_nil, or_false, Option.some.injEq, reduceCtorEq,
      false_or] at hp
    rcases hp with rfl | rfl <;> decide
  have short' : ∀ payload, some payload ∈ some [0xFF] :: values.tail →
      payload.length < 0x100000000 := by
    intro payload hp
    rcases List.mem_cons.mp hp with hp | hp
    · cases hp
      decide
    · exact short payload (List.mem_of_mem_tail hp)
  have texts {n : NativeVector} {row : Nat} {s : String} (h : n.ReadsText row (Utf8.encode s)) :
      n.RowReads row .string (.ok s) := by
    obtain ⟨text, bytes, reads, -⟩ := h.valid s.isValidUTF8
    have same := Utf8.decode_encode text
    rw [bytes, Utf8.decode_encode] at same
    cases same
    exact reads
  have string : Kind.varchar.isStringLike := rfl
  obtain ⟨n, hn, rows, missing, there, alike⟩ := payloads_kept string short (by decide)
  have third := texts (there 2 _ rfl).2.2
  obtain ⟨n', hn', others⟩ := alike _ short' (by decide)
  obtain ⟨view, view', made, made', same⟩ :=
    others 2 rfl 3 (by decide) (by decide) (by decide)
  obtain ⟨view'', made'', reads⟩ := third.2 3 (by decide) (Nat.le_of_eq rows.symm)
  obtain rfl : view = view'' := Except.ok.inj (made.symm.trans made'')
  refine ⟨n, hn, missing 1 rfl, texts (there 0 _ rfl).2.2, third, n', view', hn', made', ?_⟩
  rw [← same (.get .string 2) fun _ asked => asked]
  exact reads.get

end NativeVector
end TypedColumns
