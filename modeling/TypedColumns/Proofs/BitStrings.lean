import TypedColumns.BitString
import Mathlib.Data.Nat.Bitwise
import Mathlib.Tactic.IntervalCases
import Mathlib.Tactic.SplitIfs

/-!
Strings of bits and their blobs. A blob that is accepted stands for the bits of its data bytes
without the filler in front, and is written back as it was. Bits that are packed are set one after
the other in blank bytes, behind a filler that makes the bytes whole, and are read back from them.
-/
namespace TypedColumns.BitString

/-- The eight bits of a byte, most significant first. -/
def bitsOfByte (byte : UInt8) : List Bool :=
  (List.range 8).map fun i => byte.toNat.testBit (7 - i)

/-- The bits of bytes one after the other. -/
def bitsOfBytes (bytes : List UInt8) : List Bool := bytes.flatMap bitsOfByte

@[simp] theorem length_bitsOfByte (byte : UInt8) : (bitsOfByte byte).length = 8 := by
  simp [bitsOfByte]

theorem bitsOfBytes_cons (byte : UInt8) (bytes : List UInt8) :
    bitsOfBytes (byte :: bytes) = bitsOfByte byte ++ bitsOfBytes bytes :=
  List.flatMap_cons

@[simp] theorem length_bitsOfBytes (bytes : List UInt8) :
    (bitsOfBytes bytes).length = 8 * bytes.length := by
  induction bytes with
  | nil => rfl
  | cons byte bytes ih =>
    rw [bitsOfBytes_cons, List.length_append, length_bitsOfByte, ih, List.length_cons]
    omega

theorem getElem?_bitsOfByte (byte : UInt8) {i : Nat} (h : i < 8) :
    (bitsOfByte byte)[i]? = some (byte.toNat.testBit (7 - i)) := by
  rw [bitsOfByte, List.getElem?_map, List.getElem?_range h, Option.map_some]

/-- Eight bits to a byte. -/
theorem getElem?_bitsOfBytes (bytes : List UInt8) (position : Nat) :
    (bitsOfBytes bytes)[position]? =
      bytes[position / 8]?.map fun byte => byte.toNat.testBit (7 - position % 8) := by
  induction bytes generalizing position with
  | nil => simp [bitsOfBytes]
  | cons byte bytes ih =>
    rw [bitsOfBytes_cons]
    by_cases first : position < 8
    · rw [List.getElem?_append_left (by rwa [length_bitsOfByte]), getElem?_bitsOfByte byte first,
        Nat.div_eq_of_lt first, Nat.mod_eq_of_lt first]
      rfl
    · have next : position / 8 = (position - 8) / 8 + 1 := by omega
      have same : (position - 8) % 8 = position % 8 := by omega
      rw [List.getElem?_append_right (by rw [length_bitsOfByte]; omega), length_bitsOfByte, ih, next,
        same, List.getElem?_cons_succ]

/-! ## Bits of one byte -/

theorem toNat_mask {i : Nat} (h : i < 8) : (mask i).toNat = 2 ^ (7 - i) := by
  interval_cases i <;> rfl

/-- What is left under the mask tells the bit. -/
theorem bitOfByte_eq (byte : UInt8) {i : Nat} (h : i < 8) :
    bitOfByte byte i = byte.toNat.testBit (7 - i) := by
  have left : (byte &&& mask i).toNat = (byte.toNat.testBit (7 - i)).toNat * 2 ^ (7 - i) := by
    rw [UInt8.toNat_and, toNat_mask h, Nat.and_two_pow]
  have unit : 0 < 2 ^ (7 - i) := Nat.two_pow_pos _
  rw [bitOfByte, Bool.eq_iff_iff, bne_iff_ne, ne_eq, ← UInt8.toNat_inj, left]
  cases byte.toNat.testBit (7 - i) with
  | false => simp
  | true => simp

/-- The mask sets its own bit and keeps the others. -/
theorem testBit_or_mask (byte : UInt8) {i j : Nat} (hi : i < 8) (hj : j < 8) :
    (byte ||| mask i).toNat.testBit (7 - j) =
      if i = j then true else byte.toNat.testBit (7 - j) := by
  rw [UInt8.toNat_or, Nat.testBit_or, toNat_mask hi, Nat.testBit_two_pow]
  by_cases same : i = j
  · simp [same]
  · rw [if_neg same, decide_eq_false (by omega), Bool.or_false]

/-! ## Reading -/

variable (b : BitString)

theorem padding_le : b.padding ≤ 8 * b.bytes.length := by
  have few := b.padding_lt
  have none := b.padding_eq
  cases h : b.bytes with
  | nil => exact (none h).le
  | cons byte bytes =>
    rw [List.length_cons]
    omega

theorem length_eq : b.length = ((bitsOfBytes b.bytes).drop b.padding).length := by
  rw [length, List.length_drop, length_bitsOfBytes, Nat.mul_comm]

/-- Bits are found behind the filler, and none outside the bytes. -/
theorem get?_eq (i : Nat) : b.get? i = ((bitsOfBytes b.bytes).drop b.padding)[i]? := by
  rw [List.getElem?_drop, getElem?_bitsOfBytes, Nat.add_comm, get?]
  by_cases h : i < b.length
  · have inside := b.position_lt h
    have bit := bitOfByte_eq b.bytes[(i + b.padding) / 8]
      (show (i + b.padding) % 8 < 8 from Nat.mod_lt _ (by decide))
    rw [dif_pos h, List.getElem?_eq_getElem inside, Option.map_some, ← bit]
  · have outside : b.bytes.length ≤ (i + b.padding) / 8 := by
      unfold length at h
      omega
    rw [dif_neg h, List.getElem?_eq_none outside, Option.map_none]

theorem filterMap_getElem? {α : Type} (items : List α) :
    ((List.range items.length).filterMap fun i => items[i]?) = items := by
  induction items with
  | nil => rfl
  | cons a rest ih =>
    rw [List.length_cons, List.range_succ_eq_map, List.filterMap_cons_some List.getElem?_cons_zero,
      List.filterMap_map]
    exact congrArg (a :: ·) ih

theorem toList_eq : b.toList = (bitsOfBytes b.bytes).drop b.padding := by
  rw [toList, funext b.get?_eq, length_eq, filterMap_getElem?]

/-! ## Writing -/

/-- One step sets one bit of all. -/
theorem bitsOfBytes_setBit (bytes : List UInt8) (position : Nat) :
    bitsOfBytes (setBit bytes position) = (bitsOfBytes bytes).set position true := by
  apply List.ext_getElem?
  intro other
  have hp : position % 8 < 8 := Nat.mod_lt _ (by decide)
  have ho : other % 8 < 8 := Nat.mod_lt _ (by decide)
  rw [getElem?_bitsOfBytes, setBit, List.getElem?_set, length_bitsOfBytes, getElem?_bitsOfBytes]
  by_cases byte : position / 8 = other / 8
  · rw [← byte, List.getElem?_modify_eq]
    cases found : bytes[position / 8]? with
    | none =>
      have outside := List.getElem?_eq_none_iff.mp found
      rw [if_neg (show ¬position < 8 * bytes.length by omega)]
      split_ifs <;> rfl
    | some old =>
      have inside := (List.getElem?_eq_some_iff.mp found).1
      have bit := testBit_or_mask old hp ho
      by_cases same : position = other
      · subst same
        rw [if_pos rfl] at bit
        rw [if_pos rfl, if_pos (by omega), ← bit]
        rfl
      · rw [if_neg (by omega)] at bit
        rw [if_neg same, Option.map_some, ← bit]
        rfl
  · have apart : position ≠ other := by
      rintro rfl
      exact byte rfl
    rw [List.getElem?_modify_ne _ _ byte, if_neg apart]

/-- Written where the bytes are blank, bits stand there afterwards, and all others are kept. -/
theorem bitsOfBytes_write {bytes : List UInt8} {front bits back : List Bool}
    (blank : bitsOfBytes bytes = front ++ (List.replicate bits.length false ++ back)) :
    bitsOfBytes (write bytes front.length bits) = front ++ (bits ++ back) := by
  induction bits generalizing bytes front with
  | nil => exact blank
  | cons bit rest ih =>
    rw [List.length_cons, List.replicate_succ, List.cons_append] at blank
    have step : bitsOfBytes (if bit then setBit bytes front.length else bytes) =
        (front ++ [bit]) ++ (List.replicate rest.length false ++ back) := by
      cases bit with
      | false => simpa using blank
      | true =>
        rw [if_pos rfl, bitsOfBytes_setBit, blank, List.set_append_right _ _ (Nat.le_refl _)]
        simp
    have others := ih step
    rw [List.length_append, List.length_singleton] at others
    rw [write, others]
    simp

theorem bitsOfBytes_blank (n : Nat) :
    bitsOfBytes (List.replicate n 0) = List.replicate (8 * n) false := by
  induction n with
  | zero => rfl
  | succ n ih =>
    have zeros : bitsOfByte 0 = List.replicate 8 false := rfl
    rw [List.replicate_succ, bitsOfBytes_cons, zeros, ih, List.replicate_append_replicate,
      Nat.mul_succ, Nat.add_comm]

/-- The bytes are whole: a filler of set bits, then the bits. -/
theorem bitsOfBytes_ofList (bits : List Bool) :
    bitsOfBytes (ofList bits).bytes = List.replicate (ofList bits).padding true ++ bits := by
  let padding := (8 - bits.length % 8) % 8
  let blank : List UInt8 := List.replicate ((bits.length + padding) / 8) 0
  have start : bitsOfBytes blank = [] ++ (List.replicate (List.replicate padding true).length false ++
      List.replicate bits.length false) := by
    have whole : 8 * ((bits.length + padding) / 8) = padding + bits.length := by omega
    rw [bitsOfBytes_blank, whole, List.length_replicate, List.nil_append,
      List.replicate_append_replicate]
  have filled : bitsOfBytes (write blank 0 (List.replicate padding true)) =
      List.replicate padding true ++ (List.replicate bits.length false ++ []) := by
    rw [List.append_nil]
    exact bitsOfBytes_write start
  have packed := bitsOfBytes_write filled
  rw [List.length_replicate, List.append_nil] at packed
  exact packed

theorem toList_ofList (bits : List Bool) : (ofList bits).toList = bits := by
  rw [toList_eq, bitsOfBytes_ofList, List.drop_left' List.length_replicate]

theorem length_bytes_ofList (bits : List Bool) :
    8 * (ofList bits).bytes.length = (ofList bits).padding + bits.length := by
  rw [← length_bitsOfBytes, bitsOfBytes_ofList, List.length_append, List.length_replicate]

/-! ## Blobs -/

theorem toBlob_of_ofBlob {blob : List UInt8} {b : BitString} (h : ofBlob blob = .ok b) :
    b.toBlob = blob := by
  cases blob with
  | nil => contradiction
  | cons p bytes =>
    unfold ofBlob at h
    simp only at h
    split_ifs at h
    cases h
    simp [toBlob]

theorem ofBlob_toBlob : ofBlob b.toBlob = .ok b := by
  have few := b.padding_lt
  have kept : (UInt8.ofNat b.padding).toNat = b.padding := by
    rw [UInt8.toNat_ofNat']
    omega
  rw [toBlob, ofBlob, dif_pos (by rw [kept]; exact ⟨few, b.padding_eq⟩)]
  simp only [kept]

theorem ofBlob_cons {p : UInt8} {data : List UInt8} :
    (∃ b, ofBlob (p :: data) = .ok b) ↔ p.toNat ≤ 7 ∧ (p = 0 ∨ data ≠ []) := by
  have fits : (p.toNat < 8 ∧ (data = [] → p.toNat = 0)) ↔
      (p.toNat ≤ 7 ∧ (p = 0 ∨ data ≠ [])) := by
    rw [or_iff_not_imp_right, not_not, Nat.lt_succ_iff, ← UInt8.toNat_inj, UInt8.toNat_zero]
  rw [← fits, ofBlob]
  split_ifs with h
  · exact ⟨fun _ => h, fun _ => ⟨_, rfl⟩⟩
  · exact ⟨fun ⟨_, read⟩ => by contradiction, fun g => absurd g h⟩

/-- A blob with the filler count `p` and the bytes `data` is read as `b`: every reading gives the
bits behind the filler, and none leaves the bytes. -/
structure IsDecoded (p : UInt8) (data : List UInt8) (b : BitString) : Prop where
  blob : b.toBlob = p :: data
  padding_le : p.toNat ≤ 8 * data.length
  length : b.length = 8 * data.length - p.toNat
  bits : b.toList = (bitsOfBytes data).drop p.toNat
  text : b.text = String.ofList
    (((bitsOfBytes data).drop p.toNat).map fun bit => if bit then '1' else '0')
  get : ∀ i, b.get? i = ((bitsOfBytes data).drop p.toNat)[i]?
  inside : ∀ i, i < b.length → (i + p.toNat) / 8 < data.length ∧ ∃ bit, b.get? i = some bit
  outside : ∀ i, b.length ≤ i → b.get? i = none

theorem isDecoded_of_ofBlob {p : UInt8} {data : List UInt8} {b : BitString}
    (h : ofBlob (p :: data) = .ok b) : IsDecoded p data b := by
  have blob := toBlob_of_ofBlob h
  obtain ⟨filler, rfl⟩ := List.cons_eq_cons.mp blob
  have few := b.padding_lt
  have padding : p.toNat = b.padding := by
    rw [← filler, UInt8.toNat_ofNat']
    omega
  constructor
  case blob => exact blob
  case padding_le => rw [padding]; exact b.padding_le
  case length => rw [padding, BitString.length, Nat.mul_comm]
  case bits => rw [padding, toList_eq]
  case text => rw [padding, BitString.text, toList_eq]
  case get => rw [padding]; exact b.get?_eq
  case inside =>
    intro i hi
    rw [padding]
    exact ⟨b.position_lt hi, _, dif_pos hi⟩
  case outside =>
    intro i hi
    exact dif_neg (Nat.not_lt.mpr hi)

/-- What packing gives: the bits, in as few bytes as hold them. All bits that it sets are in these
bytes, and their blob is accepted. -/
structure IsPacked (bits : List Bool) (b : BitString) : Prop where
  kept : b.toList = bits
  bytes : b.bytes.length = (bits.length + 7) / 8
  inside : ∀ position < b.padding + bits.length, position / 8 < b.bytes.length
  blob : ofBlob b.toBlob = .ok b

theorem isPacked_ofList (bits : List Bool) : IsPacked bits (ofList bits) := by
  have whole := length_bytes_ofList bits
  have few := (ofList bits).padding_lt
  constructor
  case kept => exact toList_ofList bits
  case bytes => omega
  case inside => intro position hp; omega
  case blob => exact (ofList bits).ofBlob_toBlob

/-- A blob is accepted exactly if it has a count of at most seven filler bits and bytes to hold
them, and then it is read as the bits behind the filler and written as it was. Any bits are packed
into as few bytes as hold them and are read back from these, as they are from their blob. -/
theorem codec_exact :
    (∀ blob, (∃ b, ofBlob blob = .ok b) ↔
      ∃ p data, blob = p :: data ∧ p.toNat ≤ 7 ∧ (p = 0 ∨ data ≠ [])) ∧
    (∀ p data b, ofBlob (p :: data) = .ok b → IsDecoded p data b) ∧
    (∀ bits, IsPacked bits (ofList bits)) ∧
    ∀ blob b, ofBlob blob = .ok b → (ofList b.toList).toList = b.toList := by
  refine ⟨fun blob => ⟨?_, ?_⟩, fun p data b => isDecoded_of_ofBlob, isPacked_ofList,
    fun blob b _ => toList_ofList b.toList⟩
  · intro accepted
    cases blob with
    | nil => simp [ofBlob] at accepted
    | cons p data => exact ⟨p, data, rfl, ofBlob_cons.mp accepted⟩
  · rintro ⟨p, data, rfl, fits⟩
    exact ofBlob_cons.mpr fits

/-- Three filler bits of two bytes, two of them clear. -/
theorem codec_exact_of_two_bytes :
    ∃ b, ofBlob [3, 0x3A, 0x81] = .ok b ∧ b.toBlob = [3, 0x3A, 0x81] ∧ b.length = 13 ∧
      b.text = "1101010000001" ∧ b.get? 12 = some true ∧ b.get? 13 = none ∧
        (ofList b.toList).toList = b.toList := by
  obtain ⟨accepts, reads, -, repacks⟩ := codec_exact
  obtain ⟨b, h⟩ := (accepts [3, 0x3A, 0x81]).mpr ⟨3, _, rfl, by decide, by decide⟩
  have decoded := reads _ _ b h
  exact ⟨b, h, decoded.blob, decoded.length, decoded.text.trans (by decide),
    (decoded.get 12).trans (by decide), (decoded.get 13).trans (by decide), repacks _ b h⟩

end TypedColumns.BitString
