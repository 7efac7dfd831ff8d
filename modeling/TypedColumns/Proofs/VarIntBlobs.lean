import TypedColumns.VarInt
import Mathlib.Algebra.Order.Ring.Int
import Mathlib.Algebra.Ring.Nat
import Mathlib.Data.List.Induction
import Mathlib.Tactic.SplitIfs

/-!
Integers of any length and their blobs. Sign and magnitude have one form for every integer, and a
blob says exactly what its header and its bytes spell: each number is read back from the blob that
it is written as, and the blobs that are written are those without zero bytes in front and without
a sign of zero.
-/
namespace TypedColumns.VarInt

theorem natOfBytes_concat (bytes : List UInt8) (b : UInt8) :
    natOfBytes (bytes ++ [b]) = natOfBytes bytes * 256 + b.toNat := by
  simp [natOfBytes, appendByte, List.foldl_append]

theorem natOfBytes_lt (bytes : List UInt8) : natOfBytes bytes < 256 ^ bytes.length := by
  induction bytes using List.reverseRecOn with
  | nil => exact Nat.one_pos
  | append_singleton bytes b ih =>
    have small := b.toNat_lt
    rw [natOfBytes_concat, List.length_append, List.length_singleton, Nat.pow_succ]
    omega

theorem natOfBytes_zero_cons (bytes : List UInt8) : natOfBytes (0 :: bytes) = natOfBytes bytes :=
  rfl

@[simp] theorem natOfBytes_dropZeros (bytes : List UInt8) :
    natOfBytes (bytes.dropWhile (· == 0)) = natOfBytes bytes := by
  induction bytes with
  | nil => rfl
  | cons b rest ih =>
    rw [List.dropWhile_cons]
    split_ifs with zero
    · rw [ih, eq_of_beq zero, natOfBytes_zero_cons]
    · rfl

theorem natOfBytes_bytesOfNat (n : Nat) : natOfBytes (bytesOfNat n) = n := by
  induction n using Nat.strongRecOn with
  | _ n ih =>
    rw [bytesOfNat]
    by_cases zero : n = 0
    · rw [if_pos zero, zero]
      rfl
    · have smaller : n / 256 < n := by omega
      rw [if_neg zero, natOfBytes_concat, ih _ smaller, UInt8.toNat_ofNat']
      omega

/-- Bytes without a zero in front are those of their number. -/
theorem bytesOfNat_natOfBytes {bytes : List UInt8} (h : bytes.head? ≠ some 0) :
    bytesOfNat (natOfBytes bytes) = bytes := by
  induction bytes using List.reverseRecOn with
  | nil => simp [natOfBytes, bytesOfNat]
  | append_singleton bytes b ih =>
    have small := b.toNat_lt
    have front : bytes.head? ≠ some 0 := by
      intro zero
      exact h (by rw [List.head?_append, zero, Option.some_or])
    have positive : natOfBytes (bytes ++ [b]) ≠ 0 := by
      rw [natOfBytes_concat]
      intro zero
      have first := ih front
      rw [show natOfBytes bytes = 0 by omega] at first
      obtain rfl : bytes = [] := by rw [← first, bytesOfNat, if_pos rfl]
      obtain rfl : b = 0 := UInt8.toNat_inj.mp (by rw [UInt8.toNat_zero]; omega)
      exact h rfl
    rw [bytesOfNat, if_neg positive, natOfBytes_concat]
    have quotient : (natOfBytes bytes * 256 + b.toNat) / 256 = natOfBytes bytes := by omega
    have last : UInt8.ofNat (natOfBytes bytes * 256 + b.toNat) = b := by
      apply UInt8.toNat_inj.mp
      rw [UInt8.toNat_ofNat']
      omega
    rw [quotient, last, ih front]

theorem length_bytesOfNat_le {n k : Nat} (h : n < 256 ^ k) : (bytesOfNat n).length ≤ k := by
  induction k generalizing n with
  | zero =>
    obtain rfl : n = 0 := by simpa using h
    simp [bytesOfNat]
  | succ k ih =>
    rw [bytesOfNat]
    by_cases zero : n = 0
    · simp [zero]
    · have rest : n / 256 < 256 ^ k := by
        rw [Nat.pow_succ] at h
        omega
      rw [if_neg zero, List.length_append, List.length_singleton]
      have := ih rest
      omega

/-! ## Integers -/

theorem toInt_ofBytes (negative : Bool) (bytes : List UInt8) :
    (ofBytes negative bytes).toInt = signed negative bytes := by
  have magnitude : natOfBytes (ofBytes negative bytes).magnitude = natOfBytes bytes :=
    natOfBytes_dropZeros bytes
  rw [toInt, signed, magnitude]
  cases negative with
  | false => rfl
  | true =>
    by_cases zero : (ofBytes true bytes).magnitude = []
    · rw [zero] at magnitude
      rw [signed, ← magnitude]
      simp [natOfBytes]
    · have sign : (ofBytes true bytes).negative = true := by
        simpa [ofBytes] using zero
      rw [sign]
      rfl

theorem toInt_mk (n : Int) : (mk n).toInt = n := by
  rw [mk, toInt_ofBytes, signed, natOfBytes_bytesOfNat]
  by_cases negative : n < 0
  · simp only [negative, decide_true, if_true]
    omega
  · simp only [negative, decide_false, Bool.false_eq_true, if_false]
    omega

theorem natAbs_toInt (v : VarInt) : v.toInt.natAbs = natOfBytes v.magnitude := by
  unfold toInt signed
  split_ifs
  · rw [Int.natAbs_neg, Int.natAbs_natCast]
  · rw [Int.natAbs_natCast]

theorem magnitude_eq (v : VarInt) : v.magnitude = bytesOfNat v.toInt.natAbs := by
  rw [natAbs_toInt, bytesOfNat_natOfBytes v.no_leading_zero]

theorem natOfBytes_magnitude_eq_zero {v : VarInt} :
    natOfBytes v.magnitude = 0 ↔ v.magnitude = [] := by
  constructor
  · intro zero
    rw [magnitude_eq, natAbs_toInt, zero, bytesOfNat, if_pos rfl]
  · intro empty
    rw [empty]
    rfl

theorem negative_iff (v : VarInt) : v.negative = true ↔ v.toInt < 0 := by
  have positive : v.negative = true → natOfBytes v.magnitude ≠ 0 := by
    intro sign zero
    rw [v.zero_unsigned (natOfBytes_magnitude_eq_zero.mp zero)] at sign
    contradiction
  unfold toInt signed
  split_ifs with sign
  · have := positive sign
    exact ⟨fun _ => by omega, fun _ => sign⟩
  · exact ⟨fun h => absurd h sign, fun h => by omega⟩

/-- Every integer has one form. -/
theorem toInt_inj {v w : VarInt} : v = w ↔ v.toInt = w.toInt := by
  refine ⟨congrArg toInt, fun same => ?_⟩
  have sign : v.negative = w.negative := by
    rw [Bool.eq_iff_iff, negative_iff, negative_iff, same]
  have magnitude : v.magnitude = w.magnitude := by rw [magnitude_eq, magnitude_eq, same]
  cases v
  cases w
  simp_all

/-- Where a number fits `k` bytes, it has no more of them. -/
theorem length_magnitude_le {v : VarInt} {k : Nat} (h : natOfBytes v.magnitude < 256 ^ k) :
    v.magnitude.length ≤ k := by
  rw [magnitude_eq, natAbs_toInt]
  exact length_bytesOfNat_le h

/-- The integer is given exactly if 128 bits hold it. Numbers of more than 16 bytes are beyond
them, and of the negative ones the least has a magnitude that is no 128-bit integer. -/
theorem toWord?_eq (v : VarInt) : v.toWord? = Word.ofInt? .i128 v.toInt := by
  have large : 16 < v.magnitude.length → 256 ^ 16 ≤ natOfBytes v.magnitude := by
    intro many
    by_contra small
    exact Nat.not_le.mpr many (length_magnitude_le (Nat.lt_of_not_le small))
  unfold toWord? toInt signed
  generalize natOfBytes v.magnitude = m at large ⊢
  by_cases many : 16 < v.magnitude.length
  · have beyond : ¬IntKind.i128.Holds (if v.negative then -(m : Int) else m) := by
      have := large many
      simp only [IntKind.Holds, IntKind.min, IntKind.max]
      split_ifs <;> omega
    rw [if_pos many, Word.ofInt?, dif_neg beyond]
  rw [if_neg many]
  cases v.negative with
  | false => rfl
  | true =>
    simp only [Bool.true_eq_false, if_false, if_true]
    by_cases least : (m : Int) = -IntKind.i128.min
    · rw [if_pos least, least, neg_neg, Word.ofInt?, dif_pos]
    rw [if_neg least]
    by_cases holds : IntKind.i128.Holds m
    · have back : IntKind.i128.Holds (-(m : Int)) := by
        simp only [IntKind.Holds, IntKind.min, IntKind.max] at holds ⊢
        omega
      rw [Word.ofInt?, dif_pos holds, Word.ofInt?, dif_pos back, Option.map_some]
      exact congrArg some (Word.ext (Word.wrap_val_of_holds back))
    · have beyond : ¬IntKind.i128.Holds (-(m : Int)) := by
        simp only [IntKind.Holds, IntKind.min, IntKind.max] at holds least ⊢
        omega
      rw [Word.ofInt?, dif_neg holds, Word.ofInt?, dif_neg beyond, Option.map_none]

/-! ## Blobs -/

@[simp] theorem length_invert (negative : Bool) (bytes : List UInt8) :
    (invert negative bytes).length = bytes.length := by
  cases negative <;> simp [invert]

theorem invert_append (negative : Bool) (front back : List UInt8) :
    invert negative (front ++ back) = invert negative front ++ invert negative back := by
  cases negative <;> simp [invert]

theorem invert_invert (negative : Bool) (bytes : List UInt8) :
    invert negative (invert negative bytes) = bytes := by
  have twice (b : UInt8) : 255 - (255 - b) = b := by
    have small := b.toNat_lt
    apply UInt8.toNat_inj.mp
    simp only [UInt8.toNat_sub, UInt8.reduceToNat]
    omega
  cases negative with
  | false => rfl
  | true =>
    unfold invert
    simp only [if_true, List.map_map]
    exact (congrArg bytes.map (funext twice)).trans (List.map_id bytes)

/-- The three header bytes of a blob with `length` bytes of magnitude. -/
def headerBytes (length : Nat) : List UInt8 :=
  [UInt8.ofNat ((0x800000 + length) / 65536), UInt8.ofNat ((0x800000 + length) / 256),
    UInt8.ofNat (0x800000 + length)]

@[simp] theorem length_headerBytes (length : Nat) : (headerBytes length).length = 3 := rfl

theorem natOfBytes_headerBytes {length : Nat} (h : length ≤ lengthMask) :
    natOfBytes (headerBytes length) = 0x800000 + length := by
  unfold lengthMask at h
  simp only [headerBytes, natOfBytes, appendByte, List.foldl_cons, List.foldl_nil,
    UInt8.toNat_ofNat']
  omega

/-- The blob with a sign and a payload. -/
def blobOf (negative : Bool) (payload : List UInt8) : List UInt8 :=
  invert negative (headerBytes payload.length ++ payload)

theorem length_blobOf (negative : Bool) (payload : List UInt8) :
    (blobOf negative payload).length = 3 + payload.length := by
  rw [blobOf, length_invert, List.length_append, length_headerBytes]

/-- The magnitude in a blob, where zero has a byte. -/
def payload (v : VarInt) : List UInt8 := if v.magnitude = [] then [0] else v.magnitude

theorem toBlob_eq (v : VarInt) : v.toBlob = blobOf v.negative v.payload := rfl

/-- A blob with a clear top bit is that of a number below zero. -/
def isInverted (blob : List UInt8) : Bool := blob.head?.any fun b => b.toNat < 0x80

/-- The bytes of a blob as they are for numbers from zero up. -/
def upright (blob : List UInt8) : List UInt8 := invert (isInverted blob) blob

/-- How many bytes follow the header, by what it says. -/
def declaredLength (blob : List UInt8) : Nat := natOfBytes ((upright blob).take 3) % 0x800000

/-- The integer that header and payload spell. -/
def spelled (blob : List UInt8) : Int := signed (isInverted blob) ((upright blob).drop 3)

section BlobOf

variable {negative : Bool} {payload : List UInt8} (few : payload.length ≤ lengthMask)
include few

/-- The top bit of the header tells the sign, before and after inversion. -/
theorem isInverted_blobOf : isInverted (blobOf negative payload) = negative := by
  unfold lengthMask at few
  cases negative with
  | false =>
    show decide (UInt8.toNat _ < 0x80) = false
    rw [UInt8.toNat_ofNat', decide_eq_false_iff_not]
    omega
  | true =>
    show decide (UInt8.toNat (255 - _) < 0x80) = true
    rw [decide_eq_true_iff]
    simp only [UInt8.toNat_sub, UInt8.reduceToNat, UInt8.toNat_ofNat']
    omega

theorem upright_blobOf :
    upright (blobOf negative payload) = headerBytes payload.length ++ payload := by
  rw [upright, isInverted_blobOf few, blobOf, invert_invert]

theorem declaredLength_blobOf : declaredLength (blobOf negative payload) = payload.length := by
  rw [declaredLength, upright_blobOf few, List.take_left' (length_headerBytes _),
    natOfBytes_headerBytes few]
  unfold lengthMask at few
  omega

theorem spelled_blobOf : spelled (blobOf negative payload) = signed negative payload := by
  rw [spelled, isInverted_blobOf few, upright_blobOf few, List.drop_left' (length_headerBytes _)]

end BlobOf

theorem exists_header {blob : List UInt8} (long : 4 ≤ blob.length) :
    ∃ a b c rest, rest ≠ [] ∧ blob = a :: b :: c :: rest := by
  rcases blob with _ | ⟨a, _ | ⟨b, _ | ⟨c, _ | ⟨d, rest⟩⟩⟩⟩
  · contradiction
  · contradiction
  · contradiction
  · contradiction
  · exact ⟨a, b, c, d :: rest, List.cons_ne_nil d rest, rfl⟩

section Header

variable (a b c : UInt8) (rest : List UInt8)

theorem isInverted_cons : isInverted (a :: b :: c :: rest) = decide (a.toNat < 0x80) := rfl

theorem take_upright : (upright (a :: b :: c :: rest)).take 3 =
    invert (decide (a.toNat < 0x80)) [a, b, c] := by
  rw [upright, isInverted_cons]
  show (invert _ ([a, b, c] ++ rest)).take 3 = _
  rw [invert_append]
  exact List.take_left' (length_invert _ _)

theorem drop_upright : (upright (a :: b :: c :: rest)).drop 3 =
    invert (decide (a.toNat < 0x80)) rest := by
  rw [upright, isInverted_cons]
  show (invert _ ([a, b, c] ++ rest)).drop 3 = _
  rw [invert_append]
  exact List.drop_left' (length_invert _ _)

/-- Upright, the header has its top bit set, and it is given by the length that it declares. -/
theorem headerBytes_declaredLength :
    headerBytes (declaredLength (a :: b :: c :: rest)) =
      (upright (a :: b :: c :: rest)).take 3 := by
  have ha := a.toNat_lt
  have hb := b.toNat_lt
  have hc := c.toNat_lt
  rw [declaredLength, take_upright]
  by_cases sign : a.toNat < 0x80
  · simp only [sign, decide_true, invert, if_true, List.map_cons, List.map_nil, headerBytes,
      natOfBytes, appendByte, List.foldl_cons, List.foldl_nil, List.cons.injEq, ← UInt8.toNat_inj,
      UInt8.toNat_ofNat', UInt8.toNat_sub, UInt8.reduceToNat, and_true]
    omega
  · simp only [sign, decide_false, invert, Bool.false_eq_true, if_false, headerBytes,
      natOfBytes, appendByte, List.foldl_cons, List.foldl_nil, List.cons.injEq, ← UInt8.toNat_inj,
      UInt8.toNat_ofNat', and_true]
    omega

end Header

/-- A blob whose header declares what follows is the blob with this sign and this payload. -/
theorem eq_blobOf {blob : List UInt8} (long : 4 ≤ blob.length)
    (declared : declaredLength blob = blob.length - 3) :
    blob = blobOf (isInverted blob) ((upright blob).drop 3) := by
  have length : ((upright blob).drop 3).length = declaredLength blob := by
    rw [List.length_drop, upright, length_invert, declared]
  have header : headerBytes (declaredLength blob) = (upright blob).take 3 := by
    obtain ⟨a, b, c, rest, -, rfl⟩ := exists_header long
    exact headerBytes_declaredLength a b c rest
  rw [blobOf, length, header, List.take_append_drop, upright, invert_invert]

/-- What a blob is read as, by its header and the bytes that follow. -/
theorem ofBlob_eq {blob : List UInt8} (long : 4 ≤ blob.length) : ofBlob blob =
    if declaredLength blob = blob.length - 3 then
      .ok (ofBytes (isInverted blob) ((upright blob).drop 3))
    else .error (.length (declaredLength blob) (blob.length - 3)) := by
  obtain ⟨a, b, c, rest, nonempty, rfl⟩ := exists_header long
  rw [declaredLength, take_upright, drop_upright, ofBlob, if_neg nonempty]
  rfl

theorem ofBlob_short {blob : List UInt8} (short : blob.length < 4) :
    ofBlob blob = .error (.tooShort blob.length) := by
  rcases blob with _ | ⟨a, _ | ⟨b, _ | ⟨c, _ | ⟨d, rest⟩⟩⟩⟩
  · rfl
  · rfl
  · rfl
  · rfl
  · simp only [List.length_cons] at short
    omega

theorem length_drop_upright (blob : List UInt8) :
    ((upright blob).drop 3).length = blob.length - 3 := by
  rw [List.length_drop, upright, length_invert]

theorem declaredLength_le (blob : List UInt8) : declaredLength blob ≤ lengthMask :=
  Nat.lt_succ_iff.mp (Nat.mod_lt _ (by decide))

theorem ofBlob_blobOf {negative : Bool} {payload : List UInt8} (nonempty : payload ≠ [])
    (few : payload.length ≤ lengthMask) :
    ofBlob (blobOf negative payload) = .ok (ofBytes negative payload) := by
  have count := length_blobOf negative payload
  have positive := List.length_pos_iff.mpr nonempty
  rw [ofBlob_eq (by omega), declaredLength_blobOf few, if_pos (by omega), isInverted_blobOf few,
    upright_blobOf few, List.drop_left' (length_headerBytes _)]

/-- The blobs that are read are those with some sign and some payload. -/
theorem ofBlob_eq_ok {blob : List UInt8} {v : VarInt} (h : ofBlob blob = .ok v) :
    ∃ negative payload, payload ≠ [] ∧ payload.length ≤ lengthMask ∧
      blob = blobOf negative payload ∧ v = ofBytes negative payload := by
  by_cases long : 4 ≤ blob.length
  · rw [ofBlob_eq long] at h
    split_ifs at h with declared
    cases h
    have length := length_drop_upright blob
    refine ⟨_, _, List.ne_nil_of_length_pos (by omega), ?_, eq_blobOf long declared, rfl⟩
    rw [length, ← declared]
    exact declaredLength_le blob
  · rw [ofBlob_short (Nat.lt_of_not_le long)] at h
    contradiction

theorem blobOf_inj {negative other : Bool} {payload rest : List UInt8}
    (few : payload.length ≤ lengthMask) (few' : rest.length ≤ lengthMask) :
    blobOf negative payload = blobOf other rest ↔ negative = other ∧ payload = rest := by
  refine ⟨fun same => ?_, fun ⟨sign, bytes⟩ => by rw [sign, bytes]⟩
  have sign := congrArg isInverted same
  have bytes := congrArg (fun blob => (upright blob).drop 3) same
  simp only [isInverted_blobOf few, isInverted_blobOf few'] at sign
  simp only [upright_blobOf few, upright_blobOf few',
    List.drop_left' (length_headerBytes _)] at bytes
  exact ⟨sign, bytes⟩

/-! ## Round trip -/

theorem length_payload_le {v : VarInt} {k : Nat} (positive : 0 < k) (h : v.magnitude.length ≤ k) :
    v.payload.length ≤ k := by
  unfold payload
  split_ifs
  · exact positive
  · exact h

theorem payload_ne_nil (v : VarInt) : v.payload ≠ [] := by
  unfold payload
  split_ifs with empty
  · exact List.cons_ne_nil 0 []
  · exact empty

theorem natOfBytes_payload (v : VarInt) : natOfBytes v.payload = natOfBytes v.magnitude := by
  unfold payload
  split_ifs with empty
  · rw [empty]
    rfl
  · rfl

theorem ofBytes_payload (v : VarInt) : ofBytes v.negative v.payload = v := by
  rw [toInt_inj, toInt_ofBytes, signed, natOfBytes_payload]
  rfl

/-- A number that a header can count the bytes of is read back from its blob. -/
theorem ofBlob_toBlob {v : VarInt} (h : v.magnitude.length ≤ lengthMask) :
    ofBlob v.toBlob = .ok v := by
  rw [toBlob_eq, ofBlob_blobOf v.payload_ne_nil (length_payload_le (by decide) h), ofBytes_payload]

/-- A header counts the bytes of what is read from its blob. -/
theorem length_of_ofBlob {blob : List UInt8} {v : VarInt} (h : ofBlob blob = .ok v) :
    v.magnitude.length ≤ lengthMask := by
  obtain ⟨negative, payload, -, few, -, rfl⟩ := ofBlob_eq_ok h
  exact Nat.le_trans (List.dropWhile_sublist _).length_le few

/-- Numbers that a program can have: read from blobs, made of 128-bit integers, or the first one. -/
inductive Obtained : VarInt → Prop
  | ofBlob {blob : List UInt8} {v : VarInt} (h : ofBlob blob = .ok v) : Obtained v
  | ofWord (n : Word .i128) : Obtained (mk n.val)
  | zero : Obtained zero

theorem Obtained.length_le {v : VarInt} (h : v.Obtained) : v.magnitude.length ≤ lengthMask := by
  cases h with
  | ofBlob h => exact length_of_ofBlob h
  | ofWord n =>
    have small : natOfBytes (mk n.val).magnitude < 256 ^ 16 := by
      have holds := n.holds
      simp only [IntKind.Holds, IntKind.min, IntKind.max] at holds
      rw [← natAbs_toInt, toInt_mk]
      omega
    exact Nat.le_trans (length_magnitude_le small) (by decide)
  | zero => decide

/-! ## Canonical blobs -/

theorem payload_ofBytes_iff {negative : Bool} {bytes : List UInt8} (nonempty : bytes ≠ []) :
    (ofBytes negative bytes).payload = bytes ↔ bytes.length = 1 ∨ bytes.head? ≠ some 0 := by
  constructor
  · intro same
    by_cases empty : (ofBytes negative bytes).magnitude = []
    · left
      rw [← same, payload, if_pos empty]
      rfl
    · right
      rw [← same, payload, if_neg empty]
      exact (ofBytes negative bytes).no_leading_zero
  · obtain ⟨b, rest, rfl⟩ := List.exists_cons_of_ne_nil nonempty
    intro shortest
    by_cases zero : b = 0
    · subst zero
      have alone : rest = [] := by simpa using shortest
      rw [alone]
      rfl
    · have kept : (ofBytes negative (b :: rest)).magnitude = b :: rest :=
        List.dropWhile_cons_of_neg (p := (· == 0)) (mt eq_of_beq zero)
      rw [payload, kept, if_neg nonempty]

theorem negative_ofBytes_iff {negative : Bool} {bytes : List UInt8} :
    (ofBytes negative bytes).negative = negative ↔
      ¬(negative = true ∧ signed negative bytes = 0) := by
  cases negative with
  | false => simp [ofBytes]
  | true =>
    rw [negative_iff, toInt_ofBytes, signed, if_pos rfl]
    simp only [true_and]
    omega

theorem toBlob_ofBytes_iff {negative : Bool} {bytes : List UInt8} (nonempty : bytes ≠ [])
    (few : bytes.length ≤ lengthMask) : (ofBytes negative bytes).toBlob = blobOf negative bytes ↔
      (bytes.length = 1 ∨ bytes.head? ≠ some 0) ∧
        ¬(negative = true ∧ signed negative bytes = 0) := by
  have fewer : (ofBytes negative bytes).magnitude.length ≤ lengthMask :=
    Nat.le_trans (List.dropWhile_sublist _).length_le few
  rw [toBlob_eq, blobOf_inj (length_payload_le (by decide) fewer) few, payload_ofBytes_iff nonempty,
    negative_ofBytes_iff, and_comm]

/-- No zero byte in front that could be left out. -/
def Shortest (blob : List UInt8) : Prop := blob.length = 4 ∨ (upright blob)[3]? ≠ some 0

theorem shortest_blobOf {negative : Bool} {payload : List UInt8}
    (few : payload.length ≤ lengthMask) : Shortest (blobOf negative payload) ↔
      payload.length = 1 ∨ payload.head? ≠ some 0 := by
  have count : (blobOf negative payload).length = 4 ↔ payload.length = 1 := by
    rw [length_blobOf]
    omega
  have first : (headerBytes payload.length ++ payload)[3]? = payload.head? := by
    rw [List.getElem?_append_right (Nat.le_refl 3), length_headerBytes, List.head?_eq_getElem?]
  rw [Shortest, upright_blobOf few, first, count]

instance (blob : List UInt8) : Decidable (Shortest blob) := inferInstanceAs (Decidable (_ ∨ _))

/-- A zero with a minus sign. -/
def NegativeZero (blob : List UInt8) : Prop := isInverted blob = true ∧ spelled blob = 0

/-- A blob is read exactly if its header declares the bytes that follow, which are at least one,
and stands for the integer that it spells. Every number is read back from the blob that it is
written as, and a blob is what its number is written as exactly if no zero byte can be left out and
zero has no minus sign. There is one form for every integer; 128-bit integers have theirs and are
what is read from it. -/
theorem blobs_exact :
    (∀ blob, (∃ v, ofBlob blob = .ok v) ↔
      4 ≤ blob.length ∧ declaredLength blob = blob.length - 3) ∧
    (∀ blob v, ofBlob blob = .ok v → v.toInt = spelled blob ∧
      (v.toBlob = blob ↔ Shortest blob ∧ ¬NegativeZero blob)) ∧
    (∀ v : VarInt, v.Obtained → ofBlob v.toBlob = .ok v) ∧
    (∀ v w : VarInt, v.Obtained → w.Obtained → (v = w ↔ v.toInt = w.toInt)) ∧
    (∀ n : Word .i128, (mk n.val).toInt = n.val) ∧
    ∀ v : VarInt, v.Obtained → v.toWord? = Word.ofInt? .i128 v.toInt := by
  refine ⟨fun blob => ⟨?_, ?_⟩, ?_, fun v h => ofBlob_toBlob h.length_le,
    fun v w _ _ => toInt_inj, fun n => toInt_mk n.val, fun v _ => toWord?_eq v⟩
  · rintro ⟨v, h⟩
    obtain ⟨negative, payload, nonempty, few, rfl, -⟩ := ofBlob_eq_ok h
    have positive := List.length_pos_iff.mpr nonempty
    rw [declaredLength_blobOf few, length_blobOf]
    exact ⟨by omega, by omega⟩
  · rintro ⟨long, declared⟩
    exact ⟨_, (ofBlob_eq long).trans (if_pos declared)⟩
  · intro blob v h
    obtain ⟨negative, payload, nonempty, few, rfl, rfl⟩ := ofBlob_eq_ok h
    refine ⟨by rw [toInt_ofBytes, spelled_blobOf few], ?_⟩
    rw [toBlob_ofBytes_iff nonempty few, shortest_blobOf few, NegativeZero, isInverted_blobOf few,
      spelled_blobOf few]

/-- A blob of -256 with a zero byte in front is read as that number, which has a shorter blob. -/
theorem blobs_exact_zero_in_front :
    let blob : List UInt8 := [0x7F, 0xFF, 0xFC, 0xFF, 0xFE, 0xFF]
    ∃ v : VarInt, ofBlob blob = .ok v ∧ v.toInt = -256 ∧ v.toBlob ≠ blob ∧
      ofBlob v.toBlob = .ok v ∧ v = mk (-256) ∧ v.toWord? = some ⟨-256, by decide⟩ := by
  intro blob
  obtain ⟨reads, meaning, back, equal, counted, word⟩ := blobs_exact
  obtain ⟨v, h⟩ := (reads blob).mpr ⟨by decide, by decide⟩
  obtain ⟨integer, shortest⟩ := meaning blob v h
  have obtained : v.Obtained := .ofBlob h
  have value : v.toInt = -256 := integer.trans (by decide)
  let n : Word .i128 := ⟨-256, by decide⟩
  have same : v = mk (-256) := (equal v _ obtained (.ofWord n)).mpr (value.trans (counted n).symm)
  have longer : v.toBlob ≠ blob := fun kept => absurd (shortest.mp kept).1 (by decide)
  refine ⟨v, h, value, longer, back v obtained, same, ?_⟩
  rw [word v obtained, value]
  rfl

end TypedColumns.VarInt
