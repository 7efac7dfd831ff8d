import TypedColumns.Proofs.Storage

/-!
Vectors with children. A LIST or MAP points to segments of its child, the rows of an ARRAY are
segments of one length, the members of a STRUCT and the alternatives of a UNION have a row for every
row above. What the children hold decides what the vector holds.
-/
namespace TypedColumns

/-- Reading the rows of a span gives a segment of the child's answers. -/
theorem Result.mapM_range' {α : Type} {f : Nat → Result α} {answers : List (Result α)}
    (h : ∀ j (hj : j < answers.length), f j = answers[j]) {offset length : Nat}
    (inside : offset + length ≤ answers.length) :
    (List.range' offset length).mapM f = ((answers.drop offset).take length).mapM id := by
  induction length generalizing offset with
  | zero => simp
  | succ length ih =>
    have first : offset < answers.length := by omega
    rw [List.range'_succ, List.mapM_cons, h offset first, ih (by omega),
      List.drop_eq_getElem_cons first, List.take_succ_cons, List.mapM_cons]
    rfl

/-- Reading the rows of the span of a part gives that part. -/
theorem Result.mapM_segment {α : Type} {f : Nat → Result α} {parts : List (List (Result α))}
    (h : ∀ j (hj : j < parts.flatten.length), f j = parts.flatten[j]) {row : Nat}
    (hrow : row < parts.length) :
    (List.range' ((parts.map List.length).take row).sum parts[row].length).mapM f =
      parts[row].mapM id := by
  have inside : ((parts.map List.length).take row).sum + parts[row].length ≤
      parts.flatten.length := by
    have last := sum_take_add_le (parts.map List.length) (i := row) (by rwa [List.length_map])
    rwa [List.getElem_map, ← List.length_flatten] at last
  rw [mapM_range' h inside, segment_flatten parts hrow]

/-- A run of values is a success. -/
theorem Result.mapM_id_ok {α : Type} (values : List α) :
    (values.map (Except.ok : α → Result α)).mapM id = .ok values := by
  rw [List.mapM_map]
  exact (mapM_eq_map (g := id) fun _ _ => rfl).trans (by rw [List.map_id])

section Parts

variable {α β : Type} (f : α → β) (part : Value → List α) (rows : List Value)

theorem map_flatten_map : (rows.map part).flatten.map f =
    (rows.map fun v => (part v).map f).flatten := by
  rw [List.map_flatten, List.map_map]
  rfl

theorem lengths_map : (rows.map part).map List.length =
    (rows.map fun v => (part v).map f).map List.length := by
  rw [List.map_map, List.map_map]
  apply List.map_congr_left
  intro v _
  exact (List.length_map _).symm

end Parts

namespace LogicalType

@[simp] theorem length_consecutive (offset : Nat) (lengths : List Nat) :
    (consecutive offset lengths).length = lengths.length := by
  induction lengths generalizing offset with
  | nil => rfl
  | cons n rest ih => simp [consecutive, ih]

theorem getElem?_consecutive (offset : Nat) (lengths : List Nat) {row : Nat}
    (h : row < lengths.length) : (consecutive offset lengths)[row]? =
      some ⟨.wrap .u64 (offset + (lengths.take row).sum : Nat), .wrap .u64 lengths[row]⟩ := by
  induction lengths generalizing offset row with
  | nil => exact absurd h (Nat.not_lt_zero row)
  | cons n rest ih =>
    cases row with
    | zero => rfl
    | succ row =>
      rw [consecutive, List.getElem?_cons_succ, ih (offset + n) (by simpa using h)]
      simp [Nat.add_assoc]

end LogicalType

/-- Sizes are 64-bit words. -/
theorem Word.wrap_u64_toNat {n : Nat} (h : n < sizeModulus) :
    (Word.wrap .u64 (n : Int)).val.toNat = n := by
  have holds : IntKind.u64.Holds n := by
    unfold sizeModulus at h
    simp only [IntKind.Holds, IntKind.min, IntKind.max]
    omega
  rw [wrap_val_of_holds holds, Int.toNat_natCast]

namespace NativeVector

open LogicalType

/-- The entries of a vector that stores consecutive ones. -/
theorem entry?_consecutive {n : NativeVector} {lengths : List Nat}
    (hd : n.data = ((consecutive 0 lengths).map ListEntry.toBytes).flatten.toArray) {row : Nat}
    (hrow : row < lengths.length) :
    n.entry? row =
      some ⟨.wrap .u64 ((lengths.take row).sum : Nat), .wrap .u64 lengths[row]⟩ := by
  have wide : ∀ slot ∈ (consecutive 0 lengths).map ListEntry.toBytes, slot.length = 16 := by
    intro slot hslot
    obtain ⟨entry, -, rfl⟩ := List.mem_map.mp hslot
    exact ListEntry.toBytes_length entry
  have inside : row < (consecutive 0 lengths).length := by rwa [length_consecutive]
  have stored : row < ((consecutive 0 lengths).map ListEntry.toBytes).length := by
    rwa [List.length_map]
  have entry := getElem?_consecutive 0 lengths hrow
  rw [List.getElem?_eq_getElem inside, Option.some.injEq, Nat.zero_add] at entry
  unfold entry?
  rw [slot?_flatten wide hd stored, List.getElem_map, Option.map_some, ListEntry.ofBytes_toBytes, entry]

/-- The entries point to one segment of the child after another. -/
theorem entryRows_consecutive {n : NativeVector} {lengths : List Nat}
    (hd : n.data = ((consecutive 0 lengths).map ListEntry.toBytes).flatten.toArray)
    (hc : n.childRows = lengths.sum) (fits : lengths.sum < sizeModulus) {row : Nat}
    (hrow : row < lengths.length) :
    n.entryRows row = .ok (List.range' (lengths.take row).sum lengths[row]) := by
  have last := sum_take_add_le lengths hrow
  unfold entryRows
  rw [entry?_consecutive hd hrow]
  simp only [ColumnView.loaded, Result.ok_bind, hc,
    Word.wrap_u64_toNat (n := (lengths.take row).sum) (by omega),
    Word.wrap_u64_toNat (n := lengths[row]) (by omega), last, if_true]

/-- Reading the child rows of a row gives its part of the child's answers. -/
theorem mapM_entryRows {α : Type} {n : NativeVector} {parts : List (List (Result α))}
    (hd : n.data = ((consecutive 0 (parts.map List.length)).map ListEntry.toBytes).flatten.toArray)
    (hc : n.childRows = parts.flatten.length) (fits : parts.flatten.length < sizeModulus)
    {f : Nat → Result α} (h : ∀ j (hj : j < parts.flatten.length), f j = parts.flatten[j])
    {row : Nat} (hrow : row < parts.length) :
    (n.entryRows row >>= List.mapM f) = parts[row].mapM id := by
  have inside : row < (parts.map List.length).length := by rwa [List.length_map]
  rw [List.length_flatten] at hc fits
  rw [entryRows_consecutive hd hc fits inside, List.getElem_map, Result.ok_bind,
    Result.mapM_segment h hrow]

section Parts

variable {type : LogicalType} (valid : type.check = .ok ()) (rows : List Value)
include valid

theorem ofListParts_present (hk : type.kind = .list ∨ type.kind = .map) {entries : List ListEntry}
    (count : entries.length = rows.length) {child : NativeVector} {childRows : Nat}
    (enough : childRows ≤ child.rows) :
    ∃ n, ofListParts type entries (present rows) child childRows = .ok n ∧ n.type = type ∧
      n.rows = rows.length ∧ n.data = (entries.map ListEntry.toBytes).flatten.toArray ∧
      n.bitmap = present rows ∧ n.children = [child] ∧ n.childRows = childRows := by
  refine ⟨⟨type, rows.length, (entries.map ListEntry.toBytes).flatten.toArray, present rows, #[],
    [child], childRows⟩, ?_, rfl, rfl, rfl, rfl, rfl, rfl⟩
  have kinds : ¬ (type.kind ≠ .list ∧ type.kind ≠ .map) := by
    rcases hk with hk | hk <;> simp [hk]
  unfold ofListParts
  rw [if_neg kinds, if_neg (Nat.not_lt.mpr enough), count, bare_present valid]
  rfl

theorem ofArrayParts_present (hk : type.kind = .array) (child : NativeVector) :
    ∃ n, ofArrayParts type rows.length (present rows) child = .ok n ∧ n.type = type ∧
      n.rows = rows.length ∧ n.bitmap = present rows ∧ n.children = [child] := by
  refine ⟨⟨type, rows.length, #[], present rows, #[], [child], 0⟩, ?_, rfl, rfl, rfl, rfl⟩
  unfold ofArrayParts
  rw [if_neg (not_not.mpr hk), bare_present valid]
  rfl

theorem ofStructParts_present {members : List NativeVector}
    (count : memberCount? type = some members.length) :
    ∃ n, ofStructParts type rows.length (present rows) members = .ok n ∧ n.type = type ∧
      n.rows = rows.length ∧ n.bitmap = present rows ∧ n.children = members := by
  refine ⟨⟨type, rows.length, #[], present rows, #[], members, 0⟩, ?_, rfl, rfl, rfl, rfl⟩
  unfold ofStructParts
  rw [count]
  simp only
  rw [if_neg (not_not.mpr rfl), bare_present valid]
  rfl

end Parts

section Elements

variable {child : LogicalType} {rows : List Value} {vector : NativeVector}

theorem list_answers {part : Value → List (Result Value)} {answer : Value → Result Value}
    (valid : child.check = .ok ()) (missing : answer .null = .ok .null)
    (hanswer : ∀ v ∈ rows, v.isNull = false → answer v = ((part v).mapM id).map .list)
    (h : vector.Answers child (rows.map part).flatten)
    (fits : (rows.map part).flatten.length < sizeModulus) :
    ∃ n, ofListParts (.list child) (consecutive 0 ((rows.map part).map List.length))
        (present rows) vector vector.rows = .ok n ∧ n.Answers (.list child) (rows.map answer) := by
  have count : ((rows.map part).map List.length).length = rows.length := by
    rw [List.length_map, List.length_map]
  have valid' : (LogicalType.list child).check = .ok () := valid
  obtain ⟨n, hn, ht, hr, hd, hb, hc, hcr⟩ := ofListParts_present valid' rows (.inl rfl)
    ((length_consecutive 0 _).trans count) (Nat.le_refl vector.rows)
  have total : n.childRows = (rows.map part).flatten.length := by
    rw [hcr, h.rows]
  refine ⟨n, hn, .of_present ⟨ht, vector, hc, h.typed⟩ hr ?_ hb missing ?_⟩
  · refine ⟨vector, hc, Nat.le_of_eq hcr, ?_⟩
    rw [hcr, h.rows]
    exact h.covers
  · intro row hrow present
    have inside : row < (rows.map part).length := by rwa [List.length_map]
    have items := mapM_entryRows hd total fits h.reads inside
    rw [List.getElem_map] at items
    rw [hanswer _ (List.getElem_mem hrow) present, readPresent, hc]
    simp only [← bind_assoc]
    change (n.entryRows row >>= List.mapM (vector.read child)) >>= _ = _
    rw [items]
    cases (part rows[row]).mapM id <;> rfl

theorem array_answers {size : Nat} {part : Value → List (Result Value)}
    {answer : Value → Result Value} (valid : child.check = .ok ())
    (missing : answer .null = .ok .null)
    (hanswer : ∀ v ∈ rows, v.isNull = false → answer v = ((part v).mapM id).map .list)
    (sizes : ∀ v ∈ rows, (part v).length = size)
    (h : vector.Answers child (rows.map part).flatten) (fits : rows.length * size < sizeModulus) :
    ∃ n, ofArrayParts (.array child size) rows.length (present rows) vector = .ok n ∧
      n.Answers (.array child size) (rows.map answer) := by
  have valid' : (LogicalType.array child size).check = .ok () := by rwa [check_array]
  obtain ⟨n, hn, ht, hr, hb, hc⟩ := ofArrayParts_present valid' rows rfl vector
  have uniform : ∀ items ∈ rows.map part, items.length = size := by
    intro items hi
    obtain ⟨v, hv, rfl⟩ := List.mem_map.mp hi
    exact sizes v hv
  have total : (rows.map part).flatten.length = rows.length * size := by
    rw [length_flatten_uniform uniform, List.length_map]
  refine ⟨n, hn, .of_present ⟨ht, vector, hc, h.typed⟩ hr ?_ hb missing ?_⟩
  · refine ⟨fits, vector, hc, ?_, ?_⟩
    · rw [h.rows, total]
    · rw [← total]
      exact h.covers
  · intro row hrow present
    have inside : row < (rows.map part).length := by rwa [List.length_map]
    have items := Result.mapM_segment h.reads inside
    rw [sum_take_uniform uniform (Nat.le_of_lt inside), uniform _ (List.getElem_mem inside),
      List.getElem_map] at items
    rw [hanswer _ (List.getElem_mem hrow) present]
    simp only [readPresent, hc]
    change ((List.range' (row * size) size).mapM (vector.read child) >>= fun items =>
      pure (Value.list items)) = _
    rw [items]
    cases (part rows[row]).mapM id <;> rfl

section Values

variable {part : Value → List Value} {value : Value → Value} (valid : child.check = .ok ())
  (missing : value .null = .null)
  (hvalue : ∀ v ∈ rows, v.isNull = false → value v = .list (part v))
include valid missing hvalue

theorem list_holds (h : vector.Holds child (rows.map part).flatten)
    (fits : (rows.map part).flatten.length < sizeModulus) :
    ∃ n, ofListParts (.list child) (consecutive 0 ((rows.map part).map List.length))
        (present rows) vector vector.rows = .ok n ∧ n.Holds (.list child) (rows.map value) := by
  rw [holds_iff_answers, map_flatten_map] at h
  rw [← List.length_map (Except.ok : Value → Result Value), map_flatten_map] at fits
  have missing : (Except.ok ∘ value : Value → Result Value) .null = .ok .null :=
    congrArg Except.ok missing
  obtain ⟨n, hn, answers⟩ := list_answers valid missing (fun v hv present => by
    rw [Result.mapM_id_ok, Function.comp_apply, hvalue v hv present]
    rfl) h fits
  refine ⟨n, ?_, ?_⟩
  · rw [lengths_map (Except.ok : Value → Result Value), hn]
  · rwa [holds_iff_answers, List.map_map]

theorem array_holds {size : Nat} (sizes : ∀ v ∈ rows, (part v).length = size)
    (h : vector.Holds child (rows.map part).flatten) (fits : rows.length * size < sizeModulus) :
    ∃ n, ofArrayParts (.array child size) rows.length (present rows) vector = .ok n ∧
      n.Holds (.array child size) (rows.map value) := by
  rw [holds_iff_answers, map_flatten_map] at h
  have missing : (Except.ok ∘ value : Value → Result Value) .null = .ok .null :=
    congrArg Except.ok missing
  simp only [holds_iff_answers, List.map_map]
  refine array_answers valid missing (fun v hv present => ?_) ?_ h fits
  · rw [Result.mapM_id_ok, Function.comp_apply, hvalue v hv present]
    rfl
  · intro v hv
    rw [List.length_map, sizes v hv]

end Values

end Elements

/-- The entries of a MAP are a STRUCT of keys and values that is never missing. -/
theorem ofStructParts_entry {key content : LogicalType} (valid : (map key content).check = .ok ())
    (rows : Nat) (keys contents : NativeVector) :
    ∃ n, ofStructParts (entry key content) rows none [keys, contents] = .ok n ∧
      n.type = entry key content ∧ n.rows = rows ∧ n.children = [keys, contents] := by
  refine ⟨⟨entry key content, rows, #[], none, #[], [keys, contents], 0⟩, ?_, rfl, rfl, rfl⟩
  unfold ofStructParts bare
  rw [check_entry valid]
  rfl

/-- The answers for an entry, those for the key first. -/
def entryAnswer (pair : Result Value × Result Value) : Result (Value × Value) := do
  return (← pair.1, ← pair.2)

theorem map_answers {key content : LogicalType} (valid : (map key content).check = .ok ())
    {rows : List Value} {part : Value → List (Result Value × Result Value)}
    {answer : Value → Result Value} (missing : answer .null = .ok .null)
    (hanswer : ∀ v ∈ rows, v.isNull = false → answer v = ((part v).mapM entryAnswer).map .map)
    {keys contents : NativeVector}
    (hk : keys.Answers key ((rows.map part).flatten.map Prod.fst))
    (hw : contents.Answers content ((rows.map part).flatten.map Prod.snd))
    (fits : (rows.map part).flatten.length < sizeModulus) :
    ∃ entries n, ofStructParts (entry key content) (rows.map part).flatten.length none
        [keys, contents] = .ok entries ∧
      ofListParts (.map key content) (consecutive 0 ((rows.map part).map List.length))
        (present rows) entries (rows.map part).flatten.length = .ok n ∧
      n.Answers (.map key content) (rows.map answer) := by
  have count : ((rows.map part).map List.length).length = rows.length := by
    rw [List.length_map, List.length_map]
  obtain ⟨entries, hentries, hte, hre, hce⟩ :=
    ofStructParts_entry valid (rows.map part).flatten.length keys contents
  obtain ⟨n, hn, ht, hr, hd, hb, hc, hcr⟩ := ofListParts_present valid rows (.inr rfl)
    ((length_consecutive 0 _).trans count) (Nat.le_of_eq hre.symm)
  have keyRows : (rows.map part).flatten.length = keys.rows := by rw [hk.rows, List.length_map]
  have contentRows : (rows.map part).flatten.length = contents.rows := by
    rw [hw.rows, List.length_map]
  refine ⟨entries, n, hentries, hn, .of_present
    ⟨ht, entries, keys, contents, hc, hte, hce, hk.typed, hw.typed⟩ hr ?_ hb missing ?_⟩
  · refine ⟨entries, keys, contents, hc, hce, ?_⟩
    rw [hcr, hre]
    refine ⟨Nat.le_refl _, ⟨Nat.le_of_eq keyRows, ?_⟩, Nat.le_of_eq contentRows, ?_⟩
    · rw [keyRows, hk.rows]
      exact hk.covers
    · rw [contentRows, hw.rows]
      exact hw.covers
  · intro row hrow present
    let read (j : Nat) : Result (Value × Value) := do
      let a ← keys.read key j
      let b ← contents.read content j
      return (a, b)
    have joined := map_flatten_map entryAnswer part rows
    have pair : ∀ j (hj : j < (rows.map fun v => (part v).map entryAnswer).flatten.length),
        read j = (rows.map fun v => (part v).map entryAnswer).flatten[j] := by
      simp only [← joined]
      intro j hj
      rw [List.length_map] at hj
      simp only [read]
      rw [hk.reads j (by rwa [List.length_map]), hw.reads j (by rwa [List.length_map]),
        List.getElem_map, List.getElem_map, List.getElem_map]
      rfl
    have total : (rows.map part).flatten.length =
        (rows.map fun v => (part v).map entryAnswer).flatten.length := by
      rw [← joined, List.length_map]
    rw [lengths_map entryAnswer] at hd
    rw [total] at hcr fits
    have inside : row < (rows.map fun v => (part v).map entryAnswer).length := by
      rwa [List.length_map]
    have items := mapM_entryRows hd hcr fits pair inside
    simp only [read, NativeVector.read] at items
    rw [List.getElem_map, List.mapM_map, Function.id_comp] at items
    rw [hanswer _ (List.getElem_mem hrow) present, readPresent, hc]
    simp only [List.map_cons, List.map_nil, hce, ← bind_assoc]
    rw [items]
    cases (part rows[row]).mapM entryAnswer <;> rfl

theorem map_holds {key content : LogicalType} (valid : (map key content).check = .ok ())
    {rows : List Value} {part : Value → List (Value × Value)} {value : Value → Value}
    (missing : value .null = .null)
    (hvalue : ∀ v ∈ rows, v.isNull = false → value v = .map (part v)) {keys contents : NativeVector}
    (hk : keys.Holds key ((rows.map part).flatten.map Prod.fst))
    (hw : contents.Holds content ((rows.map part).flatten.map Prod.snd))
    (fits : (rows.map part).flatten.length < sizeModulus) :
    ∃ entries n, ofStructParts (entry key content) (rows.map part).flatten.length none
        [keys, contents] = .ok entries ∧
      ofListParts (.map key content) (consecutive 0 ((rows.map part).map List.length))
        (present rows) entries (rows.map part).flatten.length = .ok n ∧
      n.Holds (.map key content) (rows.map value) := by
  let both (pair : Value × Value) : Result Value × Result Value := (.ok pair.1, .ok pair.2)
  have joined := map_flatten_map both part rows
  have count : (rows.map part).flatten.length =
      (rows.map fun v => (part v).map both).flatten.length := by
    rw [← joined, List.length_map]
  rw [holds_iff_answers, List.map_map] at hk hw
  rw [count] at fits ⊢
  have missing : (Except.ok ∘ value : Value → Result Value) .null = .ok .null :=
    congrArg Except.ok missing
  have keyAnswers : keys.Answers key ((rows.map fun v => (part v).map both).flatten.map Prod.fst) := by
    rw [← joined, List.map_map]
    exact hk
  have contentAnswers : contents.Answers content
      ((rows.map fun v => (part v).map both).flatten.map Prod.snd) := by
    rw [← joined, List.map_map]
    exact hw
  obtain ⟨entries, n, hentries, hn, answers⟩ := map_answers valid missing (fun v hv present => by
    have all : ((part v).map both).mapM entryAnswer = .ok (part v) := by
      rw [List.mapM_map]
      exact (Result.mapM_eq_map (g := id) fun _ _ => rfl).trans (by rw [List.map_id])
    rw [all, Function.comp_apply, hvalue v hv present]
    rfl) keyAnswers contentAnswers fits
  refine ⟨entries, n, hentries, ?_, ?_⟩
  · rw [lengths_map both, hn]
  · rwa [holds_iff_answers, List.map_map]

/-- One vector for each member, which together have the answers of each row, those for one member
after another. -/
structure AnswerAll (members : List (String × LogicalType)) (vectors : List NativeVector)
    (cells : List (List (Result Value))) : Prop where
  typed : HaveTypes members vectors
  covers : CoverAll members vectors cells.length
  reads (row : Nat) (h : row < cells.length) : readMembers members vectors row = cells[row]

theorem AnswerAll.nil {cells : List (List (Result Value))} (h : ∀ row ∈ cells, row = []) :
    AnswerAll [] [] cells := by
  refine ⟨trivial, trivial, ?_⟩
  intro row hrow
  rw [h _ (List.getElem_mem hrow)]
  rfl

theorem AnswerAll.cons {name : String} {type : LogicalType} {rest : List (String × LogicalType)}
    {vector : NativeVector} {vectors : List NativeVector} {cells : List (List (Result Value))}
    (h : ∀ row ∈ cells, row ≠ [])
    (first : vector.Answers type (cells.map fun row => row.headD (.ok .null)))
    (others : AnswerAll rest vectors (cells.map List.tail)) :
    AnswerAll ((name, type) :: rest) (vector :: vectors) cells := by
  refine ⟨⟨first.typed, others.typed⟩, ⟨⟨?_, ?_⟩, ?_⟩, ?_⟩
  · rw [first.rows, List.length_map]
  · simpa only [List.length_map] using first.covers
  · simpa only [List.length_map] using others.covers
  · intro row hrow
    have head := first.reads row (by rwa [List.length_map])
    have tail := others.reads row (by rwa [List.length_map])
    rw [List.getElem_map] at head tail
    unfold read at head
    rw [readMembers, head, tail]
    cases hc : cells[row] with
    | nil => exact absurd hc (h _ (List.getElem_mem hrow))
    | cons v values => rfl

/-- One vector for each member, which together read as `cells`, one list of values for each row. -/
def HoldAll (members : List (String × LogicalType)) (vectors : List NativeVector)
    (cells : List (List Value)) : Prop :=
  AnswerAll members vectors (cells.map (List.map .ok))

theorem HoldAll.nil {cells : List (List Value)} (h : ∀ row ∈ cells, row = []) :
    HoldAll [] [] cells := by
  apply AnswerAll.nil
  intro row hrow
  obtain ⟨cell, hc, rfl⟩ := List.mem_map.mp hrow
  rw [h cell hc, List.map_nil]

theorem HoldAll.cons {name : String} {type : LogicalType} {rest : List (String × LogicalType)}
    {vector : NativeVector} {vectors : List NativeVector} {cells : List (List Value)}
    (h : ∀ row ∈ cells, row ≠ [])
    (first : vector.Holds type (cells.map fun row => row.headD .null))
    (others : HoldAll rest vectors (cells.map List.tail)) :
    HoldAll ((name, type) :: rest) (vector :: vectors) cells := by
  rw [holds_iff_answers, List.map_map] at first
  unfold HoldAll at others ⊢
  rw [List.map_map] at others
  refine .cons ?_ ?_ ?_
  · intro row hrow
    obtain ⟨cell, hc, rfl⟩ := List.mem_map.mp hrow
    exact fun none => h cell hc (List.map_eq_nil_iff.mp none)
  · convert first using 1
    rw [List.map_map]
    apply List.map_congr_left
    intro cell hc
    cases cell <;> rfl
  · convert others using 1
    rw [List.map_map]
    apply List.map_congr_left
    intro cell hc
    exact List.map_tail.symm

theorem HaveTypes.length_eq {members : List (String × LogicalType)} {vectors : List NativeVector}
    (h : HaveTypes members vectors) : vectors.length = members.length := by
  induction members generalizing vectors with
  | nil =>
    cases vectors with
    | nil => rfl
    | cons v vectors => exact h.elim
  | cons m members ih =>
    cases vectors with
    | nil => exact h.elim
    | cons v vectors => exact congrArg Nat.succ (ih h.2)

section Members

variable {members : List (String × LogicalType)} {rows : List Value} {cells : Value → List Value}
  {value : Value → Value} {vectors : List NativeVector}

theorem struct_answers {answers : Value → List (Result Value)} {answer : Value → Result Value}
    (valid : (struct members).check = .ok ()) (missing : answer .null = .ok .null)
    (hanswer : ∀ v ∈ rows, v.isNull = false → answer v =
      ((answers v).mapM id).map fun values => .struct ((members.map Prod.fst).zip values))
    (h : AnswerAll members vectors (rows.map answers)) :
    ∃ n, ofStructParts (.struct members) rows.length (present rows) vectors = .ok n ∧
      n.Answers (.struct members) (rows.map answer) := by
  obtain ⟨n, hn, ht, hr, hb, hc⟩ := ofStructParts_present valid rows
    (congrArg some (h.typed.length_eq).symm)
  refine ⟨n, hn, .of_present ⟨ht, ?_⟩ hr ?_ hb missing ?_⟩
  · rw [hc]
    exact h.typed
  · have covers := h.covers
    rw [List.length_map] at covers
    show CoverAll members n.children rows.length
    rwa [hc]
  · intro row hrow present
    have found := h.reads row (by rwa [List.length_map])
    rw [List.getElem_map] at found
    rw [hanswer _ (List.getElem_mem hrow) present, readPresent, hc, found]
    cases (answers rows[row]).mapM id <;> rfl

theorem struct_holds (valid : (struct members).check = .ok ()) (missing : value .null = .null)
    (hvalue : ∀ v ∈ rows, v.isNull = false →
      value v = .struct ((members.map Prod.fst).zip (cells v)))
    (h : HoldAll members vectors (rows.map cells)) :
    ∃ n, ofStructParts (.struct members) rows.length (present rows) vectors = .ok n ∧
      n.Holds (.struct members) (rows.map value) := by
  rw [HoldAll, List.map_map] at h
  have missing : (Except.ok ∘ value : Value → Result Value) .null = .ok .null :=
    congrArg Except.ok missing
  simp only [holds_iff_answers, List.map_map]
  refine struct_answers valid missing (fun v hv present => ?_) h
  rw [Function.comp_apply, Function.comp_apply, Result.mapM_id_ok, hvalue v hv present]
  rfl

theorem tagAt_of_read {tags : NativeVector} {row : Nat} {tag : Word .u8}
    (h : tags.read (.scalar (.int .u8)) row = .ok (.int .u8 tag)) :
    tags.tagAt row = .ok tag.val.toNat := by
  unfold read whenPresent at h
  rw [readPresent_leaf rfl, (int_wordSlots .u8).reads] at h
  unfold tagAt whenPresent
  cases hb : ColumnView.loaded (tags.bit? row) with
  | error e =>
    rw [hb] at h
    contradiction
  | ok b =>
    rw [hb] at h
    cases b with
    | false =>
      -- A missing tag reads as null, which is no integer.
      cases (Except.ok.inj h : Value.null = .int .u8 tag)
    | true =>
      simp only [Result.ok_bind, if_true] at h ⊢
      change Except.map (Word.ofBytes .u8) (ColumnView.loaded (tags.slot? 1 row)) >>= _ = _ at h
      cases hs : ColumnView.loaded (tags.slot? 1 row) with
      | error e =>
        rw [hs] at h
        contradiction
      | ok bytes =>
        rw [hs] at h
        cases h
        rfl

theorem union_holds (valid : (union members).check = .ok ()) (missing : value .null = .null)
    {tag : Value → Value} (hvalue : ∀ v ∈ rows, v.isNull = false → ∃ k : Word .u8,
      tag v = .int .u8 k ∧ (cells v)[k.val.toNat]? = some (value v)) {tags : NativeVector}
    (htags : tags.Holds (.scalar (.int .u8)) (rows.map tag))
    (h : HoldAll members vectors (rows.map cells)) :
    ∃ n, ofStructParts (.union members) rows.length (present rows) (tags :: vectors) = .ok n ∧
      n.Holds (.union members) (rows.map value) := by
  have count : memberCount? (.union members) = some (tags :: vectors).length := by
    rw [List.length_cons, h.typed.length_eq]
    rfl
  obtain ⟨n, hn, ht, hr, hb, hc⟩ := ofStructParts_present valid rows count
  refine ⟨n, hn, .of_present ⟨ht, tags, vectors, hc, htags.typed, h.typed⟩ hr ?_ hb missing ?_⟩
  · have covers := h.covers
    rw [List.length_map, List.length_map] at covers
    refine ⟨tags, vectors, hc, ?_, covers⟩
    rw [htags.rows, List.length_map]
  · intro row hrow present
    obtain ⟨k, hk, hvalue⟩ := hvalue _ (List.getElem_mem hrow) present
    have read := htags.reads row (by rwa [List.length_map])
    have values := h.reads row (by rwa [List.length_map, List.length_map])
    rw [List.getElem_map] at read
    rw [List.getElem_map, List.getElem_map] at values
    rw [hk] at read
    rw [readPresent, hc]
    simp only [tagAt_of_read read, Result.ok_bind, values, List.getElem?_map, hvalue, Option.map_some]

end Members

end NativeVector
end TypedColumns
