import TypedColumns.Document.Types
import TypedColumns.Document.Values
import TypedColumns.Native.Encode

/-!
Documents of the memory of vectors: slots in hexadecimal, payloads beside string slots, spans of
lists, and the same of every child.
-/
namespace TypedColumns

def ListEntry.document (e : ListEntry) : Document := .list [.ofWord e.offset, .ofWord e.length]

def ListEntry.ofDocument (d : Document) : Document.Parsed ListEntry := do
  let (offset, length) ← d.toPair (Document.toWord .u64) (Document.toWord .u64)
  return ⟨offset, length⟩

namespace Bitmap

def document (words : Bitmap) : Document :=
  .list (words.toList.map fun word => .text (Numeral.hex 16 word.toNat))

def ofDocument (d : Document) : Document.Parsed Bitmap := do
  let words ← d.toList (Document.toWord .u64)
  return (words.map fun word => BitVec.ofInt 64 word.val).toArray

end Bitmap

namespace NativeVector

/-- The first half of a string slot does not refer to other memory. -/
def slotDocument (v : NativeVector) (row : Nat) : Document :=
  let bytes (width : Nat) := v.slot? width row
  match v.type.storage with
  | .varchar | .blob | .bit | .varInt =>
    .list [.ofOption .ofBytes ((bytes 16).map (·.take 8)), .ofOption .ofBytes (v.payload? row)]
  | .list | .map => .ofOption ListEntry.document (v.entry? row)
  | storage => .ofOption .ofBytes (bytes (storage.slotWidth?.getD 0))

mutual

def document : NativeVector → Document
  | ⟨type, rows, data, bitmap, heap, children, childRows⟩ =>
    let v : NativeVector := ⟨type, rows, data, bitmap, heap, [], childRows⟩
    let slots := if type.storage.slotWidth?.getD 0 = 0 then [] else
      (List.range rows).map v.slotDocument
    let documents := childDocuments children
    let shown := match type.kind with
      | .list | .map => documents.map fun child =>
        .record [("child_len", .ofNat childRows), ("vector", child)]
      | _ => documents
    .record [("type", type.document), ("len", .ofNat rows), ("empty", .bool (rows == 0)),
      ("validity", .ofOption Bitmap.document bitmap), ("slots", .list slots),
      ("children", .list shown)]

def childDocuments : List NativeVector → List Document
  | [] => []
  | v :: rest => v.document :: childDocuments rest

end

end NativeVector
end TypedColumns
