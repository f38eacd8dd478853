import LevinNet.Storage.Error
import LevinNet.Storage.Value

/-
The written form of storage trees. A section is the count of its entries and the entries, each a
length byte, the name, a tag and the value. An array is its count and its elements; elements that are
arrays themselves each carry a tag. Writing fails on the first name or count, in reading order, that
has no written form.
-/
namespace LevinNet.Storage

/-- The written form of a count or a length. -/
def encodeCount (n : Nat) : Except StorageError Bytes :=
  match Varint.encode n with
  | .ok bs => .ok bs
  | .error e => .error (.ofVarint e)

/-- The written form of an entry's name, with its length in front. -/
def encodeName (name : String) : Except StorageError Bytes :=
  let bs := Utf8.encode name
  if bs.length ≤ maxNameLength then .ok (UInt8.ofNat bs.length :: bs)
  else .error (.nameTooLong bs.length)

mutual

/-- The written form of a value, without its tag. -/
def Value.encode : Value → Except StorageError Bytes
  | .int64 n => .ok (Bytes.ofNat 8 n.toUInt64.toNat)
  | .int32 n => .ok (Bytes.ofNat 4 n.toUInt32.toNat)
  | .int16 n => .ok (Bytes.ofNat 2 n.toUInt16.toNat)
  | .int8 n => .ok (Bytes.ofNat 1 n.toUInt8.toNat)
  | .uint64 n => .ok (Bytes.ofNat 8 n.toNat)
  | .uint32 n => .ok (Bytes.ofNat 4 n.toNat)
  | .uint16 n => .ok (Bytes.ofNat 2 n.toNat)
  | .uint8 n => .ok (Bytes.ofNat 1 n.toNat)
  | .double x => .ok (Bytes.ofNat 8 x.bits.toNat)
  | .bool b => .ok [if b then 1 else 0]
  | .string bs => do
    let count ← encodeCount bs.length
    return count ++ bs
  | .object entries => do
    let count ← encodeCount entries.length
    let body ← encodeEntries entries
    return count ++ body
  | .array k items => do
    let count ← encodeCount items.length
    let body ← encodeItems (k == .array) items
    return count ++ body

/-- The written forms of some entries, one after another. -/
def encodeEntries : List (String × Value) → Except StorageError Bytes
  | [] => .ok []
  | (name, v) :: entries => do
    let label ← encodeName name
    let body ← v.encode
    let others ← encodeEntries entries
    return label ++ v.tag :: (body ++ others)

/-- The written forms of some elements, one after another, with their tags if `tagged`. -/
def encodeItems (tagged : Bool) : List Value → Except StorageError Bytes
  | [] => .ok []
  | v :: items => do
    let body ← v.encode
    let others ← encodeItems tagged items
    return (if tagged then [v.tag] else []) ++ body ++ others

end

/-- The written form of a section. -/
def Section.encode (s : Section) : Except StorageError Bytes := (Value.object s).encode

end LevinNet.Storage
