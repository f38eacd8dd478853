import LevinNet.Storage.Cursor
import LevinNet.Storage.Value

/-
Reading storage trees. The readers of sections and arrays take the number of levels that may still
be opened and call one another with one level less, so that input nested deeper than `maxDepth` is
refused. Everything in between is given the readers of the level below.
-/
namespace LevinNet.Storage

/-- An array of values of one kind; the first value of another kind is an error. -/
def Value.arrayOf (k : Kind) (items : List Value) : Except StorageError Value :=
  match items.find? fun v => v.kind != k with
  | some v => .error (.mixedArray k v.kind)
  | none => .ok (.array k items)

namespace Read

/-- A value of a kind, without its tag. An array cannot be read without its tag. -/
def value (readSection : Read Section) : Kind → Read Value
  | .int64 => do return .int64 (UInt64.ofNat (← number 8)).toInt64
  | .int32 => do return .int32 (UInt32.ofNat (← number 4)).toInt32
  | .int16 => do return .int16 (UInt16.ofNat (← number 2)).toInt16
  | .int8 => do return .int8 (UInt8.ofNat (← number 1)).toInt8
  | .uint64 => do return .uint64 (UInt64.ofNat (← number 8))
  | .uint32 => do return .uint32 (UInt32.ofNat (← number 4))
  | .uint16 => do return .uint16 (UInt16.ofNat (← number 2))
  | .uint8 => do return .uint8 (← byte)
  | .double => do return .double ⟨UInt64.ofNat (← number 8)⟩
  | .bool => do return .bool ((← byte) != 0)
  | .string => do
    let n ← count 1
    return .string (← bytes n)
  | .object => do return .object (← readSection)
  | .array => throw (.unknownType Kind.array.tag)

/-- The value behind a tag. The top bit marks an array of the kind in the other bits; the tag of
arrays stands for nothing without it. -/
def tagged (readSection : Read Section) (readArray : Kind → Read Value) (tag : UInt8) : Read Value :=
  match Kind.ofTag? (tag % 128) with
  | none => throw (.unknownType tag)
  | some k =>
    if 128 ≤ tag then readArray k
    else if k = .array then throw (.unknownType tag)
    else value readSection k

/-- A name and the value behind its tag. -/
def entry (readSection : Read Section) (readArray : Kind → Read Value) : Read (String × Value) := do
  let length ← byte
  let label ← bytes length.toNat
  match Utf8.decode? label with
  | none => throw .invalidName
  | some name =>
    let tag ← byte
    let v ← tagged readSection readArray tag
    return (name, v)

/-- An element of an array of a kind. One that is an array itself states its own tag. -/
def element (readSection : Read Section) (readArray : Kind → Read Value) : Kind → Read Value
  | .array => do
    let tag ← byte
    if tag < 128 then throw (.unknownType tag)
    else tagged readSection readArray tag
  | k => value readSection k

mutual

/-- A section, with at most `levels` levels of objects and arrays. -/
def sectionWithin : (levels : Nat) → Read Section
  | 0 => throw .depthExceeded
  | levels + 1 => do
    descend
    let n ← count 3
    let entries ← times n (entry (sectionWithin levels) (arrayWithin levels))
    ascend
    return entries

/-- An array of a kind, with at most `levels` levels of objects and arrays. -/
def arrayWithin : (levels : Nat) → Kind → Read Value
  | 0, _ => throw .depthExceeded
  | levels + 1, k => do
    descend
    let n ← count k.minSize
    let items ← times n (element (sectionWithin levels) (arrayWithin levels) k)
    ascend
    match Value.arrayOf k items with
    | .ok v => return v
    | .error e => throw e

end

/-- A section, with the levels that the cursor has left. -/
def «section» : Read Section := fun c => sectionWithin (maxDepth - c.depth) c

end Read

end LevinNet.Storage
