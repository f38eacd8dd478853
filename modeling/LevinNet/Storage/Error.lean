import LevinNet.Varint
import LevinNet.Text.Hex
import LevinNet.Storage.Kind

/-
What can go wrong when a storage tree is built, written or read, and the texts for it.
-/
namespace LevinNet

inductive StorageError where
  | badSignatureA (found : UInt32)
  | badSignatureB (found : UInt32)
  | badVersion (found : UInt8)
  /-- The input ends before the bytes that are needed. -/
  | truncated (needed available : Nat)
  | varint (cause : VarintError)
  /-- The tag stands for no value in its place. -/
  | unknownType (tag : UInt8)
  | depthExceeded
  /-- The announced number of elements cannot fit into the rest of the input. -/
  | countTooLarge (count remaining : Nat)
  | nameTooLong (length : Nat)
  | invalidName
  /-- An array of one kind was given a value of another. -/
  | mixedArray (expected found : Storage.Kind)
  deriving DecidableEq, Repr

namespace Storage

/-- The deepest nesting of objects and arrays that is read. -/
def maxDepth : Nat := 100

/-- The longest entry name, in bytes. -/
def maxNameLength : Nat := 255

end Storage

namespace StorageError

/-- The text of a storage error. -/
def message : StorageError → String
  | .badSignatureA found => s!"bad portable storage signature A: {Hex.literal 8 found.toNat}"
  | .badSignatureB found => s!"bad portable storage signature B: {Hex.literal 8 found.toNat}"
  | .badVersion found => s!"unsupported portable storage version {found.toNat}"
  | .truncated needed available =>
    s!"truncated input, needed {needed} bytes but {available} remain"
  | .varint cause => s!"varint error: {cause.message}"
  | .unknownType tag => s!"unknown type tag {Hex.literal 2 tag.toNat}"
  | .depthExceeded => s!"nesting deeper than {Storage.maxDepth} levels"
  | .countTooLarge count remaining => s!"count {count} exceeds the {remaining} remaining bytes"
  | .nameTooLong length => s!"entry name of {length} bytes exceeds {Storage.maxNameLength}"
  | .invalidName => "entry name is not valid UTF-8"
  | .mixedArray expected found => s!"array of {expected.name} contains a {found.name}"

/-- The texts of the errors underneath, outermost first. -/
def causes : StorageError → List String
  | .varint cause => [cause.message]
  | _ => []

/-- A varint error as a storage error: running out of bytes is the same in both. -/
def ofVarint : VarintError → StorageError
  | .truncated needed available => .truncated needed available
  | cause => .varint cause

end StorageError

end LevinNet
