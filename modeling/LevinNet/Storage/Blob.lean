import LevinNet.Storage.Encoding
import LevinNet.Storage.Decoding

/-
Whole storage blobs: two signatures and a version in front of the root section. Reading stops after
the root; what follows it is not looked at.
-/
namespace LevinNet.Storage

def signatureA : UInt32 := 0x01011101

def signatureB : UInt32 := 0x01020101

def version : UInt8 := 1

/-- What stands in front of the root section. -/
def preamble : Bytes :=
  Bytes.ofNat 4 signatureA.toNat ++ Bytes.ofNat 4 signatureB.toNat ++ [version]

/-- The blob of a root section. -/
def encode (root : Section) : Except StorageError Bytes := do
  let body ← root.encode
  return preamble ++ body

/-- Read a blob from its first byte to the end of its root section. -/
def Read.blob : Read Section := do
  let a ← Read.number 4
  if a ≠ signatureA.toNat then throw (.badSignatureA (UInt32.ofNat a))
  let b ← Read.number 4
  if b ≠ signatureB.toNat then throw (.badSignatureB (UInt32.ofNat b))
  let v ← Read.byte
  if v ≠ version then throw (.badVersion v)
  Read.section

/-- The root section of a blob. -/
def decode (bs : Bytes) : Except StorageError Section :=
  match Read.blob (Cursor.ofBytes bs) with
  | .ok root _ => .ok root
  | .error e _ => .error e

end LevinNet.Storage
