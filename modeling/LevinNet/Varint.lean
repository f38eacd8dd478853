import LevinNet.Bytes

/-
Variable-width counts. The two low bits of the first byte give the width of the whole number (one,
two or four bytes; eight is announced by the format but not supported), and the number itself
stands in the bits above them, little-endian.
-/
namespace LevinNet

inductive VarintError where
  /-- The number does not fit into thirty bits. -/
  | tooLarge (n : Nat)
  /-- The first byte announces eight bytes. -/
  | unsupportedWidth
  /-- The string ends before the announced width. -/
  | truncated (needed available : Nat)
  deriving DecidableEq, Repr

namespace Varint

/-- The largest number that one byte holds. -/
def maxOneByte : Nat := 63

/-- The largest number that two bytes hold. -/
def maxTwoBytes : Nat := 16383

/-- The largest number that four bytes hold, and the largest of all. -/
def maxFourBytes : Nat := 1073741823

/-- The least width in bytes that holds a number. -/
def encodedLength (n : Nat) : Except VarintError Nat :=
  if n ≤ maxOneByte then .ok 1
  else if n ≤ maxTwoBytes then .ok 2
  else if n ≤ maxFourBytes then .ok 4
  else .error (.tooLarge n)

/-- The width tag in the two low bits of the first byte. -/
def widthTag : (width : Nat) → Nat
  | 1 => 0
  | 2 => 1
  | _ => 2

/-- A number in its least width. -/
def encode (n : Nat) : Except VarintError Bytes :=
  match encodedLength n with
  | .ok width => .ok (Bytes.ofNat width (4 * n + widthTag width))
  | .error e => .error e

/-- Append a number to a buffer; a number that is too large leaves the buffer as it is. -/
def write (n : Nat) (buffer : Bytes) : Except VarintError Unit × Bytes :=
  match encode n with
  | .ok bs => (.ok (), buffer ++ bs)
  | .error e => (.error e, buffer)

/-- The width that a first byte announces. -/
def announcedWidth (first : UInt8) : Option Nat :=
  match first.toNat % 4 with
  | 0 => some 1
  | 1 => some 2
  | 2 => some 4
  | _ => none

/-- The number at the front of a string, with the width it takes; any width is accepted. -/
def decode : Bytes → Except VarintError (Nat × Nat)
  | [] => .error (.truncated 1 0)
  | first :: bs =>
    match announcedWidth first with
    | none => .error .unsupportedWidth
    | some width =>
      if Bytes.holds width (first :: bs) then
        .ok (width, Bytes.toNat ((first :: bs).take width) / 4)
      else
        .error (.truncated width (first :: bs).length)

end Varint

/-- The text of a varint error. -/
def VarintError.message : VarintError → String
  | .tooLarge n => s!"varint value {n} exceeds maximum of {Varint.maxFourBytes}"
  | .unsupportedWidth => "8 byte varint width is not implemented"
  | .truncated needed available => s!"varint needs {needed} bytes, only {available} available"

end LevinNet
