import LevinNet.Storage.Error
import LevinNet.Bytes

/-
Reading from a cursor. A cursor holds what is left of the input, how much was taken, and how many
objects and arrays are open. A read that fails leaves the cursor where it failed, so that a
sequence of reads can go on after a failure.
-/
namespace LevinNet.Storage

structure Cursor where
  /-- What is left of the input. -/
  rest : Bytes
  /-- How many bytes were taken. -/
  position : Nat
  /-- How many objects and arrays are open. -/
  depth : Nat
  deriving DecidableEq, Repr

/-- A cursor at the start of an input. -/
def Cursor.ofBytes (bs : Bytes) : Cursor := ⟨bs, 0, 0⟩

/-- How many bytes are left. -/
def Cursor.remaining (c : Cursor) : Nat := c.rest.length

/-- A read takes bytes off a cursor and yields a value or fails. -/
abbrev Read := EStateM StorageError Cursor

namespace Read

/-- The next `n` bytes; nothing is taken if there are fewer. -/
def bytes (n : Nat) : Read Bytes := fun c =>
  if Bytes.holds n c.rest then
    .ok (c.rest.take n) { c with rest := c.rest.drop n, position := c.position + n }
  else
    .error (.truncated n c.remaining) c

/-- The next byte. -/
def byte : Read UInt8 := fun c =>
  match c.rest with
  | [] => .error (.truncated 1 0) c
  | b :: rest => .ok b { c with rest := rest, position := c.position + 1 }

/-- The little-endian number of the next `width` bytes. -/
def number (width : Nat) : Read Nat := do
  let bs ← bytes width
  return Bytes.toNat bs

/-- The next varint; nothing is taken if there is none. -/
def varint : Read Nat := fun c =>
  match Varint.decode c.rest with
  | .ok (width, n) =>
    .ok n { c with rest := c.rest.drop width, position := c.position + width }
  | .error e => .error (.ofVarint e) c

/-- A number of elements that take at least `minSize` bytes each. A count that cannot fit into the
rest of the input is refused before anything is read for it. -/
def count (minSize : Nat) : Read Nat := do
  let n ← varint
  fun c =>
    if Bytes.holds (n * minSize) c.rest then .ok n c
    else .error (.countTooLarge n c.remaining) c

/-- Open an object or an array. -/
def descend : Read Unit := fun c => .ok () { c with depth := c.depth + 1 }

/-- Close it again. -/
def ascend : Read Unit := fun c => .ok () { c with depth := c.depth - 1 }

/-- The same read `n` times over. -/
def times (n : Nat) (read : Read α) : Read (List α) :=
  match n with
  | 0 => pure []
  | n + 1 => do
    let a ← read
    let others ← times n read
    return a :: others

end Read

end LevinNet.Storage
