import LevinNet.Bytes
import LevinNet.Text.Hex

/-
The header in front of every frame: 33 bytes, all numbers little-endian. They are the signature
(eight bytes), the payload length (eight), whether a response is expected (one), and the command, the
return code, the flags and the protocol version (four each).
-/
namespace LevinNet

/-- The flag bits of a frame. -/
structure Flags where
  bits : UInt32
  deriving DecidableEq, Repr

namespace Flags

def none : Flags := ⟨0⟩

def request : Flags := ⟨1⟩

def response : Flags := ⟨2⟩

/-- The first part of a fragmented frame. -/
def start : Flags := ⟨4⟩

/-- The last part of a fragmented frame. -/
def finish : Flags := ⟨8⟩

/-- Whether all bits of `g` are set. -/
def contains (f g : Flags) : Bool := f.bits &&& g.bits == g.bits

/-- The bits that are set in either. -/
def union (f g : Flags) : Flags := ⟨f.bits ||| g.bits⟩

/-- The names of the known bits that are set; other bits have no name. -/
def text (f : Flags) : String :=
  let named := [(request, "request"), (response, "response"), (start, "start"), (finish, "end")]
  match (named.filter fun entry => f.contains entry.1).map (·.2) with
  | [] => "none"
  | names => "|".intercalate names

end Flags

inductive HeaderError where
  | badSignature (found : UInt64)
  deriving DecidableEq, Repr

/-- The text of a header error. -/
def HeaderError.message : HeaderError → String
  | .badSignature found => s!"bad levin signature {Hex.literal 16 found.toNat}"

structure Header where
  /-- The length of the payload behind the header. -/
  length : UInt64
  expectsResponse : Bool
  command : UInt32
  returnCode : Int32
  flags : Flags
  version : UInt32
  deriving DecidableEq, Repr

namespace Header

/-- The number in front of every header. -/
def signature : UInt64 := 0x0101010101012101

/-- The length of a header. -/
def size : Nat := 33

def isRequest (h : Header) : Bool := h.flags.contains .request

def isResponse (h : Header) : Bool := h.flags.contains .response

/-- The written form of a header. -/
def encode (h : Header) : Bytes :=
  Bytes.ofNat 8 signature.toNat ++ Bytes.ofNat 8 h.length.toNat ++
    [if h.expectsResponse then 1 else 0] ++
    Bytes.ofNat 4 h.command.toNat ++ Bytes.ofNat 4 h.returnCode.toUInt32.toNat ++
    Bytes.ofNat 4 h.flags.bits.toNat ++ Bytes.ofNat 4 h.version.toNat

/-- The number in the `width` bytes from `offset` on. -/
def field (bs : Bytes) (offset width : Nat) : Nat := Bytes.toNat ((bs.drop offset).take width)

/-- The header that 33 bytes write; any byte but zero expects a response. -/
def parse (bs : Bytes) : Except HeaderError Header :=
  let found := UInt64.ofNat (field bs 0 8)
  if found ≠ signature then .error (.badSignature found)
  else .ok {
    length := UInt64.ofNat (field bs 8 8)
    expectsResponse := field bs 16 1 != 0
    command := UInt32.ofNat (field bs 17 4)
    returnCode := (UInt32.ofNat (field bs 21 4)).toInt32
    flags := ⟨UInt32.ofNat (field bs 25 4)⟩
    version := UInt32.ofNat (field bs 29 4) }

@[simp] theorem length_encode (h : Header) : h.encode.length = size := by
  simp [encode, size]

end Header

end LevinNet
