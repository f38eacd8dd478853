import LevinNet.Bytes
import LevinNet.Text.Digits

/-
IPv4 addresses and their dotted text.
-/
namespace LevinNet

structure Ipv4 where
  a : UInt8
  b : UInt8
  c : UInt8
  d : UInt8
  deriving DecidableEq, Repr

namespace Ipv4

def localhost : Ipv4 := ⟨127, 0, 0, 1⟩

/-- Four decimal numbers with points between them. -/
def text (ip : Ipv4) : String :=
  s!"{ip.a.toNat}.{ip.b.toNat}.{ip.c.toNat}.{ip.d.toNat}"

def octets (ip : Ipv4) : Bytes := [ip.a, ip.b, ip.c, ip.d]

/-- The address of exactly four bytes. -/
def ofOctets? : Bytes → Option Ipv4
  | [a, b, c, d] => some ⟨a, b, c, d⟩
  | _ => none

/-- The address that a 32-bit number holds, its first octet in the lowest byte. -/
def ofRaw (n : UInt32) : Ipv4 :=
  let octet weight := UInt8.ofNat (n.toNat / weight)
  ⟨octet 1, octet 0x100, octet 0x10000, octet 0x1000000⟩

/-- An octet at the front of a text: up to three digits, no needless zero in front. -/
def readOctet (cs : List Char) : Option (UInt8 × List Char) :=
  (Digits.read ⟨10, some 3, false, 256⟩ cs).map fun (n, rest) => (UInt8.ofNat n, rest)

/-- An address at the front of a text. -/
def read (cs : List Char) : Option (Ipv4 × List Char) := do
  let (a, cs) ← readOctet cs
  let (b, cs) ← readOctet (← Digits.skip '.' cs)
  let (c, cs) ← readOctet (← Digits.skip '.' cs)
  let (d, cs) ← readOctet (← Digits.skip '.' cs)
  return (⟨a, b, c, d⟩, cs)

/-- The address that a text writes. -/
def parse? (s : String) : Option Ipv4 :=
  match read s.toList with
  | some (ip, []) => some ip
  | _ => none

/-- The order of addresses, octet by octet. -/
def toNat (ip : Ipv4) : Nat := Bytes.toNat ip.octets.reverse

end Ipv4

end LevinNet
