import LevinNet.Net.Ipv6

/-
Numbers that stand for a host where a name could stand. An IPv4 address may have one to four parts,
each decimal, octal after a zero or hexadecimal after `0x`; the last part fills all octets that are
left. An IPv6 address has its usual text, and the zone in which it is meant may follow a percent sign.
-/
namespace LevinNet

namespace Ipv4

/-- A part of a numeric host at the front of a text. -/
def readPart (cs : List Char) : Option (Nat × List Char) :=
  let format base : Digits.Format := ⟨base, none, true, 0x100000000⟩
  match cs with
  | '0' :: x :: rest =>
    if (x = 'x' ∨ x = 'X') ∧ (Digits.value? 16 (rest.headD ' ')).isSome then
      Digits.read (format 16) rest
    else Digits.read (format 8) cs
  | _ => Digits.read (format 10) cs

/-- The parts of a numeric host, at most `limit`, with points between them. -/
def readParts : (limit : Nat) → List Char → Option (List Nat)
  | 0, _ => none
  | limit + 1, cs =>
    match readPart cs with
    | none => none
    | some (n, []) => some [n]
    | some (n, '.' :: rest) => (readParts limit rest).map (n :: ·)
    | some _ => none

/-- The number of an address whose leading parts fill one octet each. -/
def numberOfParts : (octets : Nat) → List Nat → Option Nat
  | _, [] => none
  | octets, [last] => if last < Bytes.bound octets then some last else none
  | octets, n :: parts =>
    if n < 256 then (numberOfParts (octets - 1) parts).map (n * Bytes.bound (octets - 1) + ·) else none

/-- The address of a numeric host. -/
def ofHost? (s : String) : Option Ipv4 := do
  let parts ← readParts 4 s.toList
  let n ← numberOfParts 4 parts
  ofOctets? (Bytes.ofNatBig 4 n)

end Ipv4

namespace Ipv6

/-- The address that a text writes. -/
def parse? (s : String) : Option Ipv6 :=
  match read s.toList with
  | some (ip, []) => some ip
  | _ => none

/-- Whether an address is meant on one interface only: a local one, or one for all hosts there. -/
def isLocal (ip : Ipv6) : Bool :=
  let first := ip.groups[0].toNat
  first / 64 == 0x3fa || first / 256 == 0xff && (first % 16 == 1 || first % 16 == 2)

/-- The number of the interface of a name, which the machine's interface to itself has; behind a colon
stands one of its aliases. -/
def interface? (name : List Char) : Option UInt32 :=
  if name.length ≤ 15 ∧ String.ofList (name.takeWhile (· ≠ ':')) = "lo" then some 1 else none

/-- The number of a zone: an interface by its name, for an address that is meant on one, or a number. -/
def zone? (ip : Ipv6) (zone : List Char) : Option UInt32 :=
  let named := if ip.isLocal then interface? zone else none
  named <|> match Digits.read ⟨10, none, true, 0x100000000⟩ zone with
    | some (n, []) => some (UInt32.ofNat n)
    | _ => none

/-- The address of a numeric host, and the number of its zone or zero. -/
def ofHost? (s : String) : Option (Ipv6 × UInt32) := do
  let ip ← parse? (String.ofList (s.toList.takeWhile (· ≠ '%')))
  match s.toList.dropWhile (· ≠ '%') with
  | [] => return (ip, 0)
  | _ :: zone => return (ip, ← zone? ip zone)

end Ipv6

end LevinNet
