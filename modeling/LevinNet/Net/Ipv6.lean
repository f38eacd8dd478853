import LevinNet.Net.Ipv4
import LevinNet.Text.Hex

/-
IPv6 addresses: eight groups of sixteen bits. In text the longest run of two or more zero groups, the
first of equal ones, is written as two colons; an address that stands for an IPv4 address ends in
dotted form.
-/
namespace LevinNet

structure Ipv6 where
  groups : Vector UInt16 8
  deriving DecidableEq

namespace Ipv6

/-- The address of a list of groups, if there are eight. -/
def ofList? (gs : List UInt16) : Option Ipv6 :=
  if h : gs.length = 8 then some ⟨⟨gs.toArray, by simpa using h⟩⟩ else none

/-- The groups that two octet pairs make. -/
def groupsOfIpv4 (ip : Ipv4) : List UInt16 :=
  let pair (x y : UInt8) : UInt16 := UInt16.ofNat (256 * x.toNat + y.toNat)
  [pair ip.a ip.b, pair ip.c ip.d]

/-- The IPv4 address in the last two groups. -/
def ipv4OfGroups (g h : UInt16) : Ipv4 :=
  let high (x : UInt16) : UInt8 := UInt8.ofNat (x.toNat / 256)
  let low (x : UInt16) : UInt8 := UInt8.ofNat x.toNat
  ⟨high g, low g, high h, low h⟩

/-- One hexadecimal group at the front of a text. -/
def readGroup (cs : List Char) : Option (UInt16 × List Char) :=
  (Digits.read ⟨16, some 4, true, 65536⟩ cs).map fun (n, rest) => (UInt16.ofNat n, rest)

/-- Groups at the front of a text, at most `limit`, with colons between them, the text behind them,
and whether they end in a dotted IPv4 address, which counts for two. -/
def readGroups (first : Bool) : (limit : Nat) → List Char → List UInt16 × Bool × List Char
  | 0, cs => ([], false, cs)
  | limit + 1, cs =>
    let body := if first then some cs else Digits.skip ':' cs
    let dotted := if limit = 0 then none else body.bind Ipv4.read
    match dotted with
    | some (ip, rest) => (groupsOfIpv4 ip, true, rest)
    | none =>
      match body.bind readGroup with
      | some (g, rest) =>
        let (gs, ended, rest) := readGroups false limit rest
        (g :: gs, ended, rest)
      | none => ([], false, cs)

/-- An address at the front of a text. Two colons stand for at least one zero group. -/
def read (cs : List Char) : Option (Ipv6 × List Char) := do
  let (front, dotted, cs) := readGroups true 8 cs
  if front.length = 8 then
    let ip ← ofList? front
    return (ip, cs)
  if dotted then failure
  let cs ← Digits.skip ':' cs
  let cs ← Digits.skip ':' cs
  let (back, _, cs) := readGroups true (7 - front.length) cs
  let zeros := List.replicate (8 - front.length - back.length) 0
  let ip ← ofList? (front ++ zeros ++ back)
  return (ip, cs)

/-- The length of the run of zeros at the front. -/
def zerosInFront (gs : List UInt16) : Nat := (gs.takeWhile (· == 0)).length

/-- Where the longest run of zeros begins, the first of equal ones, and its length. -/
def longestZeros (gs : List UInt16) : Nat × Nat :=
  (List.range gs.length).foldl
    (fun best i =>
      let n := zerosInFront (gs.drop i)
      if best.2 < n then (i, n) else best)
    (0, 0)

/-- Groups with colons between them. -/
def groupsText (gs : List UInt16) : String :=
  ":".intercalate (gs.map fun g => Hex.padded 1 g.toNat)

/-- The text of an address. -/
def text (ip : Ipv6) : String :=
  match ip.groups.toList with
  | [0, 0, 0, 0, 0, 0xffff, g, h] => s!"::ffff:{(ipv4OfGroups g h).text}"
  | gs =>
    let (start, length) := longestZeros gs
    if 1 < length then
      s!"{groupsText (gs.take start)}::{groupsText (gs.drop (start + length))}"
    else groupsText gs

end Ipv6

end LevinNet
