import LevinNet.Net.Ipv6

/-
Addresses with a port: an IPv4 address, or an IPv6 address in brackets with an optional numeric
scope.
-/
namespace LevinNet

/-- An IPv4 address and a port. -/
structure Endpoint where
  ip : Ipv4
  port : UInt16
  deriving DecidableEq, Repr

inductive SocketAddress where
  | v4 (endpoint : Endpoint)
  | v6 (ip : Ipv6) (scope : UInt32) (port : UInt16)
  deriving DecidableEq

/-- A port behind a colon at the front of a text; zeros may stand in front of it. -/
def readPort (cs : List Char) : Option (UInt16 × List Char) := do
  let cs ← Digits.skip ':' cs
  let (n, rest) ← Digits.read ⟨10, none, true, 65536⟩ cs
  return (UInt16.ofNat n, rest)

namespace Endpoint

/-- The address, a colon and the port. -/
def text (e : Endpoint) : String := s!"{e.ip.text}:{e.port.toNat}"

/-- The endpoint at the front of a text. -/
def read (cs : List Char) : Option (Endpoint × List Char) := do
  let (ip, cs) ← Ipv4.read cs
  let (port, cs) ← readPort cs
  return (⟨ip, port⟩, cs)

/-- The endpoint that a text writes. -/
def parse? (s : String) : Option Endpoint :=
  match read s.toList with
  | some (e, []) => some e
  | _ => none

end Endpoint

namespace SocketAddress

/-- The text of an address; a scope of zero is not written. -/
def text : SocketAddress → String
  | .v4 e => e.text
  | .v6 ip scope port =>
    if scope = 0 then s!"[{ip.text}]:{port.toNat}"
    else s!"[{ip.text}%{scope.toNat}]:{port.toNat}"

/-- A numeric scope behind a percent sign, or none and zero. -/
def readScope (cs : List Char) : Option (UInt32 × List Char) :=
  match Digits.skip '%' cs with
  | none => some (0, cs)
  | some rest => (Digits.read ⟨10, none, true, 0x100000000⟩ rest).map fun (n, rest) =>
    (UInt32.ofNat n, rest)

/-- A bracketed IPv6 address with a port at the front of a text. -/
def readV6 (cs : List Char) : Option (SocketAddress × List Char) := do
  let cs ← Digits.skip '[' cs
  let (ip, cs) ← Ipv6.read cs
  let (scope, cs) ← readScope cs
  let cs ← Digits.skip ']' cs
  let (port, cs) ← readPort cs
  return (.v6 ip scope port, cs)

/-- The address that a text writes. -/
def parse? (s : String) : Option SocketAddress :=
  match Endpoint.parse? s with
  | some e => some (.v4 e)
  | none =>
    match readV6 s.toList with
    | some (a, []) => some a
    | _ => none

end SocketAddress

end LevinNet
