import LevinNet.AddressMap
import LevinNet.Peer
import LevinNet.Storage.Value

/-
The directory of peers that a handshake reply carries. Its root holds the replying node's own data,
that of its chain, and a list of peer entries. An entry gives its address under `adr` and `addr`, in
one of three shapes: an object with a number, an object with four bytes, or four bytes with the port
beside them. Entries of no such shape are dropped and counted.
-/
namespace LevinNet

open Storage (Value Section)

structure Directory where
  /-- The peers by address. -/
  peers : AddressMap Peer := .empty
  node : NodeInfo := {}
  chain : ChainInfo := {}
  /-- How many entries were dropped. -/
  dropped : Nat := 0

namespace Directory

/-- The number of an unsigned value, if it is below `bound`. -/
def numberBelow (bound : Nat) (v : Value) : Option Nat :=
  v.unsigned?.filter (· < bound)

def port? (v : Value) : Option UInt16 := (numberBelow (0x10000) v).map UInt16.ofNat

def word? (v : Value) : Option UInt64 := (numberBelow (0x10000000000000000) v).map UInt64.ofNat

def octets? (v : Value) : Option Ipv4 := v.bytes?.bind Ipv4.ofOctets?

/-- The address that an `adr` section gives, in any of the three shapes. -/
def endpoint? (adr : Section) : Option Endpoint := do
  match ← adr.value? "addr" with
  | .object addr =>
    let ip ← match Section.value? addr "m_ip" with
      | some raw => (numberBelow (0x100000000) raw).map fun n => Ipv4.ofRaw (UInt32.ofNat n)
      | none => (Section.value? addr "addr").bind octets?
    let port ← (Section.value? addr "m_port").bind port?
    return ⟨ip, port⟩
  | .string bytes =>
    let ip ← Ipv4.ofOctets? bytes
    let port ← (adr.value? "m_port").bind port?
    return ⟨ip, port⟩
  | _ => none

/-- The peer that an entry describes. A port of zero is no address, and an RPC port of zero is
unknown. -/
def peerOfEntry (entry : Section) : Option Peer := do
  let adr ← entry.section? "adr"
  let e ← endpoint? adr
  if e.port = 0 then none
  return { Peer.ofEndpoint e with
    id := (entry.value? "id").bind word?
    rpcPort := ((entry.value? "rpc_port").bind port?).filter (· ≠ 0) }

/-- The peer of a list element; only objects are entries. -/
def peerOf (v : Value) : Option Peer := v.section?.bind peerOfEntry

/-- What the root says about the replying node. -/
def nodeInfo (root : Section) : NodeInfo :=
  match root.section? "node_data" with
  | none => {}
  | some data => {
    rpcPort := (data.value? "rpc_port").bind port?
    peerId := (data.value? "peer_id").bind word? }

/-- What the root says about the replying node's chain. -/
def chainInfo (root : Section) : ChainInfo :=
  match root.section? "payload_data" with
  | none => {}
  | some data => {
    height := (data.value? "current_height").bind word?
    version := ((data.value? "top_version").bind (numberBelow (0x100))).map UInt8.ofNat }

/-- The elements of the peer list. -/
def listed (root : Section) : List Value :=
  match (root.value? "local_peerlist_new").bind Value.array? with
  | some (_, items) => items
  | none => []

/-- Take one more list element into the directory; a later peer replaces an earlier one of its
address. -/
def add (d : Directory) (v : Value) : Directory :=
  match peerOf v with
  | some p => { d with peers := d.peers.insert p.address p }
  | none => { d with dropped := d.dropped + 1 }

/-- The directory that a root section carries. -/
def ofSection (root : Section) : Directory :=
  (listed root).foldl add { node := nodeInfo root, chain := chainInfo root }

/-- How many peers the directory has. -/
def size (d : Directory) : Nat := d.peers.size

end Directory

end LevinNet
