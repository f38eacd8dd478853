import LevinNet.Net.SocketAddress

/-
Peers: an endpoint and what is known about the node behind it. Two peers are the same peer if their
endpoints are, whatever else is known; the text of the endpoint is the key of every map of peers.
-/
namespace LevinNet

/-- What a node says about itself. -/
structure NodeInfo where
  rpcPort : Option UInt16 := none
  peerId : Option UInt64 := none
  deriving DecidableEq, Repr

/-- What a node says about its chain. -/
structure ChainInfo where
  height : Option UInt64 := none
  version : Option UInt8 := none
  deriving DecidableEq, Repr

structure Peer where
  ip : Ipv4
  port : UInt16
  id : Option UInt64 := none
  rpcPort : Option UInt16 := none
  height : Option UInt64 := none
  version : Option UInt8 := none
  deriving DecidableEq, Repr

namespace Peer

/-- A peer of which nothing else is known. -/
def ofEndpoint (e : Endpoint) : Peer := { ip := e.ip, port := e.port }

def endpoint (p : Peer) : Endpoint := ⟨p.ip, p.port⟩

/-- The text of the peer's endpoint. -/
def address (p : Peer) : String := p.endpoint.text

/-- Whether two records are about the same peer. -/
def same (p q : Peer) : Bool := p.endpoint == q.endpoint

/-- The peer with what its node said; what the node left out stays as it was. -/
def withInfo (p : Peer) (node : NodeInfo) (chain : ChainInfo) : Peer :=
  { p with
    id := node.peerId.or p.id
    rpcPort := node.rpcPort.or p.rpcPort
    height := chain.height.or p.height
    version := chain.version.or p.version }

/-- The endpoint and, once the height is known, what is known. -/
def text (p : Peer) : String :=
  match p.height with
  | none => p.address
  | some height =>
    let version := (p.version.map fun v => s!", version: {v.toNat}").getD ""
    let rpcPort := (p.rpcPort.map fun r => s!", rpc: {r.toNat}").getD ""
    s!"{p.address} (height: {height.toNat}{version}{rpcPort})"

/-- Add a peer to a collection of different peers, unless it is there already. -/
def insertNew (peers : List Peer) (p : Peer) : List Peer :=
  if peers.any p.same then peers else peers ++ [p]

end Peer

end LevinNet
