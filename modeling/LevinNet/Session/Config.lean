import LevinNet.Duration
import LevinNet.Net.SocketAddress
import LevinNet.Session.Network

/-
What a session tells about the local side, and how it dials.
-/
namespace LevinNet

/-- The tip of a chain. -/
structure ChainTip where
  height : UInt64
  difficulty : UInt64
  topId : Bytes
  version : UInt8
  pruningSeed : UInt32
  deriving DecidableEq, Repr

/-- The tip of a chain of one block. -/
def ChainTip.genesis (n : Network) : ChainTip where
  height := 1
  difficulty := 1
  topId := n.genesisId
  version := 1
  pruningSeed := 0

structure Config where
  network : Network
  /-- The port that is told to peers; zero takes no connections. -/
  myPort : UInt32
  supportFlags : UInt32
  chain : ChainTip
  proxy : Option SocketAddress
  /-- How long a dial may take. -/
  dialTimeout : Duration
  /-- The longest payload that is taken. -/
  ceiling : Nat
  deriving DecidableEq

namespace Config

def defaultDialTimeout : Duration := .ofSeconds 10

/-- The longest payload of a handshake. -/
def handshakeCeiling : Nat := 262144

/-- The configuration of a side that takes no connections. -/
def nonListening (n : Network) : Config where
  network := n
  myPort := 0
  supportFlags := 1
  chain := .genesis n
  proxy := none
  dialTimeout := defaultDialTimeout
  ceiling := handshakeCeiling

/-- One line about a configuration. -/
def text (c : Config) : String :=
  let proxy := match c.proxy with
    | some a => a.text
    | none => "none"
  s!"ConnectionConfiguration \x7b network: {c.network.name}, my_port: {c.myPort.toNat}, " ++
    s!"height: {c.chain.height.toNat}, proxy: {proxy}, timeout: {c.dialTimeout.text} \x7d"

end Config

end LevinNet
