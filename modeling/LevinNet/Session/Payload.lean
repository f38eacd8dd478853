import LevinNet.Frame.Message
import LevinNet.Session.Config

/-
The storage trees that the local side sends: what it says of itself in a handshake, and its answers
to the requests that peers make in between.
-/
namespace LevinNet.Payload

open Storage (Section Value)

/-- The local side's part of a handshake. -/
def nodeData (c : Config) (localTime localId : UInt64) : Section :=
  [("local_time", .uint64 localTime),
    ("my_port", .uint32 c.myPort),
    ("network_id", .string c.network.id),
    ("peer_id", .uint64 localId),
    ("support_flags", .uint32 c.supportFlags)]

/-- The local chain's part of a handshake. -/
def chainData (tip : ChainTip) : Section :=
  [("cumulative_difficulty", .uint64 tip.difficulty),
    ("cumulative_difficulty_top64", .uint64 0),
    ("current_height", .uint64 tip.height),
    ("pruning_seed", .uint32 tip.pruningSeed),
    ("top_id", .string tip.topId),
    ("top_version", .uint8 tip.version)]

/-- The root of a handshake request. -/
def handshake (c : Config) (localTime localId : UInt64) : Section :=
  [("node_data", .object (nodeData c localTime localId)),
    ("payload_data", .object (chainData c.chain))]

/-- The root of an answer to a question for the support flags. -/
def supportFlags (c : Config) : Section := [("support_flags", .uint32 c.supportFlags)]

/-- The root of an answer to a ping. -/
def pong (localId : UInt64) : Section :=
  [("status", .text "OK"), ("peer_id", .uint64 localId)]

end LevinNet.Payload
