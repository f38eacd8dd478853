import LevinNet.Text.Hex

/-
The commands of the admin protocol, with their numbers and names.
-/
namespace LevinNet

inductive Command where
  | handshake
  | timedSync
  | ping
  | stat
  | networkState
  | peerId
  | supportFlags
  deriving DecidableEq, Repr

namespace Command

/-- The number of a command on the wire. -/
def id : Command → UInt32
  | .handshake => 0x1001
  | .timedSync => 0x1002
  | .ping => 0x1003
  | .stat => 0x1004
  | .networkState => 0x1005
  | .peerId => 0x1006
  | .supportFlags => 0x1007

/-- All commands, by number. -/
def all : List Command :=
  [.handshake, .timedSync, .ping, .stat, .networkState, .peerId, .supportFlags]

/-- The command of a number. -/
def ofId? (n : UInt32) : Option Command := all.find? fun c => c.id == n

/-- The name of a command. -/
def name : Command → String
  | .handshake => "handshake"
  | .timedSync => "timed_sync"
  | .ping => "ping"
  | .stat => "stat"
  | .networkState => "network_state"
  | .peerId => "peer_id"
  | .supportFlags => "support_flags"

/-- The name and the number of a command. -/
def text (c : Command) : String := s!"{c.name} ({Hex.literal 4 c.id.toNat})"

end Command

end LevinNet
