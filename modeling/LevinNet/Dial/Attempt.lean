import LevinNet.Duration
import LevinNet.Net.SocketAddress
import LevinNet.Wire.Source

/-
Attempts to open a connection, and dialogues over one. An attempt fails, or it is accepted and a source
of bytes stands behind it, or nothing ever comes of it. A dialogue is what the local side makes of an
attempt.
-/
namespace LevinNet

/-- An attempt to open a connection that may fail for reasons in `ε`. -/
inductive Attempt (ε : Type) where
  /-- It fails for a reason after some nanoseconds. -/
  | fails (nanos : Nat) (reason : ε)
  /-- It is accepted after some nanoseconds. -/
  | accepted (nanos : Nat) (source : Source)
  | unanswered
  deriving DecidableEq, Repr

/-- What the local side makes of an attempt. -/
structure Dialogue (α : Type) where
  result : α
  /-- All that was written. -/
  written : Bytes
  /-- The instant at which the result stood. -/
  nanos : Nat

namespace Attempt

variable {ε : Type}

/-- What an attempt comes to within a time: how long it took, and its failure or its source; no
result if the time is over first. -/
def within (limit : Duration) : Attempt ε → Nat × Option (Except ε Source)
  | .fails nanos reason =>
    if nanos ≤ limit.nanos then (nanos, some (.error reason)) else (limit.nanos, none)
  | .accepted nanos source =>
    if nanos ≤ limit.nanos then (nanos, some (.ok source)) else (limit.nanos, none)
  | .unanswered => (limit.nanos, none)

/-- The text of a failure that the system reports by number. -/
def systemText (number : Nat) (name : String) : String := s!"{name} (os error {number})"

/-- The text of a connection that the other machine turns down. -/
def refusedText : String := systemText 111 "Connection refused"

/-- The text of a connection to which there is no way. -/
def noRouteText : String := systemText 101 "Network is unreachable"

end Attempt

/-- What a proxy's client makes of a tunnel that it does not get. The first four say that the proxy is
fine and the endpoint was not reached through it. -/
inductive TunnelFailure.Cause where
  | hostUnreachable
  | networkUnreachable
  | connectionRefused
  | ttlExpired
  | other
  deriving DecidableEq, Repr

/-- Why there is no tunnel to an endpoint through a proxy. -/
structure TunnelFailure where
  cause : TunnelFailure.Cause
  text : String
  deriving DecidableEq, Repr

end LevinNet
