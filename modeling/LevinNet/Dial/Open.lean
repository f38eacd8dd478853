import LevinNet.Dial.Host
import LevinNet.Session.Basic

/-
Opening a session with a peer, directly or through the configured proxy, within the time that a dial
may take.
-/
namespace LevinNet

/-- The session error of a tunnel that there is not: either the endpoint's failure or the proxy's. -/
def TunnelFailure.toSessionError (f : TunnelFailure) : SessionError :=
  match f.cause with
  | .hostUnreachable | .networkUnreachable | .connectionRefused | .ttlExpired => .dialFailed f.text
  | .other => .proxyFailed f.text

/-- What an attempt comes to for a session: how long it took, and its source or its error. -/
def Attempt.dialled {ε : Type} (limit : Duration) (refusal : ε → SessionError) (attempt : Attempt ε) :
    Nat × Except SessionError Source :=
  match attempt.within limit with
  | (nanos, none) => (nanos, .error .timeout)
  | (nanos, some (.error reason)) => (nanos, .error (refusal reason))
  | (nanos, some (.ok source)) => (nanos, .ok source)

namespace Session

/-- The stream to an endpoint, directly or through the configured proxy. -/
def reach (host : Host) (config : Config) (e : Endpoint) : Nat × Except SessionError Source :=
  match config.proxy with
  | none => (host.reach (.v4 e)).dialled config.dialTimeout .dialFailed
  | some proxy => (host.tunnel proxy e).dialled config.dialTimeout TunnelFailure.toSessionError

/-- The stream to an endpoint, set to send small frames without delay. -/
def dial (host : Host) (config : Config) (e : Endpoint) : Nat × Except SessionError Source :=
  let (nanos, stream) := reach host config e
  match stream, host.noDelay e with
  | .ok _, some text => (nanos, .error (.io text))
  | stream, _ => (nanos, stream)

/-- Open a session with a peer from a host; nothing is written to it yet. -/
def «open» (host : Host) (config : Config) (peer : Peer) (localId localTime : UInt64) :
    Dialogue (Except SessionError Session) :=
  let (nanos, stream) := dial host config peer.endpoint
  ⟨stream.map fun source =>
    { start config peer localId localTime source {} with clock := nanos }, [], nanos⟩

end Session

end LevinNet
