import LevinNet.Frame.Error
import LevinNet.Storage.Error

/-
Why a session could not be opened or an operation on it failed, and the texts for it.
-/
namespace LevinNet

inductive SessionError where
  /-- The peer could not be reached. -/
  | dialFailed (text : String)
  /-- The proxy could not be used. -/
  | proxyFailed (reason : String)
  | timeout
  | io (text : String)
  | framing (cause : FrameError)
  | decode (cause : StorageError)
  | encode (cause : StorageError)
  /-- The peer answered with a negative return code. -/
  | remote (code : Int32)
  /-- The session was closed before. -/
  | closed
  /-- The memory for a payload cannot be allocated. As with frames, no error comes back from this. -/
  | capacityOverflow
  deriving DecidableEq, Repr

namespace SessionError

/-- A failure of the source or sink is the session's own; any other error is the frames' fault. -/
def ofFrame : FrameError → SessionError
  | .io text => .io text
  | .capacityOverflow => .capacityOverflow
  | cause => .framing cause

/-- Whether another attempt may succeed. -/
def isTransient : SessionError → Bool
  | .dialFailed _ | .timeout | .io _ | .proxyFailed _ => true
  | _ => false

/-- The text of a session error. -/
def message : SessionError → String
  | .dialFailed text => s!"Dial failed: {text}"
  | .proxyFailed reason => s!"SOCKS5 proxy failed: {reason}"
  | .timeout => "Timed out waiting for peer"
  | .io text => s!"Connection error: {text}"
  | .framing cause => s!"Framing error: {cause.message}"
  | .decode cause => s!"Payload decode error: {cause.message}"
  | .encode cause => s!"Payload encode error: {cause.message}"
  | .remote code => s!"Peer responded with return code {code.toInt}"
  | .closed => "Connection closed"
  | .capacityOverflow => "capacity overflow"

/-- The texts of the errors underneath, outermost first. -/
def causes : SessionError → List String
  | .dialFailed text | .io text => [text]
  | .framing cause => cause.message :: cause.causes
  | .decode cause | .encode cause => cause.message :: cause.causes
  | _ => []

end SessionError

end LevinNet
