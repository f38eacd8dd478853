import LevinNet.Dial.Attempt
import LevinNet.Session.Error

/-
Checking a proxy before it is used: it has to take up the greeting in time. Any other outcome is the
proxy's failure.
-/
namespace LevinNet.ProxyCheck

/-- The greeting: version five, one method, no authentication. -/
def greeting : Bytes := [5, 1, 0]

/-- The reply that takes up the greeting. -/
def accepted : Bytes := [5, 0]

/-- Two bytes as a list of hexadecimal numbers. -/
def bytesText (bs : Bytes) : String :=
  "[" ++ ", ".intercalate (bs.map fun b => Hex.padded 2 b.toNat) ++ "]"

/-- Check a proxy within a time, given what comes of the attempt to reach it. -/
def run (proxy : SocketAddress) (limit : Duration) (attempt : Attempt String) :
    Dialogue (Except SessionError Unit) :=
  let unreachable text : Except SessionError Unit :=
    .error (.proxyFailed s!"proxy {proxy.text} unreachable: {text}")
  let silent : Except SessionError Unit :=
    .error (.proxyFailed s!"proxy {proxy.text} did not answer within {limit.text}")
  match attempt.within limit with
  | (nanos, none) => ⟨silent, [], nanos⟩
  | (nanos, some (.error reason)) => ⟨unreachable reason, [], nanos⟩
  | (nanos, some (.ok source)) =>
    let p := source.exactly 2 limit.nanos nanos
    let result := match p.outcome with
      | .got reply =>
        if reply = accepted then .ok ()
        else .error (.proxyFailed
          s!"proxy {proxy.text} refused the SOCKS5 greeting, replied {bytesText reply}")
      | .closed => unreachable "early eof"
      | .failed text => unreachable text
      | .late => silent
    ⟨result, greeting, p.clock⟩

end LevinNet.ProxyCheck
