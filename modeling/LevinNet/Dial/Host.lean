import LevinNet.Dial.Attempt
import LevinNet.Duration
import LevinNet.Net.HostName
import LevinNet.Net.NumericHost

/-
The network as one machine sees it: what comes of an attempt to reach an address, and of one to have a
tunnel to an endpoint through a proxy, which addresses a name has, and how far its clock is. How a proxy is
asked for a tunnel is not told here; a tunnel is whatever comes of it.
-/
namespace LevinNet

structure Host where
  /-- What comes of an attempt to reach an address. -/
  reach : SocketAddress → Attempt String
  /-- What comes of an attempt to have a tunnel to an endpoint through a proxy. -/
  tunnel : SocketAddress → Endpoint → Attempt TunnelFailure
  /-- The text of the failure, if a connection to an endpoint cannot be set to send small frames without
  delay. -/
  noDelay : Endpoint → Option String
  /-- The addresses of a name and a port, or the text of the failure. -/
  lookup : String → UInt16 → Except String (List SocketAddress)
  /-- For how long the clock has been running. -/
  uptime : Duration

namespace Host

/-- The text of a look-up that failed. -/
def lookupText (reason : String) : String := s!"failed to lookup address information: {reason}"

/-- Why a name has no addresses. -/
def unknownNameText : String := lookupText "Name or service not known"

/-- Why a name's addresses cannot be had for now. -/
def noAnswerText : String := lookupText "Temporary failure in name resolution"

/-- The addresses of a name without a name service: numbers stand for themselves, and one name for the
machine itself. -/
def lookupLocally (name : String) (port : UInt16) : Except String (List SocketAddress) :=
  match Ipv4.ofHost? name, Ipv6.ofHost? name with
  | some ip, _ => .ok [.v4 ⟨ip, port⟩]
  | none, some (ip, zone) => .ok [.v6 ip zone port]
  | none, none =>
    if name.toLower = "localhost" then .ok [.v4 ⟨.localhost, port⟩]
    else if HostName.isName name then .error noAnswerText
    else .error unknownNameText

/-- A machine from which there is no way to any address, an hour after its start. -/
def offline : Host where
  reach _ := .fails 0 Attempt.noRouteText
  tunnel _ _ := .fails 0 ⟨.other, "Proxy server unreachable"⟩
  noDelay _ := none
  lookup := lookupLocally
  uptime := .ofSeconds 3600

/-- A text in two at its last colon. -/
def splitPort (s : String) : Option (String × String) :=
  let backwards := s.toList.reverse
  match backwards.dropWhile (· ≠ ':') with
  | [] => none
  | _ :: name =>
    some (String.ofList name.reverse, String.ofList (backwards.takeWhile (· ≠ ':')).reverse)

/-- The addresses of a text: an address with a port, or a name with one. No name holds a null
character. -/
def resolve (h : Host) (s : String) : Except String (List SocketAddress) :=
  match SocketAddress.parse? s with
  | some a => .ok [a]
  | none =>
    match splitPort s with
    | none => .error "invalid socket address"
    | some (name, port) =>
      match Digits.whole? 65536 port with
      | none => .error "invalid port value"
      | some n =>
        if name.toList.contains '\x00' then .error "file name contained an unexpected NUL byte"
        else h.lookup name (UInt16.ofNat n)

end Host

end LevinNet
