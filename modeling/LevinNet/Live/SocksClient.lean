import LevinNet.Dial.Host
import LevinNet.Dial.ProxyCheck
import Std.Async.TCP

/-
A client of SOCKS5 proxies on real sockets: a greeting that offers no authentication, and a request for a
tunnel to an endpoint. Behind the reply the stream is that of the endpoint.
-/
namespace LevinNet.Live.SocksClient

open Std.Async (Async)
open Std.Async.TCP.Socket (Client)

/-- The request for a tunnel to an endpoint. -/
def request (e : Endpoint) : Bytes :=
  [5, 1, 0, 1] ++ e.ip.octets ++ Bytes.ofNatBig 2 e.port.toNat

/-- The failure that a reply code stands for. -/
def refusal (code : UInt8) : TunnelFailure :=
  match code.toNat with
  | 1 => ⟨.other, "General SOCKS server failure"⟩
  | 2 => ⟨.other, "Connection not allowed by ruleset"⟩
  | 3 => ⟨.networkUnreachable, "Network unreachable"⟩
  | 4 => ⟨.hostUnreachable, "Host unreachable"⟩
  | 5 => ⟨.connectionRefused, "Connection refused"⟩
  | 6 => ⟨.ttlExpired, "TTL expired"⟩
  | 7 => ⟨.other, "Command not supported"⟩
  | 8 => ⟨.other, "Address type not supported"⟩
  | _ => ⟨.other, "Unknown reply code"⟩

/-- Take as many more bytes as it takes to have `n` with those that were taken. -/
partial def complete (socket : Client) (n : Nat) (taken : Bytes) : Async Bytes := do
  if n ≤ taken.length then return taken
  match ← socket.recv? (n - taken.length).toUInt64 with
  | some bytes => complete socket n (taken ++ bytes.data.toList)
  | none => throw (IO.userError "early eof")

/-- Take exactly `n` bytes. -/
def exactly (socket : Client) (n : Nat) : Async Bytes := complete socket n []

/-- Ask a proxy for a tunnel to an endpoint. -/
def negotiate (socket : Client) (e : Endpoint) : Async (Except TunnelFailure Unit) := do
  socket.send ⟨ProxyCheck.greeting.toArray⟩
  if (← exactly socket 2) ≠ ProxyCheck.accepted then
    return .error ⟨.other, "No acceptable auth methods"⟩
  socket.send ⟨(request e).toArray⟩
  match ← exactly socket 4 with
  | [5, 0, 0, 1] => discard (exactly socket 6)
  | [5, 0, 0, 4] => discard (exactly socket 18)
  | [5, 0, 0, 3] => discard (exactly socket (Bytes.toNat (← exactly socket 1) + 2))
  | [5, 0, 0, _] => return .error ⟨.other, "Unknown address type"⟩
  | [5, code, 0, _] => return .error (refusal code)
  | _ => return .error ⟨.other, "Invalid response"⟩
  return .ok ()

end LevinNet.Live.SocksClient
