import LevinNet.Dial.Host
import Std.Async.DNS
import Std.Async.TCP
import Std.Async.Timer

/-
Attempts on real sockets. An attempt is recorded while it is made: the bytes that come are events at
the instants at which they came. What is to be written, and until when to wait for more, is told by the
dialogue that the record so far leads to, so nothing is decided here.
-/
namespace LevinNet.Live

open Std.Async (Async Selectable Selector)
open Std.Async.TCP.Socket (Client)

/-- The time since an instant, in nanoseconds. -/
def since (started : Nat) : BaseIO Nat := do
  return (← IO.monoNanosNow) - started

/-- An address in the form that sockets take. -/
def netAddress : SocketAddress → Std.Net.SocketAddress
  | .v4 e => .v4 ⟨⟨#v[e.ip.a, e.ip.b, e.ip.c, e.ip.d]⟩, e.port⟩
  | .v6 ip _ port => .v6 ⟨⟨ip.groups⟩, port⟩

/-- An address in the form that name look-ups give, with a port. -/
def ofNetAddress (port : UInt16) : Std.Net.IPAddr → SocketAddress
  | .v4 ip =>
    let o := ip.octets
    .v4 ⟨⟨o[0], o[1], o[2], o[3]⟩, port⟩
  | .v6 ip => .v6 ⟨ip.segments⟩ 0 port

/-- The number of a failure, if the system reported it by one. -/
def numberOf? : IO.Error → Option Nat
  | .noSuchThing _ n _ | .permissionDenied _ n _ | .resourceExhausted _ n _ | .otherError n _
  | .resourceVanished n _ | .timeExpired n _ | .protocolError n _ => some (0 - n).toNat
  | _ => none

/-- The text of a failure of a socket. -/
def failureText (e : IO.Error) : String :=
  match numberOf? e with
  | some 32 => Attempt.systemText 32 "Broken pipe"
  | some 101 => Attempt.noRouteText
  | some 104 => Attempt.systemText 104 "Connection reset by peer"
  | some 110 => Attempt.systemText 110 "Connection timed out"
  | some 111 => Attempt.refusedText
  | some 113 => Attempt.systemText 113 "No route to host"
  | _ => toString e

/-- The text of a look-up that failed. -/
def lookupText (e : IO.Error) : String :=
  match numberOf? e with
  | some 3001 => Host.noAnswerText
  | some 3008 => Host.unknownNameText
  | _ => Host.lookupText (toString e)

/-- A span in whole milliseconds, rounded up. -/
def millis (nanos : Nat) : Std.Time.Millisecond.Offset := .ofNat ((nanos + 999999) / 1000000)

/-- An action's result within a time. -/
def within (nanos : Nat) (action : Async α) : Async (Option (Except IO.Error α)) :=
  let finished : Async (Option (Except IO.Error α)) := do
    try
      return some (.ok (← action))
    catch e =>
      return some (.error e)
  Async.race finished do
    Std.Async.sleep (millis nanos)
    return none

/-- The next bytes of a socket within a time; no bytes are its end. -/
def receive (socket : Client) (nanos : Nat) : Async (Option (Except IO.Error (Option ByteArray))) := do
  let timer ← Selector.sleep (millis nanos)
  try
    Selectable.one #[
      .case (socket.recvSelector 65536) fun bytes => return some (.ok bytes),
      .case timer fun _ => return none]
  catch e =>
    return some (.error e)

/-- Go on with an attempt that was accepted `opened` nanoseconds after it was begun, having written
`sent` bytes. -/
partial def goOn {ε : Type} (run : Attempt ε → Dialogue α) (socket : Client) (started opened : Nat)
    (events : List Source.Event) (sent : Nat) : Async (Attempt ε) := do
  let attempt := .accepted opened ⟨events, .silent⟩
  let dialogue := run attempt
  let due := dialogue.written.drop sent
  unless due.isEmpty do
    socket.send ⟨due.toArray⟩
  let now ← since started
  if dialogue.nanos ≤ now then return attempt
  let received ← receive socket (dialogue.nanos - now)
  let instant ← since started
  match received with
  | none => goOn run socket started opened events dialogue.written.length
  | some (.ok none) => return .accepted opened ⟨events ++ [.silenceUntil instant], .closed⟩
  | some (.error e) =>
    return .accepted opened ⟨events ++ [.silenceUntil instant, .failure (failureText e)], .silent⟩
  | some (.ok (some bytes)) =>
    let events := events ++ [.silenceUntil instant, .bytes bytes.data.toList]
    goOn run socket started opened events dialogue.written.length

/-- Record an attempt that was accepted `opened` nanoseconds after it was begun. -/
def accept {ε : Type} (run : Attempt ε → Dialogue α) (socket : Client) (started opened : Nat) :
    Async (Attempt ε) := do
  try
    goOn run socket started opened [] 0
  catch e =>
    return .accepted opened ⟨[.failure (failureText e)], .silent⟩

/-- Make an attempt to reach an address, and to do what `prepare` does on the socket, within a time. Record
it to the end of the dialogue that it leads to, and return it with what was prepared. -/
def record {ε β : Type} (address : SocketAddress) (limit : Duration) (failed : IO.Error → ε)
    (prepare : Client → Async (Except ε β)) (run : Option β → Attempt ε → Dialogue α) :
    Async (Option β × Attempt ε) := do
  let started ← IO.monoNanosNow
  let socket ← Client.mk
  let connected ← within limit.nanos do
    socket.connect (netAddress address)
    prepare socket
  match connected with
  | none => return (none, .unanswered)
  | some (.error e) => return (none, .fails (← since started) (failed e))
  | some (.ok (.error failure)) => return (none, .fails (← since started) failure)
  | some (.ok (.ok b)) => return (b, ← accept (run b) socket started (← since started))

/-- Have small frames sent without delay; the text of the failure if that cannot be had. -/
def setNoDelay (socket : Client) : IO (Option String) := do
  try
    socket.noDelay
    return none
  catch e =>
    return some (failureText e)

/-- The addresses of a name, whatever the port. -/
def addressesOf (name : String) : Async (Except String (Array Std.Net.IPAddr)) := do
  try
    return .ok (← Std.Async.DNS.getAddrInfo name "")
  catch e =>
    return .error (lookupText e)

end LevinNet.Live
