import LevinNet.Directory
import LevinNet.Frame.Reader
import LevinNet.Session.Error
import LevinNet.Session.Payload
import LevinNet.Wire.Sink

/-
Sessions with a peer. One request is under way at a time; while its reply is awaited, the requests
that a node makes in between are answered and everything else is passed over. The wait for a reply
has one limit, whatever arrives in it. A closed session does nothing.
-/
namespace LevinNet

structure Session where
  config : Config
  /-- The peer, with what its handshakes told. -/
  peer : Peer
  /-- The id that the local side goes by. -/
  localId : UInt64
  /-- The time that a handshake tells. -/
  localTime : UInt64
  /-- The receiving half; none once closed. -/
  reader : Option FrameReader
  /-- Whether the sending half is held; false once closed. -/
  writing : Bool
  source : Source
  sink : Sink
  /-- The time, in nanoseconds. -/
  clock : Nat

namespace Session

/-- A new session over a source and a sink. -/
def start (config : Config) (peer : Peer) (localId localTime : UInt64) (source : Source)
    (sink : Sink) : Session where
  config
  peer
  localId
  localTime
  reader := some (.new config.ceiling)
  writing := true
  source
  sink
  clock := 0

def isClosed (s : Session) : Bool := s.reader.isNone

/-- One line about a session. -/
def text (s : Session) : String :=
  let state := if s.isClosed then "closed" else "open"
  s!"Levin connection to {s.peer.text} ({state})"

/-- Send one frame. -/
def send (s : Session) (m : Message) : Except SessionError Unit × Session :=
  if s.writing then
    let (result, sink) := s.sink.write m.encode
    (result.mapError .io, { s with sink })
  else (.error .closed, s)

/-- Receive one frame; no result if none came by the instant `limit`. -/
def receiveBy (s : Session) (limit : Nat) : Option (Except SessionError Message) × Session :=
  match s.reader with
  | none => (some (.error .closed), s)
  | some reader =>
    let r := reader.receive s.source s.clock limit
    (r.outcome.map (·.mapError .ofFrame),
      { s with reader := some r.reader, source := r.source, clock := r.clock })

/-- Receive one frame within a wait. -/
def receive (s : Session) (wait : Duration) : Option (Except SessionError Message) × Session :=
  s.receiveBy (s.clock + wait.nanos)

/-- What the local side answers to a request, if it answers it. -/
def answerTo (s : Session) (request : Message) : Option (Except StorageError Message) :=
  let respond root := Message.storageResponse request.header.command Message.returnOk root
  match request.command? with
  | some .supportFlags => some (respond (Payload.supportFlags s.config))
  | some .ping => some (respond (Payload.pong s.localId))
  | _ => none

/-- Answer a message, if it is a request that expects a response and is one that is answered. -/
def answer (s : Session) (m : Message) : Except SessionError Unit × Session :=
  if m.header.isRequest && m.header.expectsResponse then
    match s.answerTo m with
    | none => (.ok (), s)
    | some (.error e) => (.error (.encode e), s)
    | some (.ok response) => s.send response
  else (.ok (), s)

theorem source_answer (s : Session) (m : Message) : (s.answer m).2.source = s.source := by
  unfold answer send
  split
  · split
    · rfl
    · rfl
    · split <;> rfl
  · rfl

/-- Receiving a message takes at least one byte off the source. -/
theorem length_bytes_receiveBy {s : Session} {limit : Nat} {m : Message} {s' : Session}
    (h : s.receiveBy limit = (some (.ok m), s')) :
    s'.source.bytes.length < s.source.bytes.length := by
  unfold receiveBy at h
  split at h
  · simp at h
  · next reader _ =>
    simp only [Prod.mk.injEq] at h
    obtain ⟨ho, rfl⟩ := h
    rw [Option.map_eq_some_iff] at ho
    obtain ⟨r, hr, hm⟩ := ho
    cases r with
    | error e => cases hm
    | ok m' => exact FrameReader.length_bytes_receive hr

/-- Receive frames up to a response that `isReply` accepts, answering what comes before it. -/
def awaitReply (isReply : Header → Bool) (limit : Nat) (s : Session) :
    Except SessionError Message × Session :=
  match h : s.receiveBy limit with
  | (none, s) => (.error .timeout, s)
  | (some (.error e), s) => (.error e, s)
  | (some (.ok m), s') =>
    if m.header.isResponse && isReply m.header then
      if m.header.returnCode < Message.returnOk then (.error (.remote m.header.returnCode), s')
      else (.ok m, s')
    else
      match h' : s'.answer m with
      | (.error e, s) => (.error e, s)
      | (.ok (), s'') =>
        have : s''.source.bytes.length < s.source.bytes.length := by
          have hs : (s'.answer m).2.source = s'.source := source_answer s' m
          rw [h'] at hs
          change s''.source = s'.source at hs
          rw [hs]
          exact length_bytes_receiveBy h
        awaitReply isReply limit s''
termination_by s.source.bytes.length

/-- Send a request and wait for the first response that `isReply` accepts. -/
def exchange (isReply : Header → Bool) (request : Message) (wait : Duration) (s : Session) :
    Except SessionError Message × Session :=
  match s.send request with
  | (.error e, s) => (.error e, s)
  | (.ok (), s) => s.awaitReply isReply (s.clock + wait.nanos)

/-- Whether a header is that of a handshake. -/
def isHandshake (h : Header) : Bool := h.command == Command.handshake.id

/-- Exchange handshakes: send what the local side says of itself, and take the reply's directory.
What the reply tells of the peer is kept. -/
def handshake (s : Session) (wait : Duration) : Except SessionError Directory × Session :=
  let root := Payload.handshake s.config s.localTime s.localId
  match Message.storageRequest .handshake true root with
  | .error e => (.error (.encode e), s)
  | .ok request =>
    match s.exchange isHandshake request wait with
    | (.error e, s) => (.error e, s)
    | (.ok reply, s) =>
      match reply.storage with
      | .error e => (.error (.decode e), s)
      | .ok root =>
        let d := Directory.ofSection root
        (.ok d, { s with peer := s.peer.withInfo d.node d.chain })

/-- Send a bare ping and wait for any response. -/
def ping (s : Session) (wait : Duration) : Except SessionError Unit × Session :=
  match s.exchange (fun _ => true) (.request .ping true) wait with
  | (.error e, s) => (.error e, s)
  | (.ok _, s) => (.ok (), s)

/-- Give up both halves. The sink is shut down the first time; whether that fails does not matter. -/
def close (s : Session) : Session :=
  let sink := if s.writing then s.sink.shutdown.2 else s.sink
  { s with reader := none, writing := false, sink }

end Session

end LevinNet
