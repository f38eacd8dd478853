import LevinNet.Proofs.Frame.Reading
import LevinNet.Session.Basic

/-
One turn of a wait for a reply.

   1. An open session keeps some bytes of the frame under way (`Open`). What it receives in a wait is
      told from these bytes and those that arrive (`receiveBy_of_some`, `receiveBy_of_none`), and it
      stays open.
   2. A wait ends with the first reply, or goes on behind the answer to what is none
      (`awaitReply_of_reply`, `awaitReply_of_other`).
   3. `Answered` says what is to be written when some frames are heard. Where the sink takes all writes,
      each frame that is no reply adds just its part (`answer_eq`).
-/
namespace LevinNet

namespace Session

open LevinNet.Frame (next?)

/-! ## Open sessions -/

/-- A session that is open, and that keeps the bytes `got` of the frame under way. -/
structure Open (s : Session) (got : Bytes) : Prop where
  reader : ∃ r, s.reader = some r ∧ r.Holds s.config.ceiling got
  writing : s.writing = true

/-- What arrives by the instant `limit`, behind the bytes that are kept. -/
def arrival (s : Session) (got : Bytes) (limit : Nat) :
    Source.Pull Bytes (Except FrameError Message) :=
  Source.arrive _ s.source.ending limit s.source.events s.clock got

theorem open_start (config : Config) (peer : Peer) (localId localTime : UInt64) (source : Source)
    (sink : Sink) : (start config peer localId localTime source sink).Open [] where
  reader := ⟨_, rfl, FrameReader.holds_new _⟩
  writing := rfl

/-- Nothing that is kept or still to come gets lost. -/
theorem arrival_bytes_eq (s : Session) (got : Bytes) (limit : Nat) :
    got ++ s.source.bytes
      = (s.arrival got limit).state ++ Source.bytesOf (s.arrival got limit).events := by
  obtain ⟨came, hstate, hbytes⟩ := Source.arrive_bytes_eq (Except FrameError Message)
    s.source.ending limit s.source.events s.clock got
  rw [arrival, hstate, Source.bytes, hbytes, List.append_assoc]

variable {s s' : Session} {got : Bytes} {limit : Nat}

/-- A session that has received a whole frame, with this left to come at this time. -/
def received (s : Session) (source : Source) (clock : Nat) : Session :=
  { s with reader := some (.new s.config.ceiling), source, clock }

theorem open_received (hs : s.Open got) (source : Source) (clock : Nat) :
    (s.received source clock).Open [] where
  reader := ⟨_, rfl, FrameReader.holds_new _⟩
  writing := hs.writing

/-- A frame or a rejection that arrives is received, and the rest of the wait is still to come. -/
theorem receiveBy_of_some {rest : Bytes} {x : Except FrameError Message} (hs : s.Open got)
    (hnext : next? s.config.ceiling (s.arrival got limit).state = some (x, rest)) :
    ∃ source clock,
      s.receiveBy limit = (some (x.mapError .ofFrame), s.received source clock) ∧
      (s.received source clock).arrival [] limit = { s.arrival got limit with state := rest } ∧
      source.bytes = rest ++ Source.bytesOf (s.arrival got limit).events := by
  obtain ⟨r, hreader, hholds⟩ := hs.reader
  obtain ⟨houtcome, hfresh, hbytes⟩ := FrameReader.receive_of_some hholds rfl hnext
  have harrival := FrameReader.arrive_receive_of_some hholds rfl hnext
  refine ⟨(r.receive s.source s.clock limit).source, (r.receive s.source s.clock limit).clock, ?_,
    harrival, hbytes⟩
  simp only [receiveBy, hreader, houtcome, hfresh, Option.map_some, received]

/-- What a wait comes to without a frame: the error of the source, or none if the limit came first. -/
theorem receiveBy_of_none (hs : s.Open got)
    (hnext : next? s.config.ceiling (s.arrival got limit).state = none) :
    ∃ r clock,
      let s' := { s with
        reader := some r, source := ⟨(s.arrival got limit).events, s.source.ending⟩, clock }
      s.receiveBy limit = ((FrameReader.stopped (s.arrival got limit)).map (·.mapError .ofFrame), s') ∧
      s'.Open (s.arrival got limit).state := by
  obtain ⟨r, hreader, hholds⟩ := hs.reader
  obtain ⟨houtcome, hholds', hsource⟩ := FrameReader.receive_of_none hholds rfl hnext
  refine ⟨(r.receive s.source s.clock limit).reader, (r.receive s.source s.clock limit).clock, ?_,
    ⟨_, rfl, hholds'⟩, hs.writing⟩
  simp only [receiveBy, hreader, houtcome, hsource]
  rfl

/-! ## One turn of the wait -/

variable {isReply : Header → Bool} {s₁ s₂ : Session} {m : Message}

/-- Whether a frame is a response that `isReply` accepts. -/
def replies (isReply : Header → Bool) (m : Message) : Bool := m.header.isResponse && isReply m.header

theorem awaitReply_of_late (h : s.receiveBy limit = (none, s₁)) :
    s.awaitReply isReply limit = (.error .timeout, s₁) := by
  rw [awaitReply]
  split <;> simp_all

theorem awaitReply_of_error {e : SessionError} (h : s.receiveBy limit = (some (.error e), s₁)) :
    s.awaitReply isReply limit = (.error e, s₁) := by
  rw [awaitReply]
  split <;> simp_all

theorem awaitReply_of_reply (h : s.receiveBy limit = (some (.ok m), s₁))
    (hm : replies isReply m = true) :
    s.awaitReply isReply limit = (if m.header.returnCode < Message.returnOk
      then .error (.remote m.header.returnCode) else .ok m, s₁) := by
  rw [awaitReply]
  split
  · simp_all
  · simp_all
  · next m' s' h' =>
    rw [h] at h'
    cases h'
    rw [replies] at hm
    rw [if_pos hm]
    split <;> rfl

theorem awaitReply_of_other (h : s.receiveBy limit = (some (.ok m), s₁))
    (hm : replies isReply m = false) (hanswer : s₁.answer m = (.ok (), s₂)) :
    s.awaitReply isReply limit = s₂.awaitReply isReply limit := by
  rw [awaitReply]
  split
  · simp_all
  · simp_all
  · next m' s' h' =>
    rw [h] at h'
    cases h'
    rw [replies] at hm
    rw [hm, if_neg Bool.false_ne_true]
    split
    · simp_all
    · simp_all

/-! ## Answers -/

/-- Whether a frame is a request that is answered: one that expects a response, for the support flags
or a ping. -/
def Answerable (m : Message) : Prop :=
  m.header.isRequest = true ∧ m.header.expectsResponse = true ∧
    (m.command? = some .supportFlags ∨ m.command? = some .ping)

/-- `r` is the response that answers a request: it tells the support flags of the local side, or that
all is well and who answers. -/
inductive Answers (config : Config) (localId : UInt64) (m r : Message) : Prop where
  | supportFlags (h : m.command? = some .supportFlags)
    (hr : Message.storageResponse m.header.command 0
      [("support_flags", .uint32 config.supportFlags)] = .ok r)
  | ping (h : m.command? = some .ping)
    (hr : Message.storageResponse m.header.command 0
      [("status", .text "OK"), ("peer_id", .uint64 localId)] = .ok r)

/-- `out` is what is written when some frames are heard: for each that is answerable one response, in
order, and nothing for the others. -/
inductive Answered (config : Config) (localId : UInt64) : List Message → Bytes → Prop where
  | nil : Answered config localId [] []
  | passed {m : Message} {ms : List Message} {out : Bytes} (hm : ¬ Answerable m)
    (h : Answered config localId ms out) : Answered config localId (m :: ms) out
  | answered {m r : Message} {ms : List Message} {out : Bytes} (hm : Answerable m)
    (hr : Answers config localId m r) (h : Answered config localId ms out) :
    Answered config localId (m :: ms) (r.encode ++ out)

theorem exists_response (root : Storage.Section) (h : ∃ bs, Storage.encode root = .ok bs)
    (command : UInt32) (code : Int32) : ∃ r, Message.storageResponse command code root = .ok r := by
  obtain ⟨bs, hbs⟩ := h
  rw [Message.storageResponse, hbs]
  exact ⟨_, rfl⟩

/-- A session after more bytes were written. -/
def wrote (s : Session) (out : Bytes) : Session :=
  { s with sink := { s.sink with written := s.sink.written ++ out } }

theorem open_wrote (hs : s.Open got) (out : Bytes) : (s.wrote out).Open got :=
  ⟨hs.reader, hs.writing⟩

theorem send_eq (hs : s.Open got) (hroom : s.sink.room = none) (m : Message) :
    s.send m = (.ok (), s.wrote m.encode) := by
  have hwrite : s.sink.write m.encode
      = (.ok (), { s.sink with written := s.sink.written ++ m.encode }) := by
    unfold Sink.write
    split
    · rfl
    · next room h =>
      rw [hroom] at h
      cases h
  rw [send, if_pos hs.writing, hwrite]
  rfl

theorem answer_of_not_answerable (s : Session) (hm : ¬ Answerable m) : s.answer m = (.ok (), s) := by
  rw [answer]
  split
  · next hasks =>
    obtain ⟨hrequest, hexpects⟩ := Bool.and_eq_true_iff.1 hasks
    have hcommand : s.answerTo m = none := by
      rw [answerTo]
      split
      · next h => exact absurd ⟨hrequest, hexpects, .inl h⟩ hm
      · next h => exact absurd ⟨hrequest, hexpects, .inr h⟩ hm
      · rfl
    rw [hcommand]
  · rfl

theorem answer_of_answerable (s : Session) (hm : Answerable m) :
    ∃ r, Answers s.config s.localId m r ∧ s.answer m = s.send r := by
  obtain ⟨hrequest, hexpects, hcommand⟩ := hm
  have hasks : (m.header.isRequest && m.header.expectsResponse) = true := by
    rw [hrequest, hexpects]
    rfl
  rcases hcommand with hcommand | hcommand
  · obtain ⟨r, hr⟩ := exists_response (Payload.supportFlags s.config) ⟨_, rfl⟩
      m.header.command Message.returnOk
    refine ⟨r, .supportFlags hcommand hr, ?_⟩
    simp only [answer, hasks, if_true, answerTo, hcommand, hr]
  · obtain ⟨r, hr⟩ := exists_response (Payload.pong s.localId) ⟨_, rfl⟩
      m.header.command Message.returnOk
    refine ⟨r, .ping hcommand hr, ?_⟩
    simp only [answer, hasks, if_true, answerTo, hcommand, hr]

/-- Hearing a frame that is no reply writes its answer, if it is answerable, and changes nothing else. -/
theorem answer_eq (hs : s.Open got) (hroom : s.sink.room = none) (m : Message) :
    ∃ out, s.answer m = (.ok (), s.wrote out) ∧
      ∀ {ms rest}, Answered s.config s.localId ms rest →
        Answered s.config s.localId (m :: ms) (out ++ rest) := by
  by_cases hm : Answerable m
  · obtain ⟨r, hr, hanswer⟩ := answer_of_answerable s hm
    exact ⟨r.encode, by rw [hanswer, send_eq hs hroom], .answered hm hr⟩
  · refine ⟨[], ?_, .passed hm⟩
    rw [answer_of_not_answerable s hm, wrote, List.append_nil]

end Session

end LevinNet
