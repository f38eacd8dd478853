import LevinNet.Proofs.Session.Answering

/-
What a handshake and a ping do with the frames that arrive.

   1. `frames` are the frames that arrive in a wait before the first framing error, and `Leaves` says
      that a session took just some of them off its source, answered just some of them and changed
      nothing else.
   2. `Exchanged` is all that an exchange comes to, with a reply among these frames and without. A wait
      for a reply is an exchange with nothing to send, by induction on the frames
      (`awaitReply_exchanged`).
   3. So are a handshake and a ping, with their requests and their own reading of the reply
      (`handshake_ping_exchanged`).
-/
namespace LevinNet

namespace Frame

/-- The messages before the first error. -/
def beforeError : List (Except FrameError Message) → List Message
  | .ok m :: outcomes => m :: beforeError outcomes
  | _ => []

/-- The first error. -/
def firstError : List (Except FrameError Message) → Option FrameError
  | .ok _ :: outcomes => firstError outcomes
  | .error e :: _ => some e
  | [] => none

end Frame

namespace Session

open LevinNet.Frame (next? parse beforeError firstError)

variable {s s' s₁ s₂ : Session} {got : Bytes} {limit : Nat} {isReply : Header → Bool} {m : Message}

/-! ## The whole wait -/

/-- The frames that a reader yields before its first error, of what arrives by the instant `limit`. -/
def frames (s : Session) (got : Bytes) (limit : Nat) : List Message :=
  beforeError (parse s.config.ceiling (s.arrival got limit).state).1

/-- The framing error behind these frames, if there is one. -/
def frameError? (s : Session) (got : Bytes) (limit : Nat) : Option FrameError :=
  firstError (parse s.config.ceiling (s.arrival got limit).state).1

/-- What is less than a frame behind the frames that arrive. -/
def leftover (s : Session) (got : Bytes) (limit : Nat) : Bytes :=
  (parse s.config.ceiling (s.arrival got limit).state).2

/-- How a wait ends in which no framing error and no reply arrives. -/
def endError (s : Session) (got : Bytes) (limit : Nat) : SessionError :=
  match (s.arrival got limit).outcome with
  | .closed => .io (if (s.leftover got limit).length < Header.size
      then "connection closed while reading header" else "connection closed while reading payload")
  | .failed text => .io text
  | _ => .timeout

/-- What stays of a session that took `taken` off its source and heard the frames `heard`, after it
wrote `sent`: of the bytes that it kept and that were to come, just those of `taken` are gone, and it
wrote just the answers to what it heard. -/
structure Leaves (s : Session) (got sent : Bytes) (taken : List (Except FrameError Message))
    (heard : List Message) (s' : Session) (held : Bytes) : Prop where
  consumed : ∃ own, got ++ s.source.bytes = own ++ (held ++ s'.source.bytes) ∧
    parse s.config.ceiling own = (taken, [])
  written : ∃ out, Answered s.config s.localId heard out ∧
    s'.sink = { s.sink with written := s.sink.written ++ (sent ++ out) }
  isOpen : s'.Open held
  same : s'.config = s.config ∧ s'.localId = s.localId

/-- What an exchange comes to that wrote the request `sent` and takes a first reply by `read`. -/
structure Exchanged {α : Type} (s : Session) (got : Bytes) (limit : Nat) (isReply : Header → Bool)
    (sent : Bytes) (read : Message → Except SessionError α) (result : Except SessionError α)
    (s' : Session) : Prop where
  /-- The first reply ends the exchange, and the frames before it are answered. -/
  replied : ∀ before m after, s.frames got limit = before ++ m :: after →
    (∀ f ∈ before, replies isReply f = false) → replies isReply m = true →
    s.Leaves got sent ((before ++ [m]).map .ok) before s' [] ∧
      result = if m.header.returnCode < 0 then .error (.remote m.header.returnCode) else read m
  /-- Without a reply a framing error ends it, and all frames before the error are answered. -/
  rejected : (∀ f ∈ s.frames got limit, replies isReply f = false) →
    ∀ e, s.frameError? got limit = some e →
    s.Leaves got sent ((s.frames got limit).map .ok ++ [.error e]) (s.frames got limit) s' [] ∧
      result = .error (.ofFrame e)
  /-- Without either, all frames are answered, and what came of the next one is kept. -/
  stopped : (∀ f ∈ s.frames got limit, replies isReply f = false) →
    s.frameError? got limit = none →
    s.Leaves got sent ((s.frames got limit).map .ok) (s.frames got limit) s' (s.leftover got limit) ∧
      result = .error (s.endError got limit)

/-- However an exchange ends, the session is open, and has answered what it heard. -/
theorem Exchanged.leaves {α : Type} {read : Message → Except SessionError α}
    {result : Except SessionError α} {sent : Bytes}
    (h : s.Exchanged got limit isReply sent read result s') :
    ∃ taken heard held, s.Leaves got sent taken heard s' held := by
  cases hfirst : (s.frames got limit).find? (replies isReply) with
  | some m =>
    obtain ⟨hm, before, after, hframes, hbefore⟩ := List.find?_eq_some_iff_append.1 hfirst
    refine ⟨_, _, _, (h.replied before m after hframes (fun f hf => ?_) hm).1⟩
    simpa using hbefore f hf
  | none =>
    have hnone : ∀ f ∈ s.frames got limit, replies isReply f = false := by
      simpa using List.find?_eq_none.1 hfirst
    cases herror : s.frameError? got limit with
    | some e => exact ⟨_, _, _, (h.rejected hnone e herror).1⟩
    | none => exact ⟨_, _, _, (h.stopped hnone herror).1⟩

/-- A frame or a rejection that is received is taken off the source, in front of what is taken later. -/
theorem consumed_of_next {rest : Bytes} {x : Except FrameError Message}
    {taken : List (Except FrameError Message)} {own tail : Bytes}
    (hnext : next? s.config.ceiling (s.arrival got limit).state = some (x, rest))
    {source : Source} (hbytes : source.bytes = rest ++ Source.bytesOf (s.arrival got limit).events)
    (hown : source.bytes = own ++ tail) (hparse : parse s.config.ceiling own = (taken, [])) :
    ∃ own', got ++ s.source.bytes = own' ++ tail ∧
      parse s.config.ceiling own' = (x :: taken, []) := by
  obtain ⟨first, hstate, -, hfirst⟩ := Frame.next?_split hnext
  refine ⟨first ++ own, ?_, ?_⟩
  · rw [arrival_bytes_eq s got limit, hstate, List.append_assoc, ← hbytes, hown, List.append_assoc]
  · rw [Frame.parse_of_some (hfirst own), hparse]

/-- Receiving a frame or a rejection takes it, and answers nothing. -/
theorem leaves_of_next {rest : Bytes} {x : Except FrameError Message} {source : Source} (clock : Nat)
    (hs : s.Open got)
    (hnext : next? s.config.ceiling (s.arrival got limit).state = some (x, rest))
    (hbytes : source.bytes = rest ++ Source.bytesOf (s.arrival got limit).events) :
    s.Leaves got [] [x] [] (s.received source clock) [] where
  consumed := consumed_of_next hnext hbytes rfl Frame.parse_nil
  written := ⟨[], .nil, congrArg (fun written => { s.sink with written })
    (List.append_nil s.sink.written).symm⟩
  isOpen := open_received hs source clock
  same := ⟨rfl, rfl⟩

/-- What is told of the frames that arrive, after one of them was received. -/
theorem frames_of_next {rest : Bytes}
    (hnext : next? s.config.ceiling (s.arrival got limit).state = some (.ok m, rest))
    (harrival : s₁.arrival [] limit = { s.arrival got limit with state := rest })
    (hconfig : s₁.config = s.config) :
    s.frames got limit = m :: s₁.frames [] limit ∧
      s.frameError? got limit = s₁.frameError? [] limit ∧
      s.leftover got limit = s₁.leftover [] limit ∧ s.endError got limit = s₁.endError [] limit := by
  have hleft : s.leftover got limit = s₁.leftover [] limit := by
    rw [leftover, leftover, harrival, hconfig, Frame.parse_of_some hnext]
  refine ⟨?_, ?_, hleft, ?_⟩
  · rw [frames, frames, harrival, hconfig, Frame.parse_of_some hnext, beforeError]
  · rw [frameError?, frameError?, harrival, hconfig, Frame.parse_of_some hnext, firstError]
  · rw [endError, endError, hleft, harrival]

/-- What is heard and taken after a frame that is no reply is heard and taken behind it. -/
theorem Exchanged.pass {α : Type} {read : Message → Except SessionError α}
    {result : Except SessionError α}
    (hm : replies isReply m = false) (hfirst : s.frames got limit = m :: s₁.frames [] limit)
    (herror : s.frameError? got limit = s₁.frameError? [] limit)
    (hleft : s.leftover got limit = s₁.leftover [] limit)
    (hend : s.endError got limit = s₁.endError [] limit)
    (hleaves : ∀ {taken heard s₂ held}, s₁.Leaves [] [] taken heard s₂ held →
      s.Leaves got [] (.ok m :: taken) (m :: heard) s₂ held)
    (h : s₁.Exchanged [] limit isReply [] read result s₂) :
    s.Exchanged got limit isReply [] read result s₂ where
  replied := by
    intro before m' after hframes hbefore hm'
    rw [hfirst] at hframes
    cases before with
    | nil =>
      cases hframes
      rw [hm] at hm'
      cases hm'
    | cons f before =>
      obtain ⟨rfl, hrest⟩ := List.cons.inj hframes
      obtain ⟨hl, hresult⟩ := h.replied before m' after hrest
        (fun f hf => hbefore f (List.mem_cons_of_mem _ hf)) hm'
      exact ⟨hleaves hl, hresult⟩
  rejected := by
    rw [hfirst, herror]
    intro hnone e he
    obtain ⟨hl, hresult⟩ := h.rejected (fun f hf => hnone f (List.mem_cons_of_mem _ hf)) e he
    exact ⟨hleaves hl, hresult⟩
  stopped := by
    rw [hfirst, herror, hleft, hend]
    intro hnone he
    obtain ⟨hl, hresult⟩ := h.stopped (fun f hf => hnone f (List.mem_cons_of_mem _ hf)) he
    exact ⟨hleaves hl, hresult⟩

theorem frames_of_none (hnext : next? s.config.ceiling (s.arrival got limit).state = none) :
    s.frames got limit = [] ∧ s.frameError? got limit = none ∧
      s.leftover got limit = (s.arrival got limit).state := by
  rw [frames, frameError?, leftover, Frame.parse_of_none hnext]
  exact ⟨rfl, rfl, rfl⟩

theorem frames_of_error {rest : Bytes} {e : FrameError}
    (hnext : next? s.config.ceiling (s.arrival got limit).state = some (.error e, rest)) :
    s.frames got limit = [] ∧ s.frameError? got limit = some e := by
  rw [frames, frameError?, Frame.parse_of_some hnext]
  exact ⟨rfl, rfl⟩

/-- A wait in which less than a frame arrives. -/
theorem awaitReply_of_none (hs : s.Open got) (isReply : Header → Bool)
    (hnext : next? s.config.ceiling (s.arrival got limit).state = none) :
    s.Exchanged got limit isReply [] .ok (s.awaitReply isReply limit).1
      (s.awaitReply isReply limit).2 := by
  obtain ⟨hframes, herror, hleft⟩ := frames_of_none hnext
  obtain ⟨r, clock, hreceive, hopen⟩ := receiveBy_of_none hs hnext
  have hresult : s.awaitReply isReply limit = (.error (s.endError got limit), { s with
      reader := some r, source := ⟨(s.arrival got limit).events, s.source.ending⟩, clock }) := by
    rw [endError, hleft]
    cases ho : (s.arrival got limit).outcome with
    | got x => exact absurd ho (Source.arrive_ne_got _ _ _ x)
    | closed => exact awaitReply_of_error (by rw [hreceive, FrameReader.stopped, ho]; rfl)
    | failed text => exact awaitReply_of_error (by rw [hreceive, FrameReader.stopped, ho]; rfl)
    | late => exact awaitReply_of_late (by rw [hreceive, FrameReader.stopped, ho]; rfl)
  rw [hresult]
  constructor
  case replied =>
    intro before m after hsplit
    rw [hframes] at hsplit
    simp at hsplit
  case rejected =>
    intro _ e he
    rw [herror] at he
    cases he
  case stopped =>
    intro _ _
    rw [hframes, hleft]
    refine ⟨⟨⟨[], ?_, Frame.parse_nil⟩, ⟨[], .nil, ?_⟩, hopen, rfl, rfl⟩, rfl⟩
    · exact arrival_bytes_eq s got limit
    · simp

/-- A wait in which a framing error arrives first. -/
theorem awaitReply_of_rejected {rest : Bytes} {e : FrameError} (hs : s.Open got)
    (isReply : Header → Bool)
    (hnext : next? s.config.ceiling (s.arrival got limit).state = some (.error e, rest)) :
    s.Exchanged got limit isReply [] .ok (s.awaitReply isReply limit).1
      (s.awaitReply isReply limit).2 := by
  obtain ⟨hframes, herror⟩ := frames_of_error hnext
  obtain ⟨source, clock, hreceive, -, hbytes⟩ := receiveBy_of_some hs hnext
  rw [awaitReply_of_error hreceive]
  constructor
  case replied =>
    intro before m after hsplit
    rw [hframes] at hsplit
    simp at hsplit
  case rejected =>
    intro _ e' he'
    rw [herror] at he'
    cases he'
    rw [hframes]
    exact ⟨leaves_of_next clock hs hnext hbytes, rfl⟩
  case stopped =>
    intro _ hnone
    rw [herror] at hnone
    cases hnone

/-- A wait in which a reply arrives first. -/
theorem awaitReply_of_replied {rest : Bytes} (hs : s.Open got)
    (hnext : next? s.config.ceiling (s.arrival got limit).state = some (.ok m, rest))
    (hm : replies isReply m = true) :
    s.Exchanged got limit isReply [] .ok (s.awaitReply isReply limit).1
      (s.awaitReply isReply limit).2 := by
  obtain ⟨source, clock, hreceive, harrival, hbytes⟩ := receiveBy_of_some hs hnext
  obtain ⟨hframes, -⟩ := frames_of_next hnext harrival rfl
  have hmem : m ∈ s.frames got limit := by
    rw [hframes]
    exact List.mem_cons_self
  rw [awaitReply_of_reply hreceive hm]
  constructor
  case replied =>
    intro before m' after hsplit hbefore hm'
    rw [hframes] at hsplit
    cases before with
    | nil =>
      cases hsplit
      exact ⟨leaves_of_next clock hs hnext hbytes, rfl⟩
    | cons f before =>
      -- the reply is the first frame, so none is heard before it
      obtain ⟨rfl, -⟩ := List.cons.inj hsplit
      rw [hbefore m List.mem_cons_self] at hm
      cases hm
  case rejected =>
    intro hnone
    rw [hnone m hmem] at hm
    cases hm
  case stopped =>
    intro hnone
    rw [hnone m hmem] at hm
    cases hm

/-- A wait for a reply is an exchange that has nothing to send. -/
theorem awaitReply_exchanged (hs : s.Open got) (hroom : s.sink.room = none) (isReply : Header → Bool)
    (limit : Nat) :
    s.Exchanged got limit isReply [] .ok (s.awaitReply isReply limit).1
      (s.awaitReply isReply limit).2 := by
  -- the induction is on the number of frames that arrive, each of which is one turn of the wait
  induction hn : (s.frames got limit).length using Nat.strongRecOn generalizing s got with
  | ind n ih =>
    cases hnext : next? s.config.ceiling (s.arrival got limit).state with
    | none => exact awaitReply_of_none hs isReply hnext
    | some found =>
      obtain ⟨e | m, rest⟩ := found
      · exact awaitReply_of_rejected hs isReply hnext
      · cases hm : replies isReply m with
        | true => exact awaitReply_of_replied hs hnext hm
        | false =>
          obtain ⟨source, clock, hreceive, harrival, hbytes⟩ := receiveBy_of_some hs hnext
          have hopen := open_received hs source clock
          obtain ⟨out, hanswer, hanswered⟩ := answer_eq hopen hroom m
          -- an answer does not change what is to come
          have hbehind : ((s.received source clock).wrote out).arrival [] limit
              = { s.arrival got limit with state := rest } := harrival
          obtain ⟨hfirst, herror, hleft, hend⟩ := frames_of_next hnext hbehind rfl
          have hfewer : (((s.received source clock).wrote out).frames [] limit).length < n := by
            rw [← hn, hfirst, List.length_cons]
            exact Nat.lt_succ_self _
          rw [awaitReply_of_other hreceive hm hanswer]
          refine (ih _ hfewer (open_wrote hopen out) hroom rfl).pass hm hfirst herror hleft hend ?_
          rintro taken heard s₂ held ⟨⟨own, hown, hparse⟩, ⟨out', hout', hsink⟩, hheld, hsame⟩
          refine ⟨consumed_of_next hnext hbytes hown hparse, ⟨out ++ out', hanswered hout', ?_⟩,
            hheld, hsame⟩
          rw [hsink]
          simp [wrote, received]

/-! ## Handshakes and pings -/

/-- What was written before a wait was written in the exchange. -/
theorem Exchanged.sent {α : Type} {read : Message → Except SessionError α}
    {result : Except SessionError α} {sent : Bytes}
    (h : (s.wrote sent).Exchanged got limit isReply [] read result s') :
    s.Exchanged got limit isReply sent read result s' := by
  have hleaves : ∀ {taken heard held}, (s.wrote sent).Leaves got [] taken heard s' held →
      s.Leaves got sent taken heard s' held := by
    rintro taken heard held ⟨hconsumed, ⟨out, hout, hsink⟩, hopen, hsame⟩
    refine ⟨hconsumed, ⟨out, hout, ?_⟩, hopen, hsame⟩
    rw [hsink]
    simp [wrote]
  constructor
  case replied =>
    intro before m after hframes hbefore hm
    exact (h.replied before m after hframes hbefore hm).imp_left hleaves
  case rejected =>
    intro hnone e he
    exact (h.rejected hnone e he).imp_left hleaves
  case stopped =>
    intro hnone he
    exact (h.stopped hnone he).imp_left hleaves

/-- What is made of the reply afterwards changes nothing of the exchange. -/
theorem Exchanged.bind {α : Type} (read : Message → Except SessionError α)
    {r : Except SessionError Message} {sent : Bytes}
    (hleaves : ∀ {taken heard held}, s.Leaves got sent taken heard s₁ held →
      s.Leaves got sent taken heard s' held)
    (h : s.Exchanged got limit isReply sent .ok r s₁) :
    s.Exchanged got limit isReply sent read (r.bind read) s' := by
  constructor
  case replied =>
    intro before m after hframes hbefore hm
    obtain ⟨hl, rfl⟩ := h.replied before m after hframes hbefore hm
    refine ⟨hleaves hl, ?_⟩
    split <;> rfl
  case rejected =>
    intro hnone e he
    obtain ⟨hl, rfl⟩ := h.rejected hnone e he
    exact ⟨hleaves hl, rfl⟩
  case stopped =>
    intro hnone he
    obtain ⟨hl, rfl⟩ := h.stopped hnone he
    exact ⟨hleaves hl, rfl⟩

theorem exchange_exchanged (hs : s.Open got) (hroom : s.sink.room = none) (isReply : Header → Bool)
    (request : Message) (wait : Duration) :
    s.Exchanged got (s.clock + wait.nanos) isReply request.encode .ok
      (s.exchange isReply request wait).1 (s.exchange isReply request wait).2 := by
  have hexchange : s.exchange isReply request wait
      = (s.wrote request.encode).awaitReply isReply (s.clock + wait.nanos) := by
    rw [exchange, send_eq hs hroom]
    rfl
  rw [hexchange]
  exact (awaitReply_exchanged (open_wrote hs _) hroom isReply _).sent

/-- The directory in the reply to a handshake. -/
def directoryOf (m : Message) : Except SessionError Directory :=
  match m.storage with
  | .error e => .error (.decode e)
  | .ok root => .ok (Directory.ofSection root)

/-- A handshake has a written form, as the id of a block has thirty-two bytes. -/
theorem exists_request (config : Config) (localTime localId : UInt64)
    (hid : config.chain.topId.length = 32) :
    ∃ request, Message.storageRequest .handshake true (Payload.handshake config localTime localId)
      = .ok request := by
  have hnetwork : config.network.id.length = 16 := by
    cases config.network <;> rfl
  have hencode : ∃ bs, Storage.encode (Payload.handshake config localTime localId) = .ok bs := by
    simp only [Payload.handshake, Payload.nodeData, Payload.chainData, Storage.encode,
      Storage.Section.encode, Storage.Value.encode, Storage.encodeEntries, hid, hnetwork]
    exact ⟨_, rfl⟩
  obtain ⟨bs, hbs⟩ := hencode
  rw [Message.storageRequest, hbs]
  exact ⟨_, rfl⟩

/-- A handshake is an exchange, and keeps what the directory tells of the peer. -/
theorem handshake_eq {request : Message}
    (hrequest : Message.storageRequest .handshake true
      (Payload.handshake s.config s.localTime s.localId) = .ok request) (wait : Duration) :
    ∃ peer, s.handshake wait = ((s.exchange isHandshake request wait).1.bind directoryOf,
      { (s.exchange isHandshake request wait).2 with peer }) := by
  -- the equation that is made for a `let` with matches in it is slow to check
  delta handshake
  simp only [hrequest]
  generalize s.exchange isHandshake request wait = made
  obtain ⟨e | m, s₁⟩ := made
  · exact ⟨s₁.peer, rfl⟩
  · simp only [Except.bind, directoryOf]
    cases m.storage with
    | error e => exact ⟨s₁.peer, rfl⟩
    | ok root => exact ⟨_, rfl⟩

/-- A handshake whose request has no written form is refused. -/
theorem handshake_of_unwritten {e : StorageError}
    (hrequest : Message.storageRequest .handshake true
      (Payload.handshake s.config s.localTime s.localId) = .error e) (wait : Duration) :
    s.handshake wait = (.error (.encode e), s) := by
  -- as in `handshake_eq`
  delta handshake
  simp only [hrequest]

theorem ping_eq (s : Session) (wait : Duration) :
    s.ping wait = ((s.exchange (fun _ => true) (.request .ping true) wait).1.bind fun _ => .ok (),
      (s.exchange (fun _ => true) (.request .ping true) wait).2) := by
  rw [ping]
  generalize s.exchange (fun _ => true) (.request .ping true) wait = made
  obtain ⟨e | m, s₁⟩ := made <;> rfl

/-- A response to a handshake that tells nothing. -/
def bareReply : Message where
  header := {
    length := 10
    expectsResponse := false
    command := Command.handshake.id
    returnCode := Message.returnOk
    flags := .response
    version := 1 }
  payload := Storage.preamble ++ [0]

/-- A session in which a question for the support flags arrives in two parts, then a reply to a
handshake, and then the beginning of another frame. -/
def askedFirst : Session :=
  let asked := (Message.request .supportFlags true).encode
  start (.nonListening .mainnet) { ip := ⟨1, 1, 1, 1⟩, port := 18080 } 7 9
    ⟨[.bytes (asked.take 20), .silence 5, .bytes (asked.drop 20 ++ bareReply.encode ++ [1, 33])],
      .closed⟩ {}

end Session

end LevinNet
