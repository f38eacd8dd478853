import LevinNet.Proofs.Session.Pairing

/-
How a session goes on behind a framing error.

   1. An operation fails with a framing error only by a header that is rejected, which is the last that it
      takes (`took_rejected`). Just the header is taken of the frame, and nothing is kept.
   2. An open session that keeps nothing is as a new one over the bytes that are to come
      (`eq_start_of_open`).
   3. So an operation behind the error does what it does on a new session: it acts on just the frames that
      it takes (`handles_perform`), the first of them the one behind the header
      (`resumed_behind_rejection`).
-/
namespace LevinNet

namespace Session

open LevinNet.Frame (parse)

variable {s s' : Session} {got : Bytes} {isReply : Header → Bool} {e : FrameError} {α : Type}
  {read : Message → Except SessionError α} {result : Except SessionError α} {config : Config}
  {shutdowns : Nat}

/-! ## Framing errors -/

/-- The error in a result. -/
def error? : Except SessionError α → Option SessionError
  | .ok _ => none
  | .error x => some x

/-- The error that an operation comes to. -/
def Operation.Result.error? : Operation.Result → Option SessionError
  | .handshake result => Session.error? result
  | .ping result => Session.error? result
  | .receive result => result.bind Session.error?

theorem eq_error_of_error? {x : SessionError} (h : error? result = some x) : result = .error x := by
  cases result with
  | ok a => cases h
  | error y => exact congrArg Except.error (Option.some.inj h)

/-- A framing error of a session is one of its reader, and is no failure of the source. -/
theorem ofFrame_eq_framing {cause : FrameError} (h : SessionError.ofFrame cause = .framing e) :
    cause = e := by
  cases cause with
  | io text | capacityOverflow => cases h
  | header cause | payloadTooLarge length ceiling =>
    cases h
    rfl

/-- An exchange fails with a framing error by what it takes last, unless the reading of a reply makes
one. -/
theorem Hears.rejected (h : s.Hears got isReply read result s')
    (hread : ∀ m, read m ≠ .error (.framing e)) (hresult : result = .error (.framing e)) :
    ∃ before, s.Took got (before ++ [.error e]) s' [] := by
  obtain ⟨heard, last, held, htook, -, hended, hheld⟩ := h
  cases hended with
  | @replied m hm =>
    split at hresult
    · cases hresult
    · exact absurd hresult (hread m)
  | rejected cause =>
    obtain rfl := ofFrame_eq_framing (Except.error.inj hresult)
    obtain rfl := hheld (List.cons_ne_nil _ _)
    exact ⟨_, htook⟩
  | late | failed => cases hresult

theorem directoryOf_ne_framing (m : Message) : directoryOf m ≠ .error (.framing e) := by
  rw [directoryOf]
  split <;> intro h <;> cases h

/-- An operation that fails with a framing error takes the rejected header last, and keeps nothing. -/
theorem took_rejected (hs : s.Open got) (op : Operation)
    (h : (s.perform op).1.error? = some (.framing e)) :
    ∃ before, s.Took got (before ++ [.error e]) (s.perform op).2 [] := by
  cases op with
  | handshake wait =>
    have hresult : (s.handshake wait).1 = .error (.framing e) := eq_error_of_error? h
    obtain ⟨x, hrefused⟩ | hears := hears_handshake hs wait
    · rw [hrefused] at hresult
      cases hresult
    · exact hears.rejected directoryOf_ne_framing hresult
  | ping wait => exact (hears_ping hs wait).rejected (fun _ => nofun) (eq_error_of_error? h)
  | receive wait =>
    have hreceives := receives_receiveBy hs (s.clock + wait.nanos)
    rw [perform, receive] at h ⊢
    generalize s.receiveBy (s.clock + wait.nanos) = made at h hreceives
    cases hreceives with
    | rejected htook =>
      obtain rfl := ofFrame_eq_framing (Option.some.inj h)
      exact ⟨[], htook⟩
    | frame | failed | late => cases h

/-! ## What follows the error -/

/-- An open session that keeps nothing is as a new one over what is to come. -/
theorem eq_start_of_open (hs : s.Open []) :
    s = { start s.config s.peer s.localId s.localTime s.source s.sink with clock := s.clock } := by
  obtain ⟨r, hreader, hholds⟩ := hs.reader
  rw [FrameReader.eq_new_of_holds hholds] at hreader
  rw [start, ← hreader, ← hs.writing]

/-- What one operation does, whatever its sink takes: of the bytes that are kept and to come it takes
`taken` and keeps `held`, what it comes to is told by these results, and it answers only frames among
them. -/
structure Handles (s : Session) (got : Bytes) (op : Operation)
    (taken : List (Except FrameError Message)) (held : Bytes) : Prop where
  took : s.Took got taken (s.perform op).2 held
  acts : ∃ sent heard, s.Acts op sent heard taken (s.perform op).1 ∧
    s.Writes sent heard (s.perform op).2

theorem handles_perform (hs : s.Open got) (hid : s.config.chain.topId.length = 32) (op : Operation) :
    ∃ taken held, s.Handles got op taken held := by
  cases op with
  | handshake wait =>
    obtain ⟨request, hrequest⟩ := exists_request s.config s.localTime s.localId hid
    obtain ⟨heard, last, held, htook, hwrites, hheard, hlast, -⟩ := heeds_handshake hs hrequest wait
    exact ⟨_, held, htook, _, heard, .handshake hrequest hheard hlast, hwrites⟩
  | ping wait =>
    obtain ⟨heard, last, held, htook, hwrites, hheard, hlast, -⟩ := heeds_ping hs wait
    exact ⟨_, held, htook, _, heard, .ping hheard hlast, hwrites⟩
  | receive wait =>
    have hwrites : s.Writes [] [] (s.receive wait).2 := .received rfl (.refl _)
    suffices h : ∃ taken held, s.Took got taken (s.receive wait).2 held ∧
        s.Acts (.receive wait) [] [] taken (.receive (s.receive wait).1) by
      obtain ⟨taken, held, htook, hacts⟩ := h
      exact ⟨taken, held, htook, [], [], hacts, hwrites⟩
    have hreceives := receives_receiveBy hs (s.clock + wait.nanos)
    rw [receive]
    generalize s.receiveBy (s.clock + wait.nanos) = made at hreceives
    cases hreceives with
    | frame h => exact ⟨_, _, h, .received (.ok _)⟩
    | rejected h => exact ⟨_, _, h, .received (.error _)⟩
    | failed h => exact ⟨_, _, h, .failed _⟩
    | late h => exact ⟨_, _, h, .pending⟩

/-- A run without a close takes results off the source, and one with a close leaves nothing to be taken. -/
theorem handles_callAll (hs : s.Open got) (hstands : s.Stands config shutdowns false)
    (hid : config.chain.topId.length = 32) (calls : List Call) :
    let t := (s.callAll calls).2
    (.close ∉ calls → ∃ taken held, s.Took got taken t held ∧
      ∀ op, ∃ more kept, t.Handles held op more kept) ∧
    (.close ∈ calls → ∀ more : List Call, t.callAll more = (more.map Call.refusal, t)) := by
  intro t
  obtain ⟨closed, ht, hclosed⟩ := stands_callAll hstands hid calls
  have hiff : closed = true ↔ .close ∈ calls := by
    rw [hclosed]
    simp
  constructor
  · intro hnone
    obtain rfl : closed = false := Bool.eq_false_iff.2 (mt hiff.1 hnone)
    obtain ⟨taken, held, htook⟩ | hshut := took_callAll hs calls
    · refine ⟨taken, held, htook, fun op => handles_perform htook.isOpen ?_ op⟩
      rwa [ht.config]
    · exact absurd (ht.writing.symm.trans hshut) nofun
  · intro hsome
    obtain rfl : closed = true := hiff.2 hsome
    exact callAll_of_closed ht hid

/-- On a closed session an operation fails, and with no framing error. -/
theorem error?_of_closed (h : s.Stands config shutdowns true) (hid : config.chain.topId.length = 32)
    (op : Operation) : (s.perform op).1.error? = some .closed := by
  have hcall := congrArg Prod.fst (call_of_closed h hid (.operation op))
  cases op <;> exact congrArg Operation.Result.error? (Call.Result.operation.inj hcall)

/-- **What follows a framing error.** Whatever was asked of a session before, whatever arrives and whether
writes fail: once a handshake, a ping or a wait for a frame has failed with a framing error,

1. just the rejected header of thirty-three bytes is gone with it, behind whole frames and headers that
   were rejected before, and the bytes that follow the header are all still to come;
2. the session is as one that is newly started over these bytes;
3. until it is closed, later operations take just what these bytes make up, in order and from the first of
   them on, and come to what these results tell and answer only frames among them, be they the payload that
   a rejected header announces;
4. once it is closed, every call is refused and nothing is taken any more. -/
theorem resumed_behind_rejection (config : Config) (hid : config.chain.topId.length = 32) (peer : Peer)
    (localId localTime : UInt64) (source : Source) (sink : Sink) (calls : List Call) (op : Operation)
    (e : FrameError) :
    let s := ((start config peer localId localTime source sink).callAll calls).2
    let s' := (s.perform op).2
    (s.perform op).1.error? = some (.framing e) →
    (∃ before header, source.bytes = before ++ (header ++ s'.source.bytes) ∧
      (parse config.ceiling before).2 = [] ∧
      parse config.ceiling header = ([.error e], []) ∧ header.length = Header.size) ∧
    s' = { start config s'.peer s'.localId s'.localTime s'.source s'.sink with clock := s'.clock } ∧
    ∀ later : List Call, let t := (s'.callAll later).2
      (.close ∉ later → ∃ taken held, s'.Took [] taken t held ∧
        ∀ next, ∃ more kept, t.Handles held next more kept) ∧
      (.close ∈ later → ∀ more : List Call, t.callAll more = (more.map Call.refusal, t)) := by
  intro s s' h
  obtain ⟨closed, hstands, -⟩ :=
    stands_callAll (stands_start config peer localId localTime source sink) hid calls
  cases closed with
  | true =>
    rw [error?_of_closed hstands hid] at h
    cases h
  | false =>
    obtain ⟨earlier, kept, htook⟩ | hshut :=
      took_callAll (open_start config peer localId localTime source sink) calls
    · obtain ⟨before, hrejected⟩ := took_rejected htook.isOpen op h
      have hstands' : s'.Stands config sink.shutdowns false :=
        hstands.keeps (keeps_perform s (by rwa [hstands.config]) op)
      refine ⟨?_, ?_, handles_callAll hrejected.isOpen hstands' hid⟩
      · obtain ⟨own, hown, hparse⟩ := (htook.trans hrejected).consumed
        rw [← List.append_assoc] at hparse
        obtain ⟨front, header, rfl, hfront, hheader⟩ := Frame.parse_concat hparse
        refine ⟨front, header, ?_, congrArg Prod.snd hfront, hheader,
          Frame.length_of_rejected hheader⟩
        rw [← List.append_assoc]
        exact hown
      · rw [← hstands'.config]
        exact eq_start_of_open hrejected.isOpen
    · exact absurd (hstands.writing.symm.trans hshut) nofun

/-- A session in which a header announces one byte more than is taken, and a question and two responses
come in the place of its payload. -/
def oversized : Session :=
  let header := { bareReply.header with length := 262145 }
  let asked := (Message.request .supportFlags true).encode
  start (.nonListening .mainnet) { ip := ⟨1, 1, 1, 1⟩, port := 18080 } 7 9
    ⟨[.bytes header.encode, .bytes asked, .bytes bareReply.encode, .bytes bareReply.encode], .silent⟩ {}

/-- What is left of it when the header is rejected. -/
def inPayload : Session :=
  { oversized with source := ⟨.bytes [] :: oversized.source.events.tail, .silent⟩ }

theorem receive_oversized : oversized.perform (.receive ⟨5⟩)
    = (.receive (some (.error (.framing (.payloadTooLarge 262145 262144)))), inPayload) :=
  rfl

theorem ping_inPayload : ∃ s' response,
    inPayload.ping ⟨100⟩ = (.ok (), s') ∧
    Message.storageResponse Command.supportFlags.id Message.returnOk
      (Payload.supportFlags inPayload.config) = .ok response ∧
    s'.sink.written = (Message.request .ping true).encode ++ response.encode ∧
    (s'.receive ⟨100⟩).1 = some (.ok bareReply) := by
  have hopen : inPayload.Open [] := ⟨⟨_, rfl, FrameReader.holds_new _⟩, rfl⟩
  let ask : Message := .request .ping true
  -- the turns of the wait, each of them evaluated from the one before
  obtain ⟨s₁, s₂, s', response, hasked, hanswer, hreply, hresponse, hwritten, hnext⟩ :
      ∃ s₁ s₂ s' response,
        (inPayload.send ask).2.receiveBy 100 = (some (.ok (.request .supportFlags true)), s₁) ∧
        s₁.answer (.request .supportFlags true) = (.ok (), s₂) ∧
        s₂.receiveBy 100 = (some (.ok bareReply), s') ∧
        Message.storageResponse Command.supportFlags.id Message.returnOk
          (Payload.supportFlags inPayload.config) = .ok response ∧
        s'.sink.written = ask.encode ++ response.encode ∧
        (s'.receive ⟨100⟩).1 = some (.ok bareReply) :=
    ⟨_, _, _, _, rfl, rfl, rfl, rfl, rfl, rfl⟩
  have hexchange : inPayload.exchange (fun _ => true) ask ⟨100⟩ = (.ok bareReply, s') := by
    rw [exchange_eq hopen]
    exact (awaitReply_of_other hasked rfl hanswer).trans (awaitReply_of_reply hreply rfl)
  refine ⟨s', response, ?_, hresponse, hwritten, hnext⟩
  rw [ping_eq, hexchange]
  rfl

/-- The rejected header ends nothing: of what comes in the place of its payload, the question is answered,
the first response completes a ping and the second is received. -/
theorem exchanged_behind_oversized :
    let s := (oversized.perform (.receive ⟨5⟩)).2
    (oversized.perform (.receive ⟨5⟩)).1.error?
      = some (.framing (.payloadTooLarge 262145 262144)) ∧
    ∃ s' response, s.ping ⟨100⟩ = (.ok (), s') ∧
      Message.storageResponse Command.supportFlags.id Message.returnOk
        (Payload.supportFlags s.config) = .ok response ∧
      s'.sink.written = (Message.request .ping true).encode ++ response.encode ∧
      (s'.receive ⟨100⟩).1 = some (.ok bareReply) := by
  rw [receive_oversized]
  exact ⟨rfl, ping_inPayload⟩

/-- The header is gone, a ping behind it leaves a session that takes what follows, and a close leaves one
that takes nothing. -/
theorem resumed_behind_rejection_oversized :
    let s := (oversized.perform (.receive ⟨5⟩)).2
    (∃ before header, oversized.source.bytes = before ++ (header ++ s.source.bytes) ∧
      (parse 262144 before).2 = [] ∧
      parse 262144 header = ([.error (.payloadTooLarge 262145 262144)], []) ∧
      header.length = Header.size) ∧
    (∃ taken held, s.Took [] taken (s.callAll [.operation (.ping ⟨100⟩)]).2 held ∧
      ∀ op, ∃ more kept, (s.callAll [.operation (.ping ⟨100⟩)]).2.Handles held op more kept) ∧
    ∀ more : List Call, (s.callAll [.close]).2.callAll more
      = (more.map Call.refusal, (s.callAll [.close]).2) := by
  have hrejected : (oversized.perform (.receive ⟨5⟩)).1.error?
      = some (.framing (.payloadTooLarge 262145 262144)) := by
    rw [receive_oversized]
    rfl
  obtain ⟨hheader, -, hlater⟩ := resumed_behind_rejection (.nonListening .mainnet) rfl
    { ip := ⟨1, 1, 1, 1⟩, port := 18080 } 7 9 oversized.source {} [] (.receive ⟨5⟩) _ hrejected
  refine ⟨hheader, (hlater [.operation (.ping ⟨100⟩)]).1 ?_, (hlater [.close]).2 ?_⟩
  · simp
  · simp

end Session

end LevinNet
