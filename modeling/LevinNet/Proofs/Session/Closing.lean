import LevinNet.Proofs.Session.Conservation
import LevinNet.Proofs.Session.Deadline

/-
Closing is final, and nothing else closes a session.

   1. Waiting for a frame, sending and answering keep both halves and the count of shutdowns (`Keeps`),
      and so do the exchanges that are made of them (`keeps_perform`), whatever they come to.
   2. `Stands` says of a session that both halves are held and its sink is as it was given, or that both
      are gone and its sink was shut down once more. A call leads from the one to the other if it is a
      close, and keeps either if it is not (`stands_call`). A run is closed if it has a close in it
      (`stands_callAll`).
   3. A closed session refuses every call and is left as it is, source, sink and clock included
      (`call_of_closed`). So the first close decides (`closed_by_first_close`).
-/
namespace LevinNet

namespace Session

variable {s s₁ s₂ : Session} {m : Message} {limit : Nat}

/-! ## What is kept -/

/-- Both halves are held if they were, and the sink was not shut down. -/
structure Keeps (s s' : Session) : Prop where
  reader : s'.reader.isSome = s.reader.isSome
  writing : s'.writing = s.writing
  shutdowns : s'.sink.shutdowns = s.sink.shutdowns
  config : s'.config = s.config

theorem Keeps.refl (s : Session) : s.Keeps s := ⟨rfl, rfl, rfl, rfl⟩

theorem Keeps.trans (h₁ : s.Keeps s₁) (h₂ : s₁.Keeps s₂) : s.Keeps s₂ where
  reader := h₂.reader.trans h₁.reader
  writing := h₂.writing.trans h₁.writing
  shutdowns := h₂.shutdowns.trans h₁.shutdowns
  config := h₂.config.trans h₁.config

/-- A write that is cut off is no shutdown either. -/
theorem shutdowns_write (sink : Sink) (bs : Bytes) :
    (sink.write bs).2.shutdowns = sink.shutdowns := by
  rw [Sink.write]
  split
  · rfl
  · split <;> rfl

theorem keeps_send (s : Session) (m : Message) : s.Keeps (s.send m).2 := by
  rw [send]
  split
  · exact ⟨rfl, rfl, shutdowns_write _ _, rfl⟩
  · exact .refl s

theorem keeps_receiveBy (s : Session) (limit : Nat) : s.Keeps (s.receiveBy limit).2 := by
  rw [receiveBy]
  split
  · exact .refl s
  · next reader hreader => exact ⟨by rw [hreader]; rfl, rfl, rfl, rfl⟩

theorem keeps_answer (s : Session) (m : Message) : s.Keeps (s.answer m).2 := by
  rw [answer]
  split
  · split
    · exact .refl s
    · exact .refl s
    · exact keeps_send s _
  · exact .refl s

theorem keeps_exchange (s : Session) (isReply : Header → Bool) (request : Message)
    (wait : Duration) : s.Keeps (s.exchange isReply request wait).2 :=
  exchange_induction Keeps Keeps.trans keeps_send keeps_receiveBy keeps_answer isReply request wait s

theorem keeps_handshake (s : Session) (hid : s.config.chain.topId.length = 32) (wait : Duration) :
    s.Keeps (s.handshake wait).2 := by
  obtain ⟨request, hrequest⟩ := exists_request s.config s.localTime s.localId hid
  obtain ⟨peer, hhandshake⟩ := handshake_eq hrequest wait
  obtain ⟨hreader, hwriting, hshutdowns, hconfig⟩ := keeps_exchange s isHandshake request wait
  rw [hhandshake]
  exact ⟨hreader, hwriting, hshutdowns, hconfig⟩

theorem keeps_ping (s : Session) (wait : Duration) : s.Keeps (s.ping wait).2 := by
  rw [ping_eq]
  exact keeps_exchange s _ _ wait

/-- No operation gives up a half or shuts the sink down, whatever it comes to. -/
theorem keeps_perform (s : Session) (hid : s.config.chain.topId.length = 32) (op : Operation) :
    s.Keeps (s.perform op).2 := by
  cases op with
  | handshake wait => exact keeps_handshake s hid wait
  | ping wait => exact keeps_ping s wait
  | receive wait => exact keeps_receiveBy s _

/-! ## Calls -/

/-- All that can be asked of a session. -/
inductive Call where
  | operation (op : Operation)
  | send (m : Message)
  | close

/-- What a call comes to. -/
inductive Call.Result where
  | operation (result : Operation.Result)
  | send (result : Except SessionError Unit)
  | closed

/-- What a call comes to that is refused. -/
def Call.refusal : Call → Call.Result
  | .operation (.handshake _) => .operation (.handshake (.error .closed))
  | .operation (.ping _) => .operation (.ping (.error .closed))
  | .operation (.receive _) => .operation (.receive (some (.error .closed)))
  | .send _ => .send (.error .closed)
  | .close => .closed

/-- Make one call. -/
def call (s : Session) : Call → Call.Result × Session
  | .operation op => (s.perform op).map .operation id
  | .send m => (s.send m).map .send id
  | .close => (.closed, s.close)

/-- Make calls in order, and collect what they come to. -/
def callAll (s : Session) : List Call → List Call.Result × Session
  | [] => ([], s)
  | c :: calls =>
    let (result, s) := s.call c
    let (results, s) := s.callAll calls
    (result :: results, s)

/-! ## Open or closed -/

/-- A session that holds both halves, or neither and has shut its sink down once. -/
structure Stands (config : Config) (shutdowns : Nat) (closed : Bool) (s : Session) : Prop where
  reader : s.reader.isSome = !closed
  writing : s.writing = !closed
  shutdowns : s.sink.shutdowns = shutdowns + closed.toNat
  config : s.config = config

variable {config : Config} {shutdowns : Nat} {closed : Bool}

theorem Stands.keeps (h : s.Stands config shutdowns closed) (hk : s.Keeps s₁) :
    s₁.Stands config shutdowns closed where
  reader := hk.reader.trans h.reader
  writing := hk.writing.trans h.writing
  shutdowns := hk.shutdowns.trans h.shutdowns
  config := hk.config.trans h.config

theorem stands_start (config : Config) (peer : Peer) (localId localTime : UInt64) (source : Source)
    (sink : Sink) :
    (start config peer localId localTime source sink).Stands config sink.shutdowns false :=
  ⟨rfl, rfl, rfl, rfl⟩

theorem shutdowns_shutdown (sink : Sink) : sink.shutdown.2.shutdowns = sink.shutdowns + 1 := by
  rw [Sink.shutdown]
  split <;> rfl

/-- A close shuts the sink down if the session was not closed before. -/
theorem stands_close (h : s.Stands config shutdowns closed) :
    s.close.Stands config shutdowns true := by
  refine ⟨rfl, rfl, ?_, h.config⟩
  change (if s.writing then s.sink.shutdown.2 else s.sink).shutdowns = shutdowns + 1
  rw [h.writing]
  cases closed with
  | false => exact (shutdowns_shutdown s.sink).trans (congrArg (· + 1) h.shutdowns)
  | true => exact h.shutdowns

/-- After a call the session is closed if it was, or if the call is a close. -/
theorem stands_call (h : s.Stands config shutdowns closed) (hid : config.chain.topId.length = 32)
    (c : Call) : ∃ closed', (s.call c).2.Stands config shutdowns closed' ∧
      (closed' = true ↔ closed = true ∨ c = .close) := by
  cases c with
  | operation op =>
    refine ⟨closed, h.keeps (keeps_perform s (h.config ▸ hid) op), ?_⟩
    simp
  | send m =>
    refine ⟨closed, h.keeps (keeps_send s m), ?_⟩
    simp
  | close => exact ⟨true, stands_close h, by simp⟩

/-- After a run the session is closed if it was, or if there is a close in the run. -/
theorem stands_callAll (h : s.Stands config shutdowns closed) (hid : config.chain.topId.length = 32)
    (calls : List Call) : ∃ closed', (s.callAll calls).2.Stands config shutdowns closed' ∧
      (closed' = true ↔ closed = true ∨ .close ∈ calls) := by
  induction calls generalizing s closed with
  | nil => exact ⟨closed, h, by simp⟩
  | cons c calls ih =>
    obtain ⟨between, hcall, hbetween⟩ := stands_call h hid c
    obtain ⟨closed', hrun, hclosed'⟩ := ih hcall
    refine ⟨closed', hrun, ?_⟩
    rw [hclosed', hbetween, List.mem_cons, or_assoc, eq_comm (a := c)]

theorem handshake_of_closed (hid : s.config.chain.topId.length = 32) (hclosed : s.writing = false)
    (wait : Duration) : s.handshake wait = (.error .closed, s) := by
  obtain ⟨request, hrequest⟩ := exists_request s.config s.localTime s.localId hid
  -- as in `handshake_eq`, the equation of the definition is slow to check
  delta handshake
  simp only [hrequest, exchange_of_closed hclosed]

theorem ping_of_closed (hclosed : s.writing = false) (wait : Duration) :
    s.ping wait = (.error .closed, s) := by
  rw [ping_eq, exchange_of_closed hclosed]
  rfl

theorem receive_of_closed (hclosed : s.reader = none) (wait : Duration) :
    s.receive wait = (some (.error .closed), s) := by
  simp only [receive, receiveBy, hclosed]

/-- A closed session refuses every call, and nothing of it changes. -/
theorem call_of_closed (h : s.Stands config shutdowns true) (hid : config.chain.topId.length = 32)
    (c : Call) : s.call c = (c.refusal, s) := by
  have hwriting : s.writing = false := h.writing
  have hreader : s.reader = none := by simpa using h.reader
  cases c with
  | operation op =>
    cases op with
    | handshake wait =>
      rw [call, perform, handshake_of_closed (h.config ▸ hid) hwriting]
      rfl
    | ping wait =>
      rw [call, perform, ping_of_closed hwriting]
      rfl
    | receive wait =>
      rw [call, perform, receive_of_closed hreader]
      rfl
  | send m =>
    simp only [call, send, hwriting]
    rfl
  | close =>
    have hclose : s.close = s := by
      obtain ⟨config, peer, localId, localTime, reader, writing, source, sink, clock⟩ := s
      obtain rfl : writing = false := hwriting
      obtain rfl : reader = none := hreader
      rfl
    rw [call, hclose]
    rfl

theorem callAll_of_closed (h : s.Stands config shutdowns true)
    (hid : config.chain.topId.length = 32) (calls : List Call) :
    s.callAll calls = (calls.map Call.refusal, s) := by
  induction calls with
  | nil => rfl
  | cons c calls ih =>
    rw [callAll, call_of_closed h hid]
    simp only [ih, List.map_cons]

/-- **Closing is final and releases once.** Whatever is asked of a session, in whatever order, whatever
arrives, and whether writes, waits and the shutdown fail:

1. both halves are held or neither is;
2. the session is closed from the first close on, and not before, whatever else has failed;
3. its sink is not shut down before, and is shut down once by all closes together;
4. once closed it refuses all that is asked of it, and takes and writes nothing: it stays as it is. -/
theorem closed_by_first_close (config : Config) (hid : config.chain.topId.length = 32) (peer : Peer)
    (localId localTime : UInt64) (source : Source) (sink : Sink) (calls : List Call) :
    let s := ((start config peer localId localTime source sink).callAll calls).2
    s.reader.isSome = s.writing ∧
    (s.isClosed = true ↔ .close ∈ calls) ∧
    (.close ∉ calls → s.sink.shutdowns = sink.shutdowns) ∧
    (.close ∈ calls → s.sink.shutdowns = sink.shutdowns + 1 ∧
      ∀ more : List Call, s.callAll more = (more.map Call.refusal, s)) := by
  intro s
  obtain ⟨closed, h, hclosed⟩ :=
    stands_callAll (stands_start config peer localId localTime source sink) hid calls
  have hiff : closed = true ↔ .close ∈ calls := by
    rw [hclosed]
    simp
  have hisClosed : s.isClosed = closed := by
    rw [isClosed, ← Option.not_isSome, h.reader, Bool.not_not]
  refine ⟨h.reader.trans h.writing.symm, by rw [hisClosed, hiff], fun hnone => ?_, fun hsome => ?_⟩
  · obtain rfl : closed = false := Bool.eq_false_iff.2 (mt hiff.1 hnone)
    exact h.shutdowns
  · obtain rfl : closed = true := hiff.2 hsome
    exact ⟨h.shutdowns, fun more => callAll_of_closed h hid more⟩

/-- A silent peer, behind a sink that takes half a frame and fails to shut down. -/
def unusable : Session :=
  start (.nonListening .mainnet) { ip := ⟨1, 1, 1, 1⟩, port := 18080 } 7 9 ⟨[], .silent⟩
    { room := some 20, failsShutdown := true }

/-- A ping and a wait that fail do not close the session. The first of two closes does, and no call gets
through after them. -/
theorem closed_by_first_close_unusable :
    let failed : List Call := [.operation (.ping ⟨5⟩), .operation (.receive ⟨5⟩)]
    (unusable.callAll failed).1 = [.operation (.ping (.error (.io "write limit reached"))),
      .operation (.receive none)] ∧
    (unusable.callAll failed).2.isClosed = false ∧
    let s := (unusable.callAll (failed ++ [.close, .close])).2
    s.isClosed = true ∧ s.sink.shutdowns = 1 ∧
      s.callAll [.operation (.handshake ⟨5⟩), .send (.request .ping true), .close]
        = ([.operation (.handshake (.error .closed)), .send (.error .closed), .closed], s) := by
  intro failed
  have hrun (calls : List Call) := closed_by_first_close (.nonListening .mainnet) rfl
    { ip := ⟨1, 1, 1, 1⟩, port := 18080 } 7 9 ⟨[], .silent⟩
    { room := some 20, failsShutdown := true } calls
  obtain ⟨-, hopen, -⟩ := hrun failed
  obtain ⟨-, hclosed, -, hafter⟩ := hrun (failed ++ [.close, .close])
  have hclose : Call.close ∈ failed ++ [.close, .close] := by simp
  obtain ⟨hshutdowns, hrefused⟩ := hafter hclose
  refine ⟨rfl, ?_, hclosed.2 hclose, hshutdowns, hrefused _⟩
  exact Bool.eq_false_iff.2 (mt hopen.1 (by simp [failed]))

end Session

end LevinNet
