import LevinNet.Proofs.Session.Exchange

/-
No frame is lost between the operations of a session, and none is taken twice.

   1. `perform` is one operation: a handshake, a ping or a wait for one frame. `Acts` says what each of
      them makes of what it takes: a wait returns it, an exchange hears the frames before its reply and
      answers them.
   2. `Turn` is all that one operation does to the stream. It takes the first results of what arrives
      in its wait behind the bytes that are kept, nothing only if no whole frame is there, and keeps less
      than a frame (`turn_of_perform`).
   3. `Turns` chains them: what one operation keeps stands in front of the bytes of the next. So the
      results that are taken, one operation after the other, are the first results of the stream
      (`taken_in_order`).
-/
namespace LevinNet

namespace Frame

theorem map_beforeError_of_none {outcomes : List (Except FrameError Message)}
    (h : firstError outcomes = none) : (beforeError outcomes).map .ok = outcomes := by
  induction outcomes with
  | nil => rfl
  | cons x outcomes ih =>
    cases x with
    | error e => cases h
    | ok m => exact congrArg (List.cons (.ok m)) (ih h)

/-- The first error stands behind the messages before it. -/
theorem exists_of_firstError {outcomes : List (Except FrameError Message)} {e : FrameError}
    (h : firstError outcomes = some e) :
    ∃ after, (beforeError outcomes).map .ok ++ .error e :: after = outcomes := by
  induction outcomes with
  | nil => cases h
  | cons x outcomes ih =>
    cases x with
    | error e' =>
      cases h
      exact ⟨outcomes, rfl⟩
    | ok m =>
      obtain ⟨after, hafter⟩ := ih h
      exact ⟨after, by rw [beforeError, List.map_cons, List.cons_append, hafter]⟩

theorem map_beforeError_prefix (outcomes : List (Except FrameError Message)) :
    (beforeError outcomes).map .ok <+: outcomes := by
  cases h : firstError outcomes with
  | none => exact ⟨[], by rw [List.append_nil, map_beforeError_of_none h]⟩
  | some e =>
    obtain ⟨after, hafter⟩ := exists_of_firstError h
    exact ⟨_, hafter⟩

end Frame

namespace Session

open LevinNet.Frame (next? parse)

/-! ## Operations -/

/-- What is done with a session. -/
inductive Operation where
  | handshake (wait : Duration)
  | ping (wait : Duration)
  | receive (wait : Duration)

namespace Operation

def wait : Operation → Duration
  | handshake wait | ping wait | receive wait => wait

/-- What an operation comes to; a wait for a frame that is given up comes to nothing. -/
inductive Result where
  | handshake (result : Except SessionError Directory)
  | ping (result : Except SessionError Unit)
  | receive (result : Option (Except SessionError Message))

end Operation

/-- One operation. -/
def perform (s : Session) : Operation → Operation.Result × Session
  | .handshake wait => ((s.handshake wait).map .handshake id)
  | .ping wait => ((s.ping wait).map .ping id)
  | .receive wait => ((s.receive wait).map .receive id)

/-- A session after some operations, one after the other. -/
def performAll (s : Session) (ops : List Operation) : Session :=
  ops.foldl (fun s op => (s.perform op).2) s

/-! ## What becomes of the frames -/

/-- How an exchange ends, and what it takes last: the reply, a rejection, or nothing if the limit comes
first or the source ends or fails. -/
inductive Ended {α : Type} (isReply : Header → Bool) (read : Message → Except SessionError α) :
    List (Except FrameError Message) → Except SessionError α → Prop where
  | replied {m : Message} (hm : replies isReply m = true) :
    Ended isReply read [.ok m] (if m.header.returnCode < Message.returnOk
      then .error (.remote m.header.returnCode) else read m)
  | rejected (e : FrameError) : Ended isReply read [.error e] (.error (.ofFrame e))
  | late : Ended isReply read [] (.error .timeout)
  | failed (text : String) : Ended isReply read [] (.error (.io text))

/-- What an operation does with what it takes: what it writes first, which frames it hears, and what
it comes to. -/
inductive Acts (s : Session) : Operation → (sent : Bytes) → (heard : List Message) →
    (taken : List (Except FrameError Message)) → Operation.Result → Prop where
  | handshake {wait : Duration} {request : Message} {heard : List Message}
    {last : List (Except FrameError Message)} {result : Except SessionError Directory}
    (hrequest : Message.storageRequest .handshake true
      (Payload.handshake s.config s.localTime s.localId) = .ok request)
    (hheard : ∀ f ∈ heard, replies isHandshake f = false)
    (hlast : Ended isHandshake directoryOf last result) :
    Acts s (.handshake wait) request.encode heard (heard.map .ok ++ last) (.handshake result)
  | ping {wait : Duration} {heard : List Message} {last : List (Except FrameError Message)}
    {result : Except SessionError Unit} (hheard : ∀ f ∈ heard, replies (fun _ => true) f = false)
    (hlast : Ended (fun _ => true) (fun _ => .ok ()) last result) :
    Acts s (.ping wait) (Message.request .ping true).encode heard (heard.map .ok ++ last)
      (.ping result)
  | received {wait : Duration} (x : Except FrameError Message) :
    Acts s (.receive wait) [] [] [x] (.receive (some (x.mapError .ofFrame)))
  | pending {wait : Duration} : Acts s (.receive wait) [] [] [] (.receive none)
  | failed {wait : Duration} (text : String) :
    Acts s (.receive wait) [] [] [] (.receive (some (.error (.io text))))

/-- `taken` are the first results of what arrives by the instant `limit`, behind the bytes that are
kept, and none only if that is less than a frame. -/
structure Takes (s : Session) (got : Bytes) (limit : Nat) (taken : List (Except FrameError Message)) :
    Prop where
  arrived : taken <+: (parse s.config.ceiling (s.arrival got limit).state).1
  idle : taken = [] → next? s.config.ceiling (s.arrival got limit).state = none

/-- What one operation does to the stream: it takes `taken` and keeps `held`, where the session kept
`got` before. -/
structure Turn (s : Session) (got : Bytes) (op : Operation)
    (taken : List (Except FrameError Message)) (held : Bytes) : Prop where
  acts : ∃ sent heard, s.Acts op sent heard taken (s.perform op).1 ∧
    s.Leaves got sent taken heard (s.perform op).2 held
  takes : s.Takes got (s.clock + op.wait.nanos) taken
  /-- What it takes first is the first frame of the stream, with what was kept of it. -/
  whole : ∀ x xs, taken = x :: xs →
    ∃ rest, next? s.config.ceiling (got ++ s.source.bytes) = some (x, rest)
  /-- What it keeps is less than a frame. -/
  short : next? s.config.ceiling held = none

/-- Operations one after the other, and what each of them takes: what one keeps stands in front of the
bytes that are to come for the next. -/
inductive Turns : (s : Session) → (got : Bytes) → List Operation →
    (takens : List (List (Except FrameError Message))) → (held : Bytes) → Prop where
  | nil {s : Session} {got : Bytes} : Turns s got [] [] got
  | cons {s : Session} {got kept held : Bytes} {op : Operation} {ops : List Operation}
    {taken : List (Except FrameError Message)} {takens : List (List (Except FrameError Message))}
    (hturn : s.Turn got op taken kept) (hturns : Turns (s.perform op).2 kept ops takens held) :
    Turns s got (op :: ops) (taken :: takens) held

variable {s s' : Session} {got held sent : Bytes} {limit : Nat} {isReply : Header → Bool}
  {op : Operation} {taken : List (Except FrameError Message)} {heard : List Message}

/-! ## One operation -/

theorem Leaves.room (h : s.Leaves got sent taken heard s' held) : s'.sink.room = s.sink.room := by
  obtain ⟨out, -, hsink⟩ := h.written
  rw [hsink]

/-- An exchange takes the frames it hears, and then what it ends with. -/
theorem Exchanged.ended {α : Type} {read : Message → Except SessionError α}
    {result : Except SessionError α} (h : s.Exchanged got limit isReply sent read result s') :
    ∃ heard last held, s.Leaves got sent (heard.map .ok ++ last) heard s' held ∧
      (∀ f ∈ heard, replies isReply f = false) ∧ Ended isReply read last result ∧
      s.Takes got limit (heard.map .ok ++ last) := by
  cases hfirst : (s.frames got limit).find? (replies isReply) with
  | some m =>
    obtain ⟨hm, before, after, hframes, hbefore⟩ := List.find?_eq_some_iff_append.1 hfirst
    have hheard : ∀ f ∈ before, replies isReply f = false := by simpa using hbefore
    obtain ⟨hleaves, rfl⟩ := h.replied before m after hframes hheard hm
    rw [List.map_append] at hleaves
    refine ⟨before, _, [], hleaves, hheard, .replied hm, ?_, fun hnil => by simp at hnil⟩
    refine List.IsPrefix.trans ?_ (Frame.map_beforeError_prefix _)
    rw [frames] at hframes
    rw [hframes]
    exact ⟨after.map .ok, by simp⟩
  | none =>
    have hheard : ∀ f ∈ s.frames got limit, replies isReply f = false := by
      simpa using List.find?_eq_none.1 hfirst
    cases herror : s.frameError? got limit with
    | some e =>
      obtain ⟨hleaves, rfl⟩ := h.rejected hheard e herror
      obtain ⟨after, hafter⟩ := Frame.exists_of_firstError herror
      refine ⟨_, _, [], hleaves, hheard, .rejected e, ?_, fun hnil => by simp at hnil⟩
      exact ⟨after, by rw [List.append_assoc]; exact hafter⟩
    | none =>
      obtain ⟨hleaves, rfl⟩ := h.stopped hheard herror
      have hall : (s.frames got limit).map .ok ++ []
          = (parse s.config.ceiling (s.arrival got limit).state).1 := by
        rw [List.append_nil, frames, Frame.map_beforeError_of_none herror]
      refine ⟨_, [], _, by rwa [List.append_nil], hheard, ?_, ?_, fun hnil => ?_⟩
      · rw [endError]
        split
        · exact .failed _
        · exact .failed _
        · exact .late
      · exact ⟨[], by rw [List.append_nil, hall]⟩
      · exact Frame.next?_of_parse_nil (hall.symm.trans hnil)

/-- A wait for one frame takes what it returns. -/
theorem receive_acts (hs : s.Open got) (wait : Duration) :
    ∃ taken held, s.Acts (.receive wait) [] [] taken (.receive (s.receive wait).1) ∧
      s.Leaves got [] taken [] (s.receive wait).2 held ∧
      s.Takes got (s.clock + wait.nanos) taken := by
  rw [receive]
  cases hnext : next? s.config.ceiling (s.arrival got (s.clock + wait.nanos)).state with
  | some found =>
    obtain ⟨x, rest⟩ := found
    obtain ⟨source, clock, hreceive, -, hbytes⟩ := receiveBy_of_some hs hnext
    rw [hreceive]
    refine ⟨[x], [], .received x, leaves_of_next clock hs hnext hbytes, ?_, fun hnil => by cases hnil⟩
    rw [Frame.parse_of_some hnext]
    exact ⟨_, rfl⟩
  | none =>
    obtain ⟨r, clock, hreceive, hopen⟩ := receiveBy_of_none hs hnext
    rw [hreceive]
    refine ⟨[], _, ?_, ⟨?_, ⟨[], .nil, ?_⟩, hopen, rfl, rfl⟩, List.nil_prefix, fun _ => hnext⟩
    · rw [FrameReader.stopped]
      split
      · exact absurd ‹_› (Source.arrive_ne_got _ _ _ _)
      · exact .failed _
      · exact .failed _
      · exact .pending
    · exact ⟨[], arrival_bytes_eq s got _, Frame.parse_nil⟩
    · simp

/-- An operation takes the first results of what arrives in its wait, and acts on all that it takes. -/
theorem turn_of_perform (hs : s.Open got) (hroom : s.sink.room = none)
    (hid : s.config.chain.topId.length = 32) (op : Operation) :
    ∃ taken held, s.Turn got op taken held := by
  have hacts : ∃ taken held sent heard, s.Acts op sent heard taken (s.perform op).1 ∧
      s.Leaves got sent taken heard (s.perform op).2 held ∧
      s.Takes got (s.clock + op.wait.nanos) taken := by
    cases op with
    | handshake wait =>
      obtain ⟨request, hrequest⟩ := exists_request s.config s.localTime s.localId hid
      obtain ⟨peer, heq⟩ := handshake_eq hrequest wait
      obtain ⟨heard, last, held, hleaves, hheard, hlast, htakes⟩ :=
        ((exchange_exchanged hs hroom isHandshake request wait).bind directoryOf id).ended
      obtain ⟨hconsumed, hwritten, hopen, hsame⟩ := hleaves
      rw [perform, heq]
      exact ⟨_, held, _, heard, .handshake hrequest hheard hlast,
        ⟨hconsumed, hwritten, ⟨hopen.reader, hopen.writing⟩, hsame⟩, htakes⟩
    | ping wait =>
      obtain ⟨heard, last, held, hleaves, hheard, hlast, htakes⟩ :=
        ((exchange_exchanged hs hroom _ (.request .ping true) wait).bind (fun _ => .ok ()) id).ended
      rw [perform, ping_eq]
      exact ⟨_, held, _, heard, .ping hheard hlast, hleaves, htakes⟩
    | receive wait =>
      obtain ⟨taken, held, hacts, hleaves, htakes⟩ := receive_acts hs wait
      exact ⟨taken, held, [], [], hacts, hleaves, htakes⟩
  obtain ⟨taken, held, sent, heard, hacts, hleaves, htakes⟩ := hacts
  refine ⟨taken, held, ⟨sent, heard, hacts, hleaves⟩, htakes, ?_, ?_⟩
  · rintro x xs rfl
    obtain ⟨own, hbytes, hparse⟩ := hleaves.consumed
    obtain ⟨rest, hnext⟩ := Frame.next?_of_parse_cons (congrArg Prod.fst hparse)
    exact ⟨_, by rw [hbytes]; exact Frame.next?_append _ hnext⟩
  · obtain ⟨r, -, hholds⟩ := hleaves.isOpen.reader
    rw [← hleaves.same.1]
    exact FrameReader.next?_of_holds hholds

/-- An exchange overflows only in a frame that it takes. -/
theorem Ended.overflow {α : Type} {read : Message → Except SessionError α}
    {last : List (Except FrameError Message)} (hread : ∀ m, read m ≠ .error .capacityOverflow)
    (h : Ended isReply read last (.error .capacityOverflow)) : .error .capacityOverflow ∈ last := by
  generalize hresult : Except.error SessionError.capacityOverflow = result at h
  cases h with
  | @replied m hm =>
    split at hresult
    · cases hresult
    · exact absurd hresult.symm (hread m)
  | rejected e =>
    cases e with
    | capacityOverflow => exact List.mem_singleton_self _
    | _ => cases hresult
  | late | failed => cases hresult

/-- A handshake overflows only if the ceiling is above all that can be allocated. -/
theorem lt_ceiling_of_overflow (hs : s.Open got) (hroom : s.sink.room = none)
    (hid : s.config.chain.topId.length = 32) {wait : Duration}
    (h : (s.handshake wait).1 = .error .capacityOverflow) :
    FrameReader.maxAllocation < s.config.ceiling := by
  obtain ⟨taken, held, hturn⟩ := turn_of_perform hs hroom hid (.handshake wait)
  obtain ⟨sent, heard, hacts, -⟩ := hturn.acts
  have hperform : (s.perform (.handshake wait)).1 = .handshake (.error .capacityOverflow) :=
    congrArg Operation.Result.handshake h
  rw [hperform] at hacts
  cases hacts with
  | @handshake _ _ _ last _ hrequest hheard hlast =>
    have hread (m : Message) : directoryOf m ≠ .error .capacityOverflow := by
      rw [directoryOf]
      split <;> intro heq <;> cases heq
    have hmem := hturn.takes.arrived.subset (List.mem_append_right _ (hlast.overflow hread))
    obtain ⟨bs, rest, hnext⟩ := Frame.next?_of_mem_parse hmem
    exact Frame.lt_of_next?_overflow hnext

/-- A wait for one frame takes one result at most. -/
theorem taken_of_receive {wait : Duration} (h : s.Turn got (.receive wait) taken held) :
    taken = [] ∨ ∃ x, taken = [x] := by
  obtain ⟨sent, heard, hacts, -⟩ := h.acts
  generalize (s.perform (.receive wait)).1 = result at hacts
  cases hacts with
  | received x => exact .inr ⟨x, rfl⟩
  | pending | failed => exact .inl rfl

/-! ## A sequence of operations -/

/-- **Conservation of frames.** Whatever is done with an open session whose sink takes all writes, each
operation acts on just what it takes. One after the other, they take just the first results of the
stream, in order, none twice and none left out, and the results of what is kept and still to come are
the rest of the stream. What an operation keeps is less than a frame, and the next that takes anything
takes this frame whole. -/
theorem taken_in_order (hs : s.Open got) (hroom : s.sink.room = none)
    (hid : s.config.chain.topId.length = 32) (ops : List Operation) :
    ∃ takens held, Turns s got ops takens held ∧ (s.performAll ops).Open held ∧
      (∃ own, got ++ s.source.bytes = own ++ (held ++ (s.performAll ops).source.bytes) ∧
        parse s.config.ceiling own = (takens.flatten, [])) ∧
      (parse s.config.ceiling (got ++ s.source.bytes)).1 = takens.flatten ++
        (parse s.config.ceiling (held ++ (s.performAll ops).source.bytes)).1 := by
  suffices h : ∃ takens held, Turns s got ops takens held ∧ (s.performAll ops).Open held ∧
      ∃ own, got ++ s.source.bytes = own ++ (held ++ (s.performAll ops).source.bytes) ∧
        parse s.config.ceiling own = (takens.flatten, []) by
    obtain ⟨takens, held, hturns, hopen, own, hbytes, hparse⟩ := h
    refine ⟨takens, held, hturns, hopen, ⟨own, hbytes, hparse⟩, ?_⟩
    rw [hbytes, Frame.parse_append, hparse]
    rfl
  induction ops generalizing s got with
  | nil => exact ⟨[], got, .nil, hs, [], rfl, Frame.parse_nil⟩
  | cons op ops ih =>
    obtain ⟨taken, kept, hturn⟩ := turn_of_perform hs hroom hid op
    obtain ⟨sent, heard, -, hleaves⟩ := hturn.acts
    obtain ⟨hconfig, -⟩ := hleaves.same
    obtain ⟨takens, held, hturns, hopen, own, hbytes, hparse⟩ :=
      ih hleaves.isOpen (hleaves.room.trans hroom) (by rw [hconfig]; exact hid)
    obtain ⟨first, hfirst, hparsed⟩ := hleaves.consumed
    refine ⟨taken :: takens, held, .cons hturn hturns, hopen, first ++ own, ?_, ?_⟩
    · rw [hfirst, hbytes, List.append_assoc]
      rfl
    · rw [hconfig] at hparse
      rw [Frame.parse_append, hparsed]
      simp only [List.nil_append, hparse, List.flatten_cons]

/-- A session in which a question arrives in two parts with a silence between them, and then a reply. -/
def cutFrame : Session :=
  let asked := (Message.request .supportFlags true).encode
  start (.nonListening .mainnet) { ip := ⟨1, 1, 1, 1⟩, port := 18080 } 7 9
    ⟨[.bytes (asked.take 20), .silence 10, .bytes (asked.drop 20 ++ bareReply.encode)], .closed⟩ {}

/-- The wait that is given up in the silence takes nothing, and the next one takes the question whole. -/
theorem taken_in_order_cutFrame : ∃ held, Turns cutFrame []
    [.receive ⟨5⟩, .receive ⟨100⟩, .receive ⟨100⟩]
    [[], [.ok (.request .supportFlags true)], [.ok bareReply]] held := by
  obtain ⟨takens, held, hturns, hopen, -, hall⟩ := taken_in_order (s := cutFrame)
    (open_start _ _ _ _ _ _) rfl rfl [.receive ⟨5⟩, .receive ⟨100⟩, .receive ⟨100⟩]
  have hpart : next? cutFrame.config.ceiling (cutFrame.arrival [] 5).state = none := rfl
  have hfirst : next? cutFrame.config.ceiling cutFrame.source.bytes
      = some (.ok (.request .supportFlags true), bareReply.encode) := rfl
  have hsecond : next? cutFrame.config.ceiling bareReply.encode = some (.ok bareReply, []) := rfl
  obtain ⟨r, hreader, hholds⟩ := hopen.reader
  cases hreader
  obtain rfl : held = [] := hholds.2
  change _ = _ ++ (parse cutFrame.config.ceiling []).1 at hall
  rw [List.nil_append, Frame.parse_of_some hfirst, Frame.parse_of_some hsecond, Frame.parse_nil]
    at hall
  obtain ⟨⟩ | ⟨hturn₁, hturns₁⟩ := id hturns
  obtain ⟨⟩ | ⟨hturn₂, hturns₂⟩ := hturns₁
  obtain ⟨⟩ | ⟨hturn₃, ⟨⟩⟩ := hturns₂
  have hnone := hturn₁.takes.arrived
  change _ <+: (parse cutFrame.config.ceiling (cutFrame.arrival [] 5).state).1 at hnone
  rw [Frame.parse_of_none hpart] at hnone
  obtain rfl := List.prefix_nil.1 hnone
  -- of the two that are left, each takes one result at most, and together they take two
  obtain rfl | ⟨x, rfl⟩ := taken_of_receive hturn₂ <;>
    obtain rfl | ⟨y, rfl⟩ := taken_of_receive hturn₃ <;> cases hall
  exact ⟨_, hturns⟩

end Session

end LevinNet
