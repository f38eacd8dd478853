import LevinNet.Proofs.Session.Closing

/-
Which frame completes an exchange.

   1. `Took` says which results a session took off its source on the way to another. A write takes none
      and a wait for a frame takes one at most (`receives_receiveBy`), whatever becomes of the writes.
   2. `Writes` says what it wrote on that way, where its sink may give out in the middle.
   3. However a wait for a reply ends, it takes frames that are no replies and answers them, and then
      takes what it ends with (`heeds_awaitReply`), and so do a handshake and a ping. So one that completes
      does so on the first reply that it takes (`Hears.completed`), and on no other frame
      (`CompletedBy.unique`).
   4. Along a run the results that are taken add up until the session is closed (`took_callAll`), and on
      a closed session nothing completes (`not_completed_of_closed`).
-/
namespace LevinNet

namespace Session

open LevinNet.Frame (next? parse)

variable {s s' s₁ s₂ : Session} {got held kept sent : Bytes} {limit : Nat} {isReply : Header → Bool}
  {taken more : List (Except FrameError Message)} {heard : List Message} {α : Type}
  {read : Message → Except SessionError α} {result : Except SessionError α}

/-! ## What is taken off the source -/

/-- Of the bytes that `s` kept and that were to come to it, just those of the results `taken` are gone in
`s'`, which is open and keeps `held` of the frame under way. -/
structure Took (s : Session) (got : Bytes) (taken : List (Except FrameError Message)) (s' : Session)
    (held : Bytes) : Prop where
  consumed : ∃ own, got ++ s.source.bytes = own ++ (held ++ s'.source.bytes) ∧
    parse s.config.ceiling own = (taken, [])
  isOpen : s'.Open held
  config : s'.config = s.config

theorem Took.refl (hs : s.Open got) : s.Took got [] s got := ⟨⟨[], rfl, Frame.parse_nil⟩, hs, rfl⟩

theorem Took.trans (h₁ : s.Took got taken s₁ kept) (h₂ : s₁.Took kept more s₂ held) :
    s.Took got (taken ++ more) s₂ held := by
  obtain ⟨first, hfirst, hparsed⟩ := h₁.consumed
  obtain ⟨own, hown, hparse⟩ := h₂.consumed
  refine ⟨⟨first ++ own, ?_, ?_⟩, h₂.isOpen, h₂.config.trans h₁.config⟩
  · rw [hfirst, hown, List.append_assoc]
  · rw [h₁.config] at hparse
    rw [Frame.parse_append, hparsed, List.nil_append, hparse]

theorem took_withSink (hs : s.Open got) (sink : Sink) : s.Took got [] (s.withSink sink) got :=
  ⟨⟨[], rfl, Frame.parse_nil⟩, open_withSink hs sink, rfl⟩

theorem took_send (hs : s.Open got) (m : Message) : s.Took got [] (s.send m).2 got := by
  rw [send, if_pos hs.writing]
  exact took_withSink hs _

/-- What a wait for a frame comes to, and what it takes: one frame or rejection, or nothing if the source
ends or fails or the limit comes first. -/
inductive Receives (s : Session) (got : Bytes) :
    Option (Except SessionError Message) × Session → Prop where
  | frame {m : Message} {s' : Session} (h : s.Took got [.ok m] s' []) :
    Receives s got (some (.ok m), s')
  | rejected {e : FrameError} {s' : Session} (h : s.Took got [.error e] s' []) :
    Receives s got (some (.error (.ofFrame e)), s')
  | failed {text : String} {s' : Session} {held : Bytes} (h : s.Took got [] s' held) :
    Receives s got (some (.error (.io text)), s')
  | late {s' : Session} {held : Bytes} (h : s.Took got [] s' held) : Receives s got (none, s')

theorem receives_receiveBy (hs : s.Open got) (limit : Nat) : s.Receives got (s.receiveBy limit) := by
  cases hnext : next? s.config.ceiling (s.arrival got limit).state with
  | some found =>
    obtain ⟨x, rest⟩ := found
    obtain ⟨source, clock, hreceive, -, hbytes⟩ := receiveBy_of_some hs hnext
    have htook : s.Took got [x] (s.received source clock) [] :=
      ⟨consumed_of_next hnext hbytes rfl Frame.parse_nil, open_received hs source clock, rfl⟩
    rw [hreceive]
    cases x with
    | error e => exact .rejected htook
    | ok m => exact .frame htook
  | none =>
    obtain ⟨r, clock, hreceive, hopen⟩ := receiveBy_of_none hs hnext
    have htook : s.Took got [] { s with
        reader := some r, source := ⟨(s.arrival got limit).events, s.source.ending⟩, clock }
        (s.arrival got limit).state :=
      ⟨⟨[], arrival_bytes_eq s got limit, Frame.parse_nil⟩, hopen, rfl⟩
    rw [hreceive, FrameReader.stopped]
    split
    · exact absurd ‹_› (Source.arrive_ne_got _ _ _ _)
    · exact .failed htook
    · exact .failed htook
    · exact .late htook

theorem receives_of_eq {made : Option (Except SessionError Message) × Session} (hs : s.Open got)
    (h : s.receiveBy limit = made) : s.Receives got made := by
  rw [← h]
  exact receives_receiveBy hs limit

/-! ## What is written -/

/-- All that was written on the way from `s` to `s'` is `sent` and then the answers to the frames `heard`,
up to where the sink took no more. -/
structure Writes (s : Session) (sent : Bytes) (heard : List Message) (s' : Session) : Prop where
  written : ∃ out cut, Answered s.config s.localId heard out ∧ cut <+: sent ++ out ∧
    s'.sink.written = s.sink.written ++ cut
  same : s'.config = s.config ∧ s'.localId = s.localId

/-- A write that fails has written a first part. -/
theorem write_cases (sink : Sink) (bs : Bytes) :
    (∃ text sink' cut, sink.write bs = (.error text, sink') ∧ cut <+: bs ∧
      sink'.written = sink.written ++ cut) ∨
    ∃ sink', sink.write bs = (.ok (), sink') ∧ sink'.written = sink.written ++ bs := by
  rw [Sink.write]
  split
  · exact .inr ⟨_, rfl, rfl⟩
  · next room _ =>
    by_cases hfits : bs.length ≤ room
    · refine .inr ⟨_, if_pos hfits, ?_⟩
      rw [List.take_of_length_le hfits]
    · exact .inl ⟨_, _, _, if_neg hfits, List.take_prefix room bs, rfl⟩

/-- And so it is with what is written in answer to a frame. -/
theorem answer_cases (hs : s.Open got) (m : Message) :
    (∃ text sink cut, s.answer m = (.error (.io text), s.withSink sink) ∧ cut <+: s.reaction m ∧
      sink.written = s.sink.written ++ cut) ∨
    ∃ sink, s.answer m = (.ok (), s.withSink sink) ∧
      sink.written = s.sink.written ++ s.reaction m := by
  rw [answer_eq_write hs]
  obtain ⟨text, sink, cut, hwrite, hcut, hwritten⟩ | ⟨sink, hwrite, hwritten⟩ :=
    write_cases s.sink (s.reaction m)
  · exact .inl ⟨text, sink, cut, by rw [hwrite]; rfl, hcut, hwritten⟩
  · exact .inr ⟨sink, by rw [hwrite]; rfl, hwritten⟩

/-- What a frame calls for is its answer if it is answerable, else nothing. -/
theorem answered_reaction (hs : s.Open got) (m : Message) {out : Bytes}
    (h : Answered s.config s.localId heard out) :
    Answered s.config s.localId (m :: heard) (s.reaction m ++ out) := by
  -- the sink does not matter, so it may be one that takes all writes
  have hopen := open_withSink hs {}
  obtain ⟨answer, hanswer, hanswered⟩ := answer_eq hopen rfl m
  have hwritten : s.reaction m = answer :=
    congrArg (·.2.sink.written) ((answer_eq_write hopen m).symm.trans hanswer)
  rw [hwritten]
  exact hanswered h

/-- Nothing was written but a first part of what was to be sent. -/
theorem writes_of_cut {cut : Bytes} (hcut : cut <+: sent)
    (hwritten : s'.sink.written = s.sink.written ++ cut)
    (hsame : s'.config = s.config ∧ s'.localId = s.localId) : s.Writes sent [] s' :=
  ⟨⟨[], cut, .nil, by rwa [List.append_nil], hwritten⟩, hsame⟩

theorem Writes.refl (s : Session) : s.Writes [] [] s :=
  writes_of_cut List.prefix_rfl (List.append_nil _).symm ⟨rfl, rfl⟩

/-- What is written behind a whole request is written with it. -/
theorem Writes.behind (h : s₁.Writes [] heard s₂)
    (hwritten : s₁.sink.written = s.sink.written ++ sent)
    (hsame : s₁.config = s.config ∧ s₁.localId = s.localId) : s.Writes sent heard s₂ := by
  obtain ⟨⟨out, cut, hout, hcut, hrest⟩, hsame'⟩ := h
  rw [hsame.1, hsame.2] at hout hsame'
  refine ⟨⟨out, sent ++ cut, hout, (List.prefix_append_right_inj sent).2 hcut, ?_⟩, hsame'⟩
  rw [hrest, hwritten, List.append_assoc]

/-- A wait for a frame writes nothing. -/
theorem Writes.received {x : Option (Except SessionError Message)}
    (hreceive : s.receiveBy limit = (x, s₁)) (h : s₁.Writes [] heard s₂) : s.Writes [] heard s₂ := by
  have hsame : s₁.sink = s.sink ∧ s₁.config = s.config ∧ s₁.localId = s.localId := by
    rw [← show (s.receiveBy limit).2 = s₁ from congrArg Prod.snd hreceive, receiveBy]
    split <;> exact ⟨rfl, rfl, rfl⟩
  exact h.behind (by rw [hsame.1, List.append_nil]) hsame.2

/-- A frame that is heard first is answered first. -/
theorem Writes.answered {m : Message} (hs : s.Open got) (h : s.Writes (s.reaction m) heard s') :
    s.Writes [] (m :: heard) s' := by
  obtain ⟨⟨out, cut, hout, hcut, hrest⟩, hsame⟩ := h
  exact ⟨⟨_, cut, answered_reaction hs m hout, hcut, hrest⟩, hsame⟩

/-! ## Exchanges -/

/-- An exchange from `s` to `s'` that wrote the request `sent` and came to `result` took frames that are
no replies and answered just these, and then took what it ended with. If it ended with anything that it
took, it kept nothing behind it. -/
def Heeds (s : Session) (got : Bytes) (isReply : Header → Bool) (sent : Bytes)
    (read : Message → Except SessionError α) (result : Except SessionError α) (s' : Session) : Prop :=
  ∃ (heard : List Message) (last : List (Except FrameError Message)) (held : Bytes),
    s.Took got (heard.map .ok ++ last) s' held ∧ s.Writes sent heard s' ∧
    (∀ f ∈ heard, replies isReply f = false) ∧ Ended isReply read last result ∧
    (last ≠ [] → held = [])

/-- An exchange that took nothing of what it ended with. -/
theorem Heeds.of_nil (h : s.Took got [] s' held) (hwrites : s.Writes sent [] s')
    (hended : Ended isReply read [] result) : s.Heeds got isReply sent read result s' :=
  ⟨[], [], held, h, hwrites, by simp, hended, fun hne => absurd rfl hne⟩

/-- An exchange that ended with the first thing that it took. -/
theorem Heeds.of_last {x : Except FrameError Message} (h : s.Took got [x] s' [])
    (hwrites : s.Writes sent [] s') (hended : Ended isReply read [x] result) :
    s.Heeds got isReply sent read result s' :=
  ⟨[], [x], [], h, hwrites, by simp, hended, fun _ => rfl⟩

/-- What is heard after a frame that is no reply is heard behind it. -/
theorem Heeds.pass {m : Message} (h : s.Took got [.ok m] s₁ kept) (hm : replies isReply m = false)
    (hwrites : ∀ {heard}, s₁.Writes [] heard s₂ → s.Writes [] (m :: heard) s₂)
    (h' : s₁.Heeds kept isReply [] read result s₂) : s.Heeds got isReply [] read result s₂ := by
  obtain ⟨heard, last, held, htook, hwritten, hheard, hrest⟩ := h'
  refine ⟨m :: heard, last, held, h.trans htook, hwrites hwritten, ?_, hrest⟩
  simpa [hm] using hheard

/-- What is made of the reply afterwards changes nothing of the exchange. -/
theorem Heeds.bind {r : Except SessionError Message} (h : s.Heeds got isReply sent .ok r s')
    (read : Message → Except SessionError α) : s.Heeds got isReply sent read (r.bind read) s' := by
  obtain ⟨heard, last, held, htook, hwrites, hheard, hended, hheld⟩ := h
  refine ⟨heard, last, held, htook, hwrites, hheard, ?_, hheld⟩
  cases hended with
  | @replied m hm =>
    have hbind : (if m.header.returnCode < Message.returnOk
          then .error (.remote m.header.returnCode) else .ok m : Except SessionError Message).bind read
        = if m.header.returnCode < Message.returnOk
          then .error (.remote m.header.returnCode) else read m := by
      split <;> rfl
    rw [hbind]
    exact .replied hm
  | rejected e => exact .rejected e
  | late => exact .late
  | failed text => exact .failed text

theorem heeds_awaitReply (hs : s.Open got) (isReply : Header → Bool) (limit : Nat) :
    s.Heeds got isReply [] .ok (s.awaitReply isReply limit).1 (s.awaitReply isReply limit).2 := by
  -- the induction is on the turns of the wait
  induction s using awaitReply.induct isReply limit generalizing got with
  | case1 s s₁ hreceive =>
    rw [awaitReply_of_late hreceive]
    cases receives_of_eq hs hreceive with
    | late h => exact .of_nil h (.received hreceive (.refl s₁)) .late
  | case2 s e s₁ hreceive =>
    rw [awaitReply_of_error hreceive]
    have hwrites : s.Writes [] [] s₁ := .received hreceive (.refl s₁)
    cases receives_of_eq hs hreceive with
    | rejected h => exact .of_last h hwrites (.rejected _)
    | failed h => exact .of_nil h hwrites (.failed _)
  | case3 s m s₁ hreceive hm | case4 s m s₁ hreceive hm =>
    rw [awaitReply_of_reply hreceive hm]
    cases receives_of_eq hs hreceive with
    | frame h => exact .of_last h (.received hreceive (.refl s₁)) (.replied hm)
  | case5 s m s₁ hreceive hm e s₂ hanswer =>
    have hm := Bool.eq_false_iff.2 hm
    rw [awaitReply_of_unanswered hreceive hm hanswer]
    cases receives_of_eq hs hreceive with
    | frame h =>
      obtain ⟨text, sink, cut, hcase, hcut, hwritten⟩ | ⟨sink, hcase, -⟩ := answer_cases h.isOpen m
      · cases hanswer.symm.trans hcase
        have hwrites : s₁.Writes (s₁.reaction m) [] (s₁.withSink sink) :=
          writes_of_cut hcut hwritten ⟨rfl, rfl⟩
        exact ⟨[m], [], [], h.trans (took_withSink h.isOpen sink),
          .received hreceive (.answered h.isOpen hwrites), by simpa, .failed text, fun _ => rfl⟩
      · cases hanswer.symm.trans hcase
  | case6 s m s₁ hreceive hm s₂ hanswer hlt ih =>
    have hm := Bool.eq_false_iff.2 hm
    rw [awaitReply_of_other hreceive hm hanswer]
    cases receives_of_eq hs hreceive with
    | frame h =>
      obtain ⟨text, sink, cut, hcase, -⟩ | ⟨sink, hcase, hwritten⟩ := answer_cases h.isOpen m
      · cases hanswer.symm.trans hcase
      · cases hanswer.symm.trans hcase
        have htook := took_withSink h.isOpen sink
        refine .pass (h.trans htook) hm (fun hrest => ?_) (ih htook.isOpen)
        exact .received hreceive (.answered h.isOpen (hrest.behind hwritten ⟨rfl, rfl⟩))

theorem heeds_exchange (hs : s.Open got) (isReply : Header → Bool) (request : Message)
    (wait : Duration) : s.Heeds got isReply request.encode .ok (s.exchange isReply request wait).1
      (s.exchange isReply request wait).2 := by
  rw [exchange_eq hs]
  obtain ⟨text, sink, cut, hwrite, hcut, hwritten⟩ | ⟨sink, hwrite, hwritten⟩ :=
    write_cases s.sink request.encode
  · simp only [hwrite]
    exact .of_nil (took_withSink hs sink) (writes_of_cut hcut hwritten ⟨rfl, rfl⟩) (.failed text)
  · simp only [hwrite]
    have htook := took_withSink hs sink
    obtain ⟨heard, last, held, hrest, hwrites, hheard⟩ := heeds_awaitReply htook.isOpen isReply _
    exact ⟨heard, last, held, htook.trans hrest, hwrites.behind hwritten ⟨rfl, rfl⟩, hheard⟩

theorem heeds_handshake {request : Message} (hs : s.Open got)
    (hrequest : Message.storageRequest .handshake true
      (Payload.handshake s.config s.localTime s.localId) = .ok request) (wait : Duration) :
    s.Heeds got isHandshake request.encode directoryOf (s.handshake wait).1 (s.handshake wait).2 := by
  obtain ⟨peer, hhandshake⟩ := handshake_eq hrequest wait
  obtain ⟨heard, last, held, htook, ⟨hwritten, hsame⟩, hrest⟩ :=
    (heeds_exchange hs isHandshake request wait).bind directoryOf
  rw [hhandshake]
  exact ⟨heard, last, held,
    ⟨htook.consumed, ⟨htook.isOpen.reader, htook.isOpen.writing⟩, htook.config⟩,
    ⟨hwritten, hsame⟩, hrest⟩

theorem heeds_ping (hs : s.Open got) (wait : Duration) :
    s.Heeds got (fun _ => true) (Message.request .ping true).encode (fun _ => .ok ())
      (s.ping wait).1 (s.ping wait).2 := by
  rw [ping_eq]
  exact (heeds_exchange hs _ _ wait).bind _

/-- What an exchange from `s` to `s'` takes, whatever it writes. -/
def Hears (s : Session) (got : Bytes) (isReply : Header → Bool)
    (read : Message → Except SessionError α) (result : Except SessionError α) (s' : Session) : Prop :=
  ∃ (heard : List Message) (last : List (Except FrameError Message)) (held : Bytes),
    s.Took got (heard.map .ok ++ last) s' held ∧
    (∀ f ∈ heard, replies isReply f = false) ∧ Ended isReply read last result ∧
    (last ≠ [] → held = [])

theorem Heeds.hears (h : s.Heeds got isReply sent read result s') :
    s.Hears got isReply read result s' := by
  obtain ⟨heard, last, held, htook, -, hrest⟩ := h
  exact ⟨heard, last, held, htook, hrest⟩

/-- A handshake is refused if its request has no written form, else it is an exchange that keeps what
the directory tells of the peer. -/
theorem handshake_cases (s : Session) (wait : Duration) :
    (∃ e, s.handshake wait = (.error (.encode e), s)) ∨
    ∃ request peer, s.handshake wait = ((s.exchange isHandshake request wait).1.bind directoryOf,
      { (s.exchange isHandshake request wait).2 with peer }) := by
  cases hrequest : Message.storageRequest .handshake true
    (Payload.handshake s.config s.localTime s.localId) with
  | error e => exact .inl ⟨e, handshake_of_unwritten hrequest wait⟩
  | ok request =>
    obtain ⟨peer, hhandshake⟩ := handshake_eq hrequest wait
    exact .inr ⟨request, peer, hhandshake⟩

theorem hears_handshake (hs : s.Open got) (wait : Duration) :
    (∃ e, s.handshake wait = (.error (.encode e), s)) ∨
    s.Hears got isHandshake directoryOf (s.handshake wait).1 (s.handshake wait).2 := by
  cases hrequest : Message.storageRequest .handshake true
    (Payload.handshake s.config s.localTime s.localId) with
  | error e => exact .inl ⟨e, handshake_of_unwritten hrequest wait⟩
  | ok request => exact .inr (heeds_handshake hs hrequest wait).hears

theorem hears_ping (hs : s.Open got) (wait : Duration) :
    s.Hears got (fun _ => true) (fun _ => .ok ()) (s.ping wait).1 (s.ping wait).2 :=
  (heeds_ping hs wait).hears

/-! ## The frame that completes an exchange -/

/-- An exchange completes if it comes to what a frame says: to a result, to the error of a payload, or to
a negative return code. -/
def Completed : Except SessionError α → Prop
  | .ok _ | .error (.decode _) | .error (.remote _) => True
  | _ => False

/-- An exchange from `s` to `s'` came to `result` by the frame `m`, the first reply and the last of the
frames that it took, by its return code or else by what it holds. -/
structure CompletedBy (s : Session) (got : Bytes) (isReply : Header → Bool)
    (read : Message → Except SessionError α) (result : Except SessionError α) (s' : Session)
    (m : Message) : Prop where
  took : ∃ before, s.Took got ((before ++ [m]).map .ok) s' [] ∧
    ∀ f ∈ before, replies isReply f = false
  reply : replies isReply m = true
  result_eq : result = if m.header.returnCode < Message.returnOk
    then .error (.remote m.header.returnCode) else read m

theorem Hears.completed (h : s.Hears got isReply read result s') (hdone : Completed result) :
    ∃ m, s.CompletedBy got isReply read result s' m := by
  obtain ⟨heard, last, held, htook, hheard, hended, hheld⟩ := h
  cases hended with
  | @replied m hm =>
    obtain rfl := hheld (List.cons_ne_nil _ _)
    refine ⟨m, ⟨heard, ?_, hheard⟩, hm, rfl⟩
    rwa [List.map_append]
  | rejected e => cases e <;> exact hdone.elim
  | late | failed => exact hdone.elim

/-- There is one frame that completes an exchange. -/
theorem CompletedBy.unique {m m' : Message} (h : s.CompletedBy got isReply read result s' m)
    (h' : s.CompletedBy got isReply read result s' m') : m = m' := by
  obtain ⟨before, htook, -⟩ := h.took
  obtain ⟨before', htook', -⟩ := h'.took
  obtain ⟨own, hown, hparse⟩ := htook.consumed
  obtain ⟨own', hown', hparse'⟩ := htook'.consumed
  obtain rfl : own = own' := List.append_cancel_right (hown.symm.trans hown')
  have htaken := congrArg Prod.fst (hparse.symm.trans hparse')
  simpa using congrArg List.getLast? htaken

/-! ## Runs -/

/-- A call takes some results off the source, or closes the session. -/
theorem took_call (hs : s.Open got) (c : Call) :
    (∃ taken held, s.Took got taken (s.call c).2 held) ∨ (s.call c).2.writing = false := by
  cases c with
  | operation op =>
    refine .inl ?_
    cases op with
    | handshake wait =>
      obtain ⟨e, hrefused⟩ | ⟨heard, last, held, htook, -⟩ := hears_handshake hs wait
      · rw [call, perform, hrefused]
        exact ⟨[], got, .refl hs⟩
      · exact ⟨_, held, htook⟩
    | ping wait =>
      obtain ⟨heard, last, held, htook, -⟩ := hears_ping hs wait
      exact ⟨_, held, htook⟩
    | receive wait =>
      have hreceives := receives_receiveBy hs (s.clock + wait.nanos)
      rw [call, perform, receive]
      generalize s.receiveBy (s.clock + wait.nanos) = made at hreceives
      cases hreceives with
      | frame h | rejected h | failed h | late h => exact ⟨_, _, h⟩
  | send m => exact .inl ⟨[], got, took_send hs m⟩
  | close => exact .inr rfl

/-- No call opens a closed session again. -/
theorem writing_call (hclosed : s.writing = false) (c : Call) : (s.call c).2.writing = false := by
  cases c with
  | operation op =>
    cases op with
    | handshake wait =>
      obtain ⟨e, hhandshake⟩ | ⟨request, peer, hhandshake⟩ := handshake_cases s wait
      · rw [call, perform, hhandshake]
        exact hclosed
      · rw [call, perform, hhandshake]
        exact (keeps_exchange s isHandshake request wait).writing.trans hclosed
    | ping wait => exact (keeps_ping s wait).writing.trans hclosed
    | receive wait => exact (keeps_receiveBy s _).writing.trans hclosed
  | send m => exact (keeps_send s m).writing.trans hclosed
  | close => rfl

/-- A run takes results off the source, or there is a close in it. -/
theorem took_callAll (hs : s.Open got) (calls : List Call) :
    (∃ taken held, s.Took got taken (s.callAll calls).2 held) ∨
      (s.callAll calls).2.writing = false := by
  have hclosed : ∀ {s : Session} (calls : List Call), s.writing = false →
      (s.callAll calls).2.writing = false := by
    intro s calls h
    induction calls generalizing s with
    | nil => exact h
    | cons c calls ih => exact ih (writing_call h c)
  induction calls generalizing s got with
  | nil => exact .inl ⟨[], got, .refl hs⟩
  | cons c calls ih =>
    obtain ⟨taken, kept, htook⟩ | h := took_call hs c
    · refine (ih htook.isOpen).imp_left ?_
      rintro ⟨more, held, hmore⟩
      exact ⟨taken ++ more, held, htook.trans hmore⟩
    · exact .inr (hclosed calls h)

theorem not_completed_of_closed (hclosed : s.writing = false) (wait : Duration) :
    ¬ Completed (s.handshake wait).1 ∧ ¬ Completed (s.ping wait).1 := by
  constructor
  · obtain ⟨e, hhandshake⟩ | ⟨request, peer, hhandshake⟩ := handshake_cases s wait
    · rw [hhandshake]
      exact id
    · rw [hhandshake, exchange_of_closed hclosed]
      exact id
  · rw [ping_eq, exchange_of_closed hclosed]
    exact id

/-- **The frame that completes an exchange.** In every run of a session, whatever was asked of it before
and however that ended, whatever arrives and whether writes fail: a handshake or a ping that completes
takes some frames behind all that was taken before it, and comes to what the last of them says. For a
handshake this is the first response with the handshake's command, and all before it, a late response to
a ping too, is no reply to it. For a ping it is the first response, whatever its command. -/
theorem completed_by_reply (config : Config) (peer : Peer) (localId localTime : UInt64)
    (source : Source) (sink : Sink) (calls : List Call) (wait : Duration) :
    let opened := start config peer localId localTime source sink
    let s := (opened.callAll calls).2
    (Completed (s.handshake wait).1 → ∃ earlier kept m, opened.Took [] earlier s kept ∧
      s.CompletedBy kept isHandshake directoryOf (s.handshake wait).1 (s.handshake wait).2 m ∧
      m.header.isResponse = true ∧ m.header.command = Command.handshake.id) ∧
    (Completed (s.ping wait).1 → ∃ earlier kept m, opened.Took [] earlier s kept ∧
      s.CompletedBy kept (fun _ => true) (fun _ => .ok ()) (s.ping wait).1 (s.ping wait).2 m ∧
      m.header.isResponse = true) := by
  intro opened s
  obtain ⟨earlier, kept, htook⟩ | hclosed :=
    took_callAll (open_start config peer localId localTime source sink) calls
  · constructor
    · intro hdone
      obtain ⟨e, hrefused⟩ | hears := hears_handshake htook.isOpen wait
      · rw [hrefused] at hdone
        exact hdone.elim
      · obtain ⟨m, hm⟩ := hears.completed hdone
        obtain ⟨hresponse, hcommand⟩ := Bool.and_eq_true_iff.1 hm.reply
        exact ⟨earlier, kept, m, htook, hm, hresponse, beq_iff_eq.1 hcommand⟩
    · intro hdone
      obtain ⟨m, hm⟩ := (hears_ping htook.isOpen wait).completed hdone
      exact ⟨earlier, kept, m, htook, hm, (Bool.and_eq_true_iff.1 hm.reply).1⟩
  · obtain ⟨hhandshake, hping⟩ := not_completed_of_closed hclosed wait
    exact ⟨fun hdone => absurd hdone hhandshake, fun hdone => absurd hdone hping⟩

/-- A session in which a response to a handshake comes after a silence, and nothing else. -/
def lateReply : Session :=
  start (.nonListening .mainnet) { ip := ⟨1, 1, 1, 1⟩, port := 18080 } 7 9
    ⟨[.silence 10, .bytes bareReply.encode], .silent⟩ {}

/-- What is left of it after a wait that is given up in the silence, behind what was written. -/
def inSilence (sent : Bytes) (peer : Peer) : Session :=
  { lateReply.wrote sent with
    peer, source := ⟨[.silenceUntil 10, .bytes bareReply.encode], .silent⟩, clock := 5 }

theorem open_inSilence (sent : Bytes) (peer : Peer) : (inSilence sent peer).Open [] where
  reader := ⟨_, rfl, FrameReader.holds_new _⟩
  writing := rfl

theorem handshake_lateReply :
    ∃ sent peer, lateReply.handshake ⟨5⟩ = (.error .timeout, inSilence sent peer) := by
  obtain ⟨request, hrequest⟩ :=
    exists_request lateReply.config lateReply.localTime lateReply.localId rfl
  obtain ⟨peer, hhandshake⟩ := handshake_eq hrequest ⟨5⟩
  have hlate : lateReply.exchange isHandshake request ⟨5⟩
      = (.error .timeout, inSilence request.encode lateReply.peer) :=
    (exchange_eq (open_start _ _ _ _ _ _) isHandshake request ⟨5⟩).trans (awaitReply_of_late rfl)
  refine ⟨request.encode, peer, ?_⟩
  rw [hhandshake, hlate]
  rfl

theorem ping_inSilence (sent : Bytes) (peer : Peer) : ∃ s',
    (inSilence sent peer).ping ⟨100⟩ = (.ok (), s') ∧
    (inSilence sent peer).CompletedBy [] (fun _ => true) (fun _ => .ok ()) (.ok ()) s' bareReply := by
  have hopen := open_inSilence sent peer
  have htook := took_send hopen (.request .ping true)
  obtain ⟨s', hreceive⟩ : ∃ s', ((inSilence sent peer).send (.request .ping true)).2.receiveBy 105
      = (some (.ok bareReply), s') := ⟨_, rfl⟩
  have hexchange : (inSilence sent peer).exchange (fun _ => true) (.request .ping true) ⟨100⟩
      = (.ok bareReply, s') :=
    (exchange_eq hopen _ _ ⟨100⟩).trans (awaitReply_of_reply hreceive rfl)
  cases receives_of_eq htook.isOpen hreceive with
  | frame h => exact ⟨s', by rw [ping_eq, hexchange]; rfl, ⟨[], htook.trans h, by simp⟩, rfl, rfl⟩

/-- The handshake is given up in the silence. Its response then completes the ping behind it, and no
response to the ping does. -/
theorem completed_by_reply_lateReply :
    let handshaken := lateReply.callAll [.operation (.handshake ⟨5⟩)]
    let s := handshaken.2
    handshaken.1 = [.operation (.handshake (.error .timeout))] ∧ (s.ping ⟨100⟩).1 = .ok () ∧
    s.CompletedBy [] (fun _ => true) (fun _ => .ok ()) (s.ping ⟨100⟩).1 (s.ping ⟨100⟩).2 bareReply ∧
    ¬ ∃ m, s.CompletedBy [] (fun _ => true) (fun _ => .ok ()) (s.ping ⟨100⟩).1 (s.ping ⟨100⟩).2 m ∧
      m.header.command = Command.ping.id := by
  obtain ⟨sent, peer, hhandshake⟩ := handshake_lateReply
  obtain ⟨s', hping, hcompleted⟩ := ping_inSilence sent peer
  have hhandshaken : lateReply.callAll [.operation (.handshake ⟨5⟩)]
      = ([.operation (.handshake (.error .timeout))], inSilence sent peer) := by
    rw [callAll, call, perform, hhandshake]
    rfl
  rw [hhandshaken]
  intro handshaken s
  rw [show s.ping ⟨100⟩ = (.ok (), s') from hping]
  refine ⟨rfl, rfl, hcompleted, ?_⟩
  rintro ⟨m, hm, hcommand⟩
  obtain rfl := hm.unique hcompleted
  cases hcommand

end Session

end LevinNet
