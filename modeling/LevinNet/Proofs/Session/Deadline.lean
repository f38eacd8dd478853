import LevinNet.Proofs.Session.Exchange
import LevinNet.Proofs.Wire.Timing

/-
The wait for a reply has one limit, whatever arrives in it.

   1. No frame that is answered or passed over moves the limit: an exchange ends by it
      (`clock_exchange`), and an exchange that is not cut off at an instant is the same under every
      later limit (`exchange_later`).
   2. `event?` is the event that has ended an exchange by an instant, told from what has arrived by then:
      a write that fails, the first reply, a framing error, a failure of the source or its end. With
      this instant for a limit an exchange comes to the event, and is cut off if there is none
      (`exchange_eq_event`).
   3. So an exchange comes to the first event when it occurs, and to a timeout at its limit if none has
      occurred by then (`exchange_timed`), and so do a handshake and a ping (`handshake_ping_timed`).
-/
namespace LevinNet

namespace FrameReader

variable {r : FrameReader} {source : Source} {clock limit : Nat}

/-- A wait for a frame is given up if it is cut off by its limit. -/
theorem receive_eq_none_iff : (r.receive source clock limit).outcome = none ↔
    (Source.pull feed source.ending limit source.events clock r).outcome = .late := by
  rw [receive]
  cases (Source.pull feed source.ending limit source.events clock r).outcome <;> simp

theorem receive_later {t : Nat} (hle : t ≤ limit) (h : (r.receive source clock t).outcome ≠ none) :
    r.receive source clock limit = r.receive source clock t := by
  have hpull := Source.pull_later hle source.events clock r fun hlate =>
    h (receive_eq_none_iff.2 hlate)
  rw [receive, receive, hpull]

end FrameReader

namespace Session

open LevinNet.Frame (next? parse)

variable {s s₁ s₂ : Session} {got : Bytes} {limit t : Nat} {isReply : Header → Bool} {m : Message}

/-! ## One limit for all -/

theorem clock_receiveBy (s : Session) (h : s.clock ≤ limit) : (s.receiveBy limit).2.clock ≤ limit := by
  rw [receiveBy]
  cases s.reader with
  | none => exact h
  | some reader => exact Source.clock_pull_le s.source.events reader h

theorem receiveBy_later (hle : t ≤ limit) (h : (s.receiveBy t).1 ≠ none) :
    s.receiveBy limit = s.receiveBy t := by
  rw [receiveBy] at h ⊢
  rw [receiveBy]
  cases hreader : s.reader with
  | none => rfl
  | some reader =>
    rw [hreader] at h
    have hsome : (reader.receive s.source s.clock t).outcome ≠ none :=
      fun hnone => h (Option.map_eq_none_iff.2 hnone)
    simp only [FrameReader.receive_later hle hsome]

/-- A session with another sink. -/
def withSink (s : Session) (sink : Sink) : Session := { s with sink }

theorem open_withSink (hs : s.Open got) (sink : Sink) : (s.withSink sink).Open got :=
  ⟨hs.reader, hs.writing⟩

/-- An answer changes the sink only. -/
theorem answer_leaves (s : Session) (m : Message) :
    ∃ sink, (s.answer m).2 = s.withSink sink := by
  unfold answer send
  split
  · split
    · exact ⟨s.sink, rfl⟩
    · exact ⟨s.sink, rfl⟩
    · split
      · exact ⟨_, rfl⟩
      · exact ⟨s.sink, rfl⟩
  · exact ⟨s.sink, rfl⟩

theorem clock_answer (s : Session) (m : Message) : (s.answer m).2.clock = s.clock := by
  obtain ⟨sink, hsink⟩ := answer_leaves s m
  rw [hsink]
  rfl

/-- A frame that cannot be answered ends the wait. -/
theorem awaitReply_of_unanswered {e : SessionError} (h : s.receiveBy limit = (some (.ok m), s₁))
    (hm : replies isReply m = false) (hanswer : s₁.answer m = (.error e, s₂)) :
    s.awaitReply isReply limit = (.error e, s₂) := by
  rw [awaitReply]
  split
  · simp_all
  · simp_all
  · next m' s' h' =>
    rw [h] at h'
    cases h'
    rw [replies] at hm
    rw [hm, if_neg Bool.false_ne_true]
    split
    · simp_all
    · simp_all

/-- A wait for a reply keeps whatever is kept by every wait for a frame and by every answer. -/
theorem awaitReply_induction (kept : Session → Session → Prop)
    (htrans : ∀ {s s₁ s₂ : Session}, kept s s₁ → kept s₁ s₂ → kept s s₂)
    (hreceived : ∀ s : Session, kept s (s.receiveBy limit).2)
    (hanswered : ∀ (s : Session) (m : Message), kept s (s.answer m).2)
    (isReply : Header → Bool) (s : Session) : kept s (s.awaitReply isReply limit).2 := by
  have keptReceived : ∀ {s s₁ : Session} {x}, s.receiveBy limit = (x, s₁) → kept s s₁ := by
    intro s s₁ x hx
    have h := hreceived s
    rwa [hx] at h
  have keptAnswered : ∀ {s s₁ : Session} {m r}, s.answer m = (r, s₁) → kept s s₁ := by
    intro s s₁ m r hr
    have h := hanswered s m
    rwa [hr] at h
  -- the induction is on the turns of the wait
  induction s using awaitReply.induct isReply limit with
  | case1 s s₁ hreceive =>
    rw [awaitReply_of_late hreceive]
    exact keptReceived hreceive
  | case2 s e s₁ hreceive =>
    rw [awaitReply_of_error hreceive]
    exact keptReceived hreceive
  | case3 s m s₁ hreceive hm | case4 s m s₁ hreceive hm =>
    rw [awaitReply_of_reply hreceive hm]
    exact keptReceived hreceive
  | case5 s m s₁ hreceive hm e s₂ hanswer =>
    rw [awaitReply_of_unanswered hreceive (Bool.eq_false_iff.2 hm) hanswer]
    exact htrans (keptReceived hreceive) (keptAnswered hanswer)
  | case6 s m s₁ hreceive hm s₂ hanswer hlt ih =>
    rw [awaitReply_of_other hreceive (Bool.eq_false_iff.2 hm) hanswer]
    exact htrans (htrans (keptReceived hreceive) (keptAnswered hanswer)) ih

/-- An exchange keeps whatever is kept by every write, every wait for a frame and every answer. -/
theorem exchange_induction (kept : Session → Session → Prop)
    (htrans : ∀ {s s₁ s₂ : Session}, kept s s₁ → kept s₁ s₂ → kept s s₂)
    (hsent : ∀ (s : Session) (m : Message), kept s (s.send m).2)
    (hreceived : ∀ (s : Session) (limit : Nat), kept s (s.receiveBy limit).2)
    (hanswered : ∀ (s : Session) (m : Message), kept s (s.answer m).2)
    (isReply : Header → Bool) (request : Message) (wait : Duration) (s : Session) :
    kept s (s.exchange isReply request wait).2 := by
  have hsend := hsent s request
  rw [exchange]
  split
  · next e s₁ h =>
    rw [h] at hsend
    exact hsend
  · next s₁ h =>
    rw [h] at hsend
    exact htrans hsend (awaitReply_induction kept htrans (hreceived · _) hanswered isReply s₁)

/-- A wait for a reply ends by its limit. -/
theorem clock_awaitReply (s : Session) (isReply : Header → Bool) (h : s.clock ≤ limit) :
    (s.awaitReply isReply limit).2.clock ≤ limit := by
  refine awaitReply_induction (fun s s' => s.clock ≤ limit → s'.clock ≤ limit) ?_
    (fun s h => clock_receiveBy s h) ?_ isReply s h
  · intro s s₁ s₂ hfirst hsecond h
    exact hsecond (hfirst h)
  · intro s m h
    rwa [clock_answer]

/-- A wait for a reply that is not cut off at `t` is the same under a later limit. -/
theorem awaitReply_later (hle : t ≤ limit) (s : Session)
    (h : (s.awaitReply isReply t).1 ≠ .error .timeout) :
    s.awaitReply isReply limit = s.awaitReply isReply t := by
  have hreceived : ∀ {s s₁ : Session} {x}, s.receiveBy t = (some x, s₁) →
      s.receiveBy limit = (some x, s₁) := by
    intro s s₁ x hx
    rw [receiveBy_later hle (by rw [hx]; exact Option.some_ne_none x), hx]
  induction s using awaitReply.induct isReply t with
  | case1 s s₁ hreceive => exact absurd (by rw [awaitReply_of_late hreceive]) h
  | case2 s e s₁ hreceive =>
    rw [awaitReply_of_error hreceive, awaitReply_of_error (hreceived hreceive)]
  | case3 s m s₁ hreceive hm | case4 s m s₁ hreceive hm =>
    rw [awaitReply_of_reply hreceive hm, awaitReply_of_reply (hreceived hreceive) hm]
  | case5 s m s₁ hreceive hm e s₂ hanswer =>
    have hm := Bool.eq_false_iff.2 hm
    rw [awaitReply_of_unanswered hreceive hm hanswer,
      awaitReply_of_unanswered (hreceived hreceive) hm hanswer]
  | case6 s m s₁ hreceive hm s₂ hanswer hlt ih =>
    have hm := Bool.eq_false_iff.2 hm
    rw [awaitReply_of_other hreceive hm hanswer] at h ⊢
    rw [awaitReply_of_other (hreceived hreceive) hm hanswer]
    exact ih h

/-! ## The event that ends an exchange -/

/-- What is written in answer to a frame that is no reply. -/
def reaction (s : Session) (m : Message) : Bytes :=
  if m.header.isRequest && m.header.expectsResponse then
    match s.answerTo m with
    | some (.ok response) => response.encode
    | _ => []
  else []

/-- The event that ends a wait for a reply, with `behind` for what comes behind the frames: the first
reply, unless an answer to a frame before it cannot be written. -/
def firstEvent (isReply : Header → Bool) (react : Message → Bytes) (behind : Option SessionError) :
    Sink → List Message → Option (Except SessionError Message)
  | _, [] => behind.map .error
  | sink, m :: ms =>
    if replies isReply m then
      some (if m.header.returnCode < Message.returnOk then .error (.remote m.header.returnCode)
        else .ok m)
    else
      match sink.write (react m) with
      | (.error text, _) => some (.error (.io text))
      | (.ok (), sink) => firstEvent isReply react behind sink ms

/-- What has come behind the frames by the instant `t`: a framing error, the end of the source or a
failure of it. -/
def behind? (s : Session) (got : Bytes) (t : Nat) : Option SessionError :=
  match s.frameError? got t with
  | some e => some (.ofFrame e)
  | none =>
    match (s.arrival got t).outcome with
    | .late => none
    | _ => some (s.endError got t)

/-- The event that has ended an exchange by the instant `t`, if there is one. -/
def event? (isReply : Header → Bool) (request : Message) (s : Session) (got : Bytes) (t : Nat) :
    Option (Except SessionError Message) :=
  match s.sink.write request.encode with
  | (.error text, _) => some (.error (.io text))
  | (.ok (), sink) => firstEvent isReply s.reaction (s.behind? got t) sink (s.frames got t)

theorem write_nil (sink : Sink) : sink.write [] = (.ok (), sink) := by
  unfold Sink.write
  split
  · next h => simp
  · next room h => simp [← h]

theorem answerTo_ne_error (s : Session) (m : Message) (e : StorageError) :
    s.answerTo m ≠ some (.error e) := by
  intro h
  rw [answerTo] at h
  split at h
  · cases h
  · cases h
  · cases h

/-- Hearing a frame that is no reply writes what it calls for, and that is all. -/
theorem answer_eq_write (hs : s.Open got) (m : Message) :
    s.answer m = ((s.sink.write (s.reaction m)).1.mapError .io,
      s.withSink (s.sink.write (s.reaction m)).2) := by
  rw [answer, reaction]
  split
  · cases h : s.answerTo m with
    | none => rw [write_nil]; rfl
    | some r =>
      cases r with
      | error e => exact absurd h (answerTo_ne_error s m e)
      | ok response => simp only [send, hs.writing, if_true, withSink]
  · rw [write_nil]; rfl

/-- No event is a timeout. -/
theorem firstEvent_ne_timeout {react : Message → Bytes} {behind : Option SessionError}
    (hbehind : behind ≠ some .timeout) (sink : Sink) (ms : List Message) :
    firstEvent isReply react behind sink ms ≠ some (.error .timeout) := by
  induction ms generalizing sink with
  | nil =>
    intro h
    obtain ⟨e, he, htimeout⟩ := Option.map_eq_some_iff.1 h
    cases htimeout
    exact hbehind he
  | cons m ms ih =>
    rw [firstEvent]
    split
    · split <;> intro h <;> cases h
    · split
      · intro h
        cases h
      · exact ih _

/-- What comes behind the frames is a failure of the bytes or of the source. -/
theorem behind?_ne_timeout (s : Session) (got : Bytes) (t : Nat) : s.behind? got t ≠ some .timeout := by
  rw [behind?]
  split
  · next e he => cases e <;> intro h <;> cases h
  · split
    · intro h
      cases h
    · next hlate =>
      rw [endError]
      cases ho : (s.arrival got t).outcome with
      | got x => exact absurd ho (Source.arrive_ne_got _ _ _ x)
      | late => exact absurd ho hlate
      | closed => simp
      | failed text => simp

/-- What comes behind the frames, after one of them was received. -/
theorem behind?_of_next {rest : Bytes}
    (hnext : next? s.config.ceiling (s.arrival got t).state = some (.ok m, rest))
    (harrival : s₁.arrival [] t = { s.arrival got t with state := rest })
    (hconfig : s₁.config = s.config) : s₁.behind? [] t = s.behind? got t := by
  obtain ⟨-, herror, -, hend⟩ := frames_of_next hnext harrival hconfig
  rw [behind?, behind?, herror, hend, harrival]

/-- A wait that is given up at `t` comes to the event by `t`, or to a timeout if there is none. -/
theorem awaitReply_eq_event (hs : s.Open got) (isReply : Header → Bool) (t : Nat) :
    (s.awaitReply isReply t).1
      = (firstEvent isReply s.reaction (s.behind? got t) s.sink (s.frames got t)).getD
          (.error .timeout) := by
  -- the induction is on the number of frames that arrive, each of which is one turn of the wait
  induction hn : (s.frames got t).length using Nat.strongRecOn generalizing s got with
  | ind n ih =>
    cases hnext : next? s.config.ceiling (s.arrival got t).state with
    | none =>
      obtain ⟨hframes, herror, hleft⟩ := frames_of_none hnext
      obtain ⟨r, clock, hreceive, hopen⟩ := receiveBy_of_none hs hnext
      rw [hframes, firstEvent, behind?, herror]
      simp only [endError, hleft]
      cases ho : (s.arrival got t).outcome with
      | got x => exact absurd ho (Source.arrive_ne_got _ _ _ x)
      | closed => rw [awaitReply_of_error (by rw [hreceive, FrameReader.stopped, ho]; rfl)]; rfl
      | failed text => rw [awaitReply_of_error (by rw [hreceive, FrameReader.stopped, ho]; rfl)]; rfl
      | late => rw [awaitReply_of_late (by rw [hreceive, FrameReader.stopped, ho]; rfl)]; rfl
    | some found =>
      obtain ⟨e | m, rest⟩ := found
      · obtain ⟨hframes, herror⟩ := frames_of_error hnext
        obtain ⟨source, clock, hreceive, -, -⟩ := receiveBy_of_some hs hnext
        rw [awaitReply_of_error hreceive, hframes, firstEvent, behind?, herror]
        rfl
      · obtain ⟨source, clock, hreceive, harrival, -⟩ := receiveBy_of_some hs hnext
        have hopen := open_received hs source clock
        cases hm : replies isReply m with
        | true =>
          obtain ⟨hfirst, -⟩ := frames_of_next hnext harrival rfl
          rw [awaitReply_of_reply hreceive hm, hfirst, firstEvent, if_pos hm]
          rfl
        | false =>
          have hanswer := answer_eq_write hopen m
          obtain ⟨hfirst, -⟩ := frames_of_next hnext harrival rfl
          rw [hfirst, firstEvent, hm, if_neg Bool.false_ne_true]
          cases hwrite : s.sink.write (s.reaction m) with
          | mk written sink =>
            have hwrite' : (s.received source clock).sink.write
                ((s.received source clock).reaction m) = (written, sink) := hwrite
            rw [hwrite'] at hanswer
            cases written with
            | error text => rw [awaitReply_of_unanswered hreceive hm hanswer]; rfl
            | ok _ =>
              -- an answer does not change what is to come
              have hbehind : ((s.received source clock).withSink sink).arrival [] t
                  = { s.arrival got t with state := rest } := harrival
              have hfewer : (((s.received source clock).withSink sink).frames [] t).length < n := by
                rw [← hn, hfirst, List.length_cons]
                exact Nat.lt_succ_self _
              rw [awaitReply_of_other hreceive hm hanswer,
                ih _ hfewer (open_withSink hopen sink) rfl, behind?_of_next hnext hbehind rfl]
              rfl

/-! ## Exchanges -/

/-- An exchange is one failed write, or the wait for its reply behind the request. -/
theorem exchange_eq (hs : s.Open got) (isReply : Header → Bool) (request : Message)
    (wait : Duration) :
    s.exchange isReply request wait = match s.sink.write request.encode with
      | (.error text, sink) => (.error (.io text), s.withSink sink)
      | (.ok (), sink) => (s.withSink sink).awaitReply isReply (s.clock + wait.nanos) := by
  rw [exchange, send, if_pos hs.writing]
  cases s.sink.write request.encode with
  | mk result sink => cases result <;> rfl

/-- An exchange ends by its limit. -/
theorem clock_exchange (s : Session) (isReply : Header → Bool) (request : Message)
    (wait : Duration) : (s.exchange isReply request wait).2.clock ≤ s.clock + wait.nanos := by
  have hstart : s.clock ≤ s.clock + wait.nanos := Nat.le_add_right _ _
  have hsend : (s.send request).2.clock = s.clock := by
    rw [send]
    split <;> rfl
  rw [exchange]
  cases h : s.send request with
  | mk result s₁ =>
    rw [h] at hsend
    change s₁.clock = s.clock at hsend
    cases result with
    | error e => exact hsend ▸ hstart
    | ok _ =>
      change (s₁.awaitReply isReply (s₁.clock + wait.nanos)).2.clock ≤ _
      rw [hsend]
      exact clock_awaitReply s₁ isReply (hsend ▸ hstart)

/-- An exchange that is not cut off is the same with a longer wait. -/
theorem exchange_later {w wait : Duration} (hle : w.nanos ≤ wait.nanos) (request : Message)
    (h : (s.exchange isReply request w).1 ≠ .error .timeout) :
    s.exchange isReply request wait = s.exchange isReply request w := by
  rw [exchange] at h ⊢
  rw [exchange]
  cases hsend : s.send request with
  | mk result s₁ =>
    rw [hsend] at h
    cases result with
    | error e => rfl
    | ok _ => exact awaitReply_later (Nat.add_le_add_left hle s₁.clock) s₁ h

/-- An exchange with this limit comes to the event by it, or to a timeout if there is none. -/
theorem exchange_eq_event (hs : s.Open got) (isReply : Header → Bool) (request : Message)
    (wait : Duration) :
    (s.exchange isReply request wait).1
      = (event? isReply request s got (s.clock + wait.nanos)).getD (.error .timeout) := by
  rw [exchange_eq hs, event?]
  cases s.sink.write request.encode with
  | mk result sink =>
    cases result with
    | error text => rfl
    | ok _ => exact awaitReply_eq_event (open_withSink hs sink) isReply _

theorem event?_ne_timeout (isReply : Header → Bool) (request : Message) (s : Session) (got : Bytes)
    (t : Nat) : event? isReply request s got t ≠ some (.error .timeout) := by
  rw [event?]
  split
  · intro h
    cases h
  · exact firstEvent_ne_timeout (behind?_ne_timeout s got t) _ _

/-- How an exchange ends that has the limit `limit` and takes its reply by `read`, where `occurred`
tells the event that has occurred by an instant. -/
structure Timed {α : Type} (s : Session) (limit : Nat)
    (occurred : Nat → Option (Except SessionError Message)) (read : Message → Except SessionError α)
    (result : Except SessionError α) (s' : Session) : Prop where
  /-- It ends by the limit. -/
  bounded : s'.clock ≤ limit
  /-- It comes to the event that has occurred by an instant up to the limit, and ends by that instant. -/
  ended : ∀ t r, s.clock ≤ t → t ≤ limit → occurred t = some r →
    result = r.bind read ∧ s'.clock ≤ t
  /-- It comes to a timeout if and only if no event has occurred by the limit. -/
  late : result = .error .timeout ↔ occurred limit = none

/-- An exchange ends with the first event, when it occurs, or at its limit. -/
theorem exchange_timed {α : Type} (hs : s.Open got) (isReply : Header → Bool) (request : Message)
    (wait : Duration) (read : Message → Except SessionError α)
    (hread : ∀ m, read m ≠ .error .timeout) :
    s.Timed (s.clock + wait.nanos) (event? isReply request s got) read
      ((s.exchange isReply request wait).1.bind read) (s.exchange isReply request wait).2 where
  bounded := clock_exchange s isReply request wait
  ended := by
    intro t r hstart hle hevent
    -- the same exchange, given up at `t`
    have hlimit : s.clock + (Duration.mk (t - s.clock)).nanos = t := Nat.add_sub_of_le hstart
    have hcut := exchange_eq_event hs isReply request ⟨t - s.clock⟩
    rw [hlimit, hevent, Option.getD_some] at hcut
    have hnot : (s.exchange isReply request ⟨t - s.clock⟩).1 ≠ .error .timeout := by
      rw [hcut]
      rintro rfl
      exact event?_ne_timeout isReply request s got t hevent
    rw [exchange_later (Nat.sub_le_iff_le_add'.2 hle) request hnot]
    have hclock := clock_exchange s isReply request ⟨t - s.clock⟩
    rw [hlimit] at hclock
    exact ⟨by rw [hcut], hclock⟩
  late := by
    rw [exchange_eq_event hs]
    cases hevent : event? isReply request s got (s.clock + wait.nanos) with
    | none => exact ⟨fun _ => rfl, fun _ => rfl⟩
    | some r =>
      refine ⟨fun h => ?_, fun h => by cases h⟩
      cases r with
      | error e =>
        cases h
        exact absurd hevent (event?_ne_timeout isReply request s got _)
      | ok m => exact absurd h (hread m)

/-! ## Handshakes and pings -/

theorem directoryOf_ne_timeout (m : Message) : directoryOf m ≠ .error .timeout := by
  rw [directoryOf]
  split <;> intro h <;> cases h

/-- A session that was closed sends nothing and waits for nothing. -/
theorem exchange_of_closed (hclosed : s.writing = false) (isReply : Header → Bool)
    (request : Message) (wait : Duration) :
    s.exchange isReply request wait = (.error .closed, s) := by
  rw [exchange, send, hclosed]
  rfl

/-- **The limit of an exchange.** Whatever arrives, and whether writes fail, a handshake and a ping end
no later than their wait after they began. They come to the first of these events, when it occurs: a
write that fails, the first reply, a framing error, a failure of the source, its end. They time out if
and only if none of them has occurred by the limit. On a closed session they fail at once. -/
theorem handshake_ping_timed (s : Session) (hid : s.config.chain.topId.length = 32)
    (wait : Duration) :
    ((s.handshake wait).2.clock ≤ s.clock + wait.nanos ∧
      (s.ping wait).2.clock ≤ s.clock + wait.nanos) ∧
    (s.writing = false → ((s.handshake wait).1 = .error .closed ∧ (s.handshake wait).2.clock = s.clock) ∧
      (s.ping wait).1 = .error .closed ∧ (s.ping wait).2.clock = s.clock) ∧
    ∀ got, s.Open got →
      (∃ request, Message.storageRequest .handshake true
          (Payload.handshake s.config s.localTime s.localId) = .ok request ∧
        s.Timed (s.clock + wait.nanos) (event? isHandshake request s got) directoryOf
          (s.handshake wait).1 (s.handshake wait).2) ∧
      s.Timed (s.clock + wait.nanos) (event? (fun _ => true) (.request .ping true) s got)
        (fun _ => .ok ()) (s.ping wait).1 (s.ping wait).2 := by
  obtain ⟨request, hrequest⟩ := exists_request s.config s.localTime s.localId hid
  obtain ⟨peer, hhandshake⟩ := handshake_eq hrequest wait
  refine ⟨⟨?_, ?_⟩, fun hclosed => ⟨⟨?_, ?_⟩, ?_, ?_⟩, fun got hs => ⟨⟨request, hrequest, ?_⟩, ?_⟩⟩
  · rw [hhandshake]
    exact clock_exchange s isHandshake request wait
  · rw [ping_eq]
    exact clock_exchange s _ _ wait
  · rw [hhandshake, exchange_of_closed hclosed]
    rfl
  · rw [hhandshake, exchange_of_closed hclosed]
  · rw [ping_eq, exchange_of_closed hclosed]
    rfl
  · rw [ping_eq, exchange_of_closed hclosed]
  · rw [hhandshake]
    obtain ⟨hbounded, hended, hlate⟩ :=
      exchange_timed hs isHandshake request wait directoryOf directoryOf_ne_timeout
    exact ⟨hbounded, hended, hlate⟩
  · rw [ping_eq]
    exact exchange_timed hs _ _ wait _ fun m h => by cases h

/-- A session in which a question for the support flags comes after a silence, and then a reply to a
handshake in two parts with silences before them, and nothing after it. -/
def slowReply : Session :=
  start (.nonListening .mainnet) { ip := ⟨1, 1, 1, 1⟩, port := 18080 } 7 9
    ⟨[.silence 5, .bytes (Message.request .supportFlags true).encode, .silence 5,
      .bytes (bareReply.encode.take 20), .silence 5, .bytes (bareReply.encode.drop 20)], .silent⟩ {}

/-- The reply is complete at fifteen: a wait of twenty gets it then, and a wait of twelve is given up
with half of it there, although the question was answered at five. -/
theorem handshake_ping_timed_slowReply :
    ((slowReply.handshake ⟨20⟩).1 = .ok (Directory.ofSection []) ∧
      (slowReply.handshake ⟨20⟩).2.clock ≤ 15) ∧
    (slowReply.handshake ⟨12⟩).1 = .error .timeout ∧ (slowReply.handshake ⟨12⟩).2.clock ≤ 12 := by
  have hopen : slowReply.Open [] := open_start _ _ _ _ _ _
  have hquestion : next? slowReply.config.ceiling (Message.request .supportFlags true).encode
      = some (.ok (.request .supportFlags true), []) := rfl
  have hreply : next? slowReply.config.ceiling bareReply.encode = some (.ok bareReply, []) := rfl
  have hpart : next? slowReply.config.ceiling (bareReply.encode.take 20) = none := rfl
  have hframes : ∀ t rest, (slowReply.arrival [] t).state
      = (Message.request .supportFlags true).encode ++ rest →
      parse slowReply.config.ceiling (slowReply.arrival [] t).state
        = (.ok (.request .supportFlags true) :: (parse slowReply.config.ceiling rest).1,
          (parse slowReply.config.ceiling rest).2) := by
    intro t rest ht
    rw [ht, Frame.parse_of_some (Frame.next?_append rest hquestion), List.nil_append]
  constructor
  · obtain ⟨-, -, hopened⟩ := handshake_ping_timed slowReply rfl ⟨20⟩
    obtain ⟨⟨request, -, htimed⟩, -⟩ := hopened [] hopen
    refine htimed.ended 15 (.ok bareReply) (by decide) (by decide) ?_
    have hparse := hframes 15 bareReply.encode rfl
    rw [Frame.parse_of_some hreply, Frame.parse_nil] at hparse
    simp only [event?, frames, hparse]
    rfl
  · obtain ⟨⟨hbounded, -⟩, -, hopened⟩ := handshake_ping_timed slowReply rfl ⟨12⟩
    obtain ⟨⟨request, -, htimed⟩, -⟩ := hopened [] hopen
    refine ⟨htimed.late.2 ?_, hbounded⟩
    change event? isHandshake request slowReply [] 12 = none
    have hparse := hframes 12 (bareReply.encode.take 20) rfl
    rw [Frame.parse_of_none hpart] at hparse
    simp only [event?, behind?, frameError?, frames, hparse]
    rfl

end Session

end LevinNet
