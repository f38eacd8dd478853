import LevinNet.Crawl.Crawler
import LevinNet.Proofs.Dial.Opening
import LevinNet.Proofs.Session.Closing

/-
What a session knows of its peer.

   1. Writing, waiting and answering leave the peer as it is, and so does every exchange
      (`peer_exchange`). Only a handshake that succeeds changes it, and takes in what its directory tells
      (`peer_call`).
   2. So after a run the peer is the first one with what each of these handshakes told, in order
      (`peer_callAll`), and nothing that is known is lost (`Peer.KnownIn`).
   3. No call asks what is known of the peer (`exchange_withPeer`, `handshake_withPeer`). So a visit, which
      has its own record of the peer, comes to the one that its session has (`peer_meet`).
-/
namespace LevinNet

namespace Peer

/-- The peer with what a directory tells of it. -/
def told (p : Peer) (d : Directory) : Peer := p.withInfo d.node d.chain

/-- All that is known of `p` is known in `q`, and it is the same peer. -/
structure KnownIn (p q : Peer) : Prop where
  ip : q.ip = p.ip
  port : q.port = p.port
  id : p.id.isSome → q.id.isSome
  rpcPort : p.rpcPort.isSome → q.rpcPort.isSome
  height : p.height.isSome → q.height.isSome
  version : p.version.isSome → q.version.isSome

theorem KnownIn.refl (p : Peer) : p.KnownIn p :=
  ⟨rfl, rfl, fun h => h, fun h => h, fun h => h, fun h => h⟩

theorem KnownIn.trans {p q r : Peer} (hpq : p.KnownIn q) (hqr : q.KnownIn r) : p.KnownIn r where
  ip := hqr.ip.trans hpq.ip
  port := hqr.port.trans hpq.port
  id h := hqr.id (hpq.id h)
  rpcPort h := hqr.rpcPort (hpq.rpcPort h)
  height h := hqr.height (hpq.height h)
  version h := hqr.version (hpq.version h)

/-- What a directory leaves out stays known. -/
theorem knownIn_told (p : Peer) (d : Directory) : p.KnownIn (p.told d) := by
  refine ⟨rfl, rfl, ?_, ?_, ?_, ?_⟩ <;> simp only [told, withInfo, Option.isSome_or] <;>
    exact fun h => by rw [h, Bool.or_true]

theorem knownIn_foldl_told (p : Peer) (ds : List Directory) : p.KnownIn (ds.foldl told p) := by
  induction ds generalizing p with
  | nil => exact .refl p
  | cons d ds ih => exact (p.knownIn_told d).trans (ih _)

end Peer

namespace Session

variable {s s₁ : Session}

/-! ## What changes the peer -/

theorem peer_send (s : Session) (m : Message) : (s.send m).2.peer = s.peer := by
  rw [send]
  split <;> rfl

theorem peer_receiveBy (s : Session) (limit : Nat) : (s.receiveBy limit).2.peer = s.peer := by
  rw [receiveBy]
  split <;> rfl

theorem peer_answer (s : Session) (m : Message) : (s.answer m).2.peer = s.peer := by
  obtain ⟨sink, hsink⟩ := answer_leaves s m
  rw [hsink]
  rfl

theorem peer_exchange (s : Session) (isReply : Header → Bool) (request : Message)
    (wait : Duration) : (s.exchange isReply request wait).2.peer = s.peer :=
  exchange_induction (fun s s' => s'.peer = s.peer) (fun h₁ h₂ => h₂.trans h₁) peer_send
    peer_receiveBy peer_answer isReply request wait s

/-- What a handshake comes to, and the peer after it. -/
theorem peer_handshake (s : Session) (wait : Duration) :
    (s.handshake wait).2.peer = match (s.handshake wait).1 with
      | .ok d => s.peer.told d
      | .error _ => s.peer := by
  cases hrequest : Message.storageRequest .handshake true
    (Payload.handshake s.config s.localTime s.localId) with
  | error e => rw [handshake_of_unwritten hrequest]
  | ok request =>
    have hpeer := peer_exchange s isHandshake request wait
    -- as in `handshake_eq`, the equation of the definition is slow to check
    delta handshake
    simp only [hrequest]
    generalize s.exchange isHandshake request wait = made at hpeer ⊢
    obtain ⟨e | m, s₁⟩ := made
    · exact hpeer
    · simp only
      cases m.storage with
      | error e => exact hpeer
      | ok root => exact congrArg (Peer.told · (Directory.ofSection root)) hpeer

/-- The directory that a call comes to; only handshakes come to one. -/
def Call.Result.directory? : Call.Result → Option Directory
  | .operation (.handshake (.ok d)) => some d
  | _ => none

theorem Call.Result.directory?_eq_some_iff {result : Call.Result} {d : Directory} :
    result.directory? = some d ↔ result = .operation (.handshake (.ok d)) := by
  constructor
  · intro h
    unfold directory? at h
    split at h <;> cases h
    rfl
  · rintro rfl
    rfl

/-- A call that comes to a directory takes in what it tells, and every other leaves the peer as it is. -/
theorem peer_call (s : Session) (c : Call) :
    (s.call c).2.peer = ((s.call c).1.directory?.map s.peer.told).getD s.peer := by
  cases c with
  | operation op =>
    cases op with
    | handshake wait =>
      have hpeer := peer_handshake s wait
      rw [call, perform]
      generalize s.handshake wait = made at hpeer ⊢
      obtain ⟨e | d, s₁⟩ := made <;> exact hpeer
    | ping wait =>
      have hpeer : (s.ping wait).2.peer = s.peer := by
        rw [ping_eq]
        exact peer_exchange s _ _ wait
      exact hpeer
    | receive wait => exact peer_receiveBy s _
  | send m => exact peer_send s m
  | close => rfl

/-- After a run the peer is the first one with what each directory told, in order. -/
theorem peer_callAll (s : Session) (calls : List Call) : (s.callAll calls).2.peer
    = ((s.callAll calls).1.filterMap Call.Result.directory?).foldl Peer.told s.peer := by
  induction calls generalizing s with
  | nil => rfl
  | cons c calls ih =>
    have hcall := peer_call s c
    simp only [callAll, List.filterMap_cons]
    rw [ih, hcall]
    cases (s.call c).1.directory? <;> rfl

/-! ## What is known of the peer changes nothing -/

/-- A session with another record of its peer. -/
def withPeer (s : Session) (p : Peer) : Session := { s with peer := p }

/-- The same result, in a session with another record of its peer. -/
def sameFor {α : Type} (p : Peer) (made : α × Session) : α × Session := (made.1, made.2.withPeer p)

variable (p : Peer)

theorem send_withPeer (s : Session) (m : Message) :
    (s.withPeer p).send m = sameFor p (s.send m) := by
  rw [send, send]
  change (if s.writing = true then _ else _) = _
  split <;> rfl

theorem receiveBy_withPeer (s : Session) (limit : Nat) :
    (s.withPeer p).receiveBy limit = sameFor p (s.receiveBy limit) := by
  have hreader : (s.withPeer p).reader = s.reader := rfl
  rw [receiveBy, receiveBy, hreader]
  cases s.reader <;> rfl

theorem answer_withPeer (s : Session) (m : Message) :
    (s.withPeer p).answer m = sameFor p (s.answer m) := by
  have hanswerTo : (s.withPeer p).answerTo m = s.answerTo m := rfl
  rw [answer, answer, hanswerTo]
  split
  · split
    · rfl
    · rfl
    · exact send_withPeer p s _
  · rfl

theorem awaitReply_withPeer (s : Session) (isReply : Header → Bool) (limit : Nat) :
    (s.withPeer p).awaitReply isReply limit = sameFor p (s.awaitReply isReply limit) := by
  have hreceived : ∀ {s s₁ : Session} {x}, s.receiveBy limit = (x, s₁) →
      (s.withPeer p).receiveBy limit = (x, s₁.withPeer p) := by
    intro s s₁ x hx
    rw [receiveBy_withPeer, hx]
    rfl
  have hanswered : ∀ {s s₁ : Session} {m r}, s.answer m = (r, s₁) →
      (s.withPeer p).answer m = (r, s₁.withPeer p) := by
    intro s s₁ m r hr
    rw [answer_withPeer, hr]
    rfl
  -- the induction is on the turns of the wait
  induction s using awaitReply.induct isReply limit with
  | case1 s s₁ hreceive =>
    rw [awaitReply_of_late hreceive, awaitReply_of_late (hreceived hreceive)]
    rfl
  | case2 s e s₁ hreceive =>
    rw [awaitReply_of_error hreceive, awaitReply_of_error (hreceived hreceive)]
    rfl
  | case3 s m s₁ hreceive hm | case4 s m s₁ hreceive hm =>
    rw [awaitReply_of_reply hreceive hm, awaitReply_of_reply (hreceived hreceive) hm]
    rfl
  | case5 s m s₁ hreceive hm e s₂ hanswer =>
    have hm := Bool.eq_false_iff.2 hm
    rw [awaitReply_of_unanswered hreceive hm hanswer,
      awaitReply_of_unanswered (hreceived hreceive) hm (hanswered hanswer)]
    rfl
  | case6 s m s₁ hreceive hm s₂ hanswer hlt ih =>
    have hm := Bool.eq_false_iff.2 hm
    rw [awaitReply_of_other hreceive hm hanswer,
      awaitReply_of_other (hreceived hreceive) hm (hanswered hanswer), ih]

theorem exchange_withPeer (s : Session) (isReply : Header → Bool) (request : Message)
    (wait : Duration) :
    (s.withPeer p).exchange isReply request wait = sameFor p (s.exchange isReply request wait) := by
  rw [exchange, exchange, send_withPeer]
  cases hsend : s.send request with
  | mk result s₁ =>
    cases result with
    | error e => rfl
    | ok u => exact awaitReply_withPeer p s₁ isReply _

/-- A handshake comes to the same, whatever is known of the peer. -/
theorem handshake_withPeer (s : Session) (wait : Duration) :
    ((s.withPeer p).handshake wait).1 = (s.handshake wait).1 := by
  have hrequest : Message.storageRequest .handshake true (Payload.handshake (s.withPeer p).config
      (s.withPeer p).localTime (s.withPeer p).localId) = Message.storageRequest .handshake true
      (Payload.handshake s.config s.localTime s.localId) := rfl
  cases h : Message.storageRequest .handshake true
    (Payload.handshake s.config s.localTime s.localId) with
  | error e => rw [handshake_of_unwritten (hrequest.trans h), handshake_of_unwritten h]
  | ok request =>
    obtain ⟨q, hq⟩ := handshake_eq (hrequest.trans h) wait
    obtain ⟨q', hq'⟩ := handshake_eq h wait
    rw [hq, hq', exchange_withPeer]
    rfl

/-! ## Visits -/

variable {host : Host} {config : Config} {localId localTime : UInt64} {p}

/-- An opened session has the peer that it was opened with. -/
theorem peer_open (h : (Session.open host config p localId localTime).result = .ok s) :
    s.peer = p := by
  obtain ⟨source, -, rfl⟩ := result_open_eq_ok_iff.1 h
  rfl

/-- How a session is opened depends on the endpoint of its peer only. -/
theorem open_withPeer {q : Peer} (hq : q.endpoint = p.endpoint)
    (h : (Session.open host config p localId localTime).result = .ok s) :
    (Session.open host config q localId localTime).result = .ok (s.withPeer q) := by
  obtain ⟨source, hdial, rfl⟩ := result_open_eq_ok_iff.1 h
  rw [← hq] at hdial ⊢
  exact result_open_eq_ok_iff.2 ⟨source, hdial, rfl⟩

/-- A visit records the peer that its session has after the handshake. -/
theorem peer_meet {c : Crawler}
    (h : (Session.open host c.config p localId localTime).result = .ok s) :
    ((c.meet host localId localTime p.endpoint).result.outcome p).1.peer
      = (s.handshake c.peerTimeout).2.peer := by
  have hopened : (Session.open host c.config (.ofEndpoint p.endpoint) localId localTime).result
      = .ok (s.withPeer (.ofEndpoint p.endpoint)) := open_withPeer (p := p) rfl h
  have hresult := handshake_withPeer (.ofEndpoint p.endpoint) s c.peerTimeout
  rw [peer_handshake, peer_open h]
  simp only [Crawler.meet, hopened, hresult]
  cases (s.handshake c.peerTimeout).1 <;> rfl

/-- **What is known of the peer.** After any run of a session the peer is the one before it with what each
handshake told that succeeded, once for each and in order. The endpoint stays the same, and nothing that
is known is lost. A call that comes to no directory, be it a handshake that fails or no handshake at all,
leaves the peer as it is. And whatever is known of a peer, a visit to it records just the peer that its
session has after the handshake. -/
theorem peer_of_run (s : Session) (calls : List Call) :
    let results := (s.callAll calls).1
    let s' := (s.callAll calls).2
    s'.peer = (results.filterMap Call.Result.directory?).foldl Peer.told s.peer ∧
    s.peer.KnownIn s'.peer ∧
    (∀ c : Call, (s'.call c).1.directory? = none → (s'.call c).2.peer = s'.peer) ∧
    ∀ (c : Crawler) (host : Host) (p : Peer) (localId localTime : UInt64) (opened : Session),
      (Session.open host c.config p localId localTime).result = .ok opened →
      ((c.meet host localId localTime p.endpoint).result.outcome p).1.peer
        = (opened.handshake c.peerTimeout).2.peer := by
  intro results s'
  have hpeer : s'.peer = (results.filterMap Call.Result.directory?).foldl Peer.told s.peer :=
    peer_callAll s calls
  refine ⟨hpeer, ?_, fun c hnone => ?_, fun c host p localId localTime opened => peer_meet⟩
  · rw [hpeer]
    exact s.peer.knownIn_foldl_told _
  · rw [peer_call, hnone]
    rfl

end Session

end LevinNet
