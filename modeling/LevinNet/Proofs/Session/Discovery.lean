import LevinNet.Proofs.Directory.Roots
import LevinNet.Proofs.Frame.Written
import LevinNet.Proofs.Session.Exchange
import LevinNet.Proofs.Storage.NormalForm

/-
What a node lists is what a handshake comes to.

   1. A storage response is a frame with the tree of its root (`storage_of_response`), and frames that
      arrive in whatever parts are the frames that were written (`frames_of_written`).
   2. So the reply to a handshake that carries a list of peers, behind frames that are none, gives the
      directory of that list (`handshake_discovers`).
-/
namespace LevinNet

open Storage (Section)

namespace Message

variable {command : UInt32} {code : Int32} {root : Section} {reply : Message}

/-- A tree that can be written and read again is the tree of the response that carries it. -/
theorem storage_of_response (h : storageResponse command code root = .ok reply)
    (huniform : root.Uniform) (hshallow : root.depth ≤ Storage.maxDepth) :
    reply.storage = .ok root := by
  obtain ⟨payload, hpayload, hreply⟩ := Storage.bind_eq_ok.1 h
  obtain ⟨body, hbody, hencode⟩ := Storage.bind_eq_ok.1 hpayload
  cases hencode
  cases hreply
  exact Storage.blob_of_form ⟨Storage.form_of_encode (.object root) body hbody huniform, hshallow⟩

/-- The header of a storage response. -/
theorem header_of_response (h : storageResponse command code root = .ok reply) :
    reply.header = {
      length := UInt64.ofNat reply.payload.length
      expectsResponse := false
      command
      returnCode := code
      flags := .response
      version := 0 } := by
  obtain ⟨payload, -, hreply⟩ := Storage.bind_eq_ok.1 h
  cases hreply
  rfl

/-- A response announces its payload. -/
theorem fits_of_response {ceiling : Nat} (h : storageResponse command code root = .ok reply)
    (hshort : reply.payload.length ≤ FrameReader.longest ceiling) : reply.Fits ceiling where
  announced := by
    have hlength : reply.payload.length < UInt64.size :=
      Nat.lt_of_le_of_lt (Nat.le_trans hshort (Nat.min_le_right ..)) (by decide)
    rw [header_of_response h]
    exact (UInt64.toNat_ofNat_of_lt' hlength).symm
  short := hshort

end Message

namespace Frame

theorem beforeError_append (ms : List Message) (outcomes : List (Except FrameError Message)) :
    beforeError (ms.map .ok ++ outcomes) = ms ++ beforeError outcomes := by
  induction ms with
  | nil => rfl
  | cons m ms ih => rw [List.map_cons, List.cons_append, beforeError, ih, List.cons_append]

end Frame

namespace Session

variable {s : Session} {got behind : Bytes} {limit : Nat}

/-- In whatever parts written frames arrive, they are the frames that are read. -/
theorem frames_of_written {ms : List Message} (h : ∀ m ∈ ms, m.Fits s.config.ceiling)
    (harrival : (s.arrival got limit).state = Message.encodeAll ms ++ behind) :
    s.frames got limit = ms ++ Frame.beforeError (Frame.parse s.config.ceiling behind).1 := by
  rw [frames, harrival, Frame.parse_encodeAll h, Frame.beforeError_append]

/-- **Discovery.** A session is open, its sink takes all writes, and within the wait there arrive, in
whatever parts, some frames that are no reply and then a storage response to the handshake that is no
failure, with no payload longer than the reader takes. If its root carries a list of peers, in whatever shapes
and widths, then the handshake succeeds, and its directory keeps the last listed peer of each endpoint
and no others, drops nothing, and says of the node and its chain what the root says. -/
theorem handshake_discovers {root : Section} {ps : List Peer} {node : NodeInfo} {chain : ChainInfo}
    {code : Int32} {reply : Message} {others : List Message} (hs : s.Open got)
    (hroom : s.sink.room = none) (hid : s.config.chain.topId.length = 32)
    (hcarries : Directory.Carries root ps node chain) (huniform : root.Uniform)
    (hshallow : root.depth ≤ Storage.maxDepth) (hcode : 0 ≤ code)
    (hreply : Message.storageResponse Command.handshake.id code root = .ok reply)
    (hshort : reply.payload.length ≤ FrameReader.longest s.config.ceiling)
    (hothers : ∀ m ∈ others, replies isHandshake m = false ∧ m.Fits s.config.ceiling)
    (wait : Duration) (harrival : (s.arrival got (s.clock + wait.nanos)).state
      = Message.encodeAll (others ++ [reply]) ++ behind) :
    ∃ d, (s.handshake wait).1 = .ok d ∧ d.Keeps ps node chain := by
  have hheader := Message.header_of_response hreply
  have hanswers : replies isHandshake reply = true := by
    have hflags : Flags.contains .response .response = true := by decide
    rw [replies, hheader, Header.isResponse, isHandshake, hflags, beq_self_eq_true, Bool.and_self]
  have hfits : ∀ m ∈ others ++ [reply], m.Fits s.config.ceiling := by
    intro m hm
    rcases List.mem_append.1 hm with hm | hm
    · exact (hothers m hm).2
    · exact List.mem_singleton.1 hm ▸ Message.fits_of_response hreply hshort
  have hframes := frames_of_written hfits harrival
  rw [List.append_assoc, List.singleton_append] at hframes
  obtain ⟨request, hrequest⟩ := exists_request s.config s.localTime s.localId hid
  obtain ⟨peer, hhandshake⟩ := handshake_eq hrequest wait
  obtain ⟨-, hresult⟩ := (exchange_exchanged hs hroom isHandshake request wait).replied _ _ _
    hframes (fun m hm => (hothers m hm).1) hanswers
  have hok : ¬ reply.header.returnCode < 0 := by
    rw [hheader]
    exact Int32.not_lt.2 hcode
  refine ⟨Directory.ofSection root, ?_, Directory.keeps_of_carries hcarries⟩
  rw [hhandshake, hresult, if_neg hok]
  simp only [Except.bind, directoryOf, Message.storage_of_response hreply huniform hshallow]

/-- Three entries in the three shapes, of which the last is about the same endpoint as the first. -/
def threeShapes : List Directory.Entry := [
  { peer := { ip := ⟨1, 2, 3, 4⟩, port := 18080, id := some 7 }, shape := .number, ipWidth := .eight,
    portWidth := .four },
  { peer := { ip := ⟨5, 6, 7, 8⟩, port := 18081, rpcPort := some 18089 }, shape := .octets },
  { peer := { ip := ⟨1, 2, 3, 4⟩, port := 18080, id := some 9 }, shape := .beside, idWidth := .one }]

/-- The root that lists them, with a height and no more beside them. -/
def shapesRoot : Section :=
  Directory.rootOf threeShapes {} { height := some 3100000 } .two .eight .four .one

/-- The reply that carries this root. -/
def shapesReply : Message :=
  match Message.storageResponse Command.handshake.id 0 shapesRoot with
  | .ok reply => reply
  | .error _ => bareReply

/-- A session in which this reply comes behind a question, and in two parts. -/
def shapesListed : Session :=
  start (.nonListening .mainnet) { ip := ⟨1, 1, 1, 1⟩, port := 18080 } 7 9
    ⟨[.bytes ((Message.request .supportFlags true).encode ++ shapesReply.encode.take 40), .silence 3,
      .bytes (shapesReply.encode.drop 40)], .silent⟩ {}

/-- The directory has two peers: of the endpoint that is listed twice it has the later one. -/
theorem handshake_discovers_shapesListed : ∃ d,
    (shapesListed.handshake ⟨5⟩).1 = .ok d ∧ d.dropped = 0 ∧ d.size = 2 ∧
    d.chain = { height := some 3100000 } ∧
    d.peers.get? (Endpoint.text ⟨⟨1, 2, 3, 4⟩, 18080⟩)
      = some { ip := ⟨1, 2, 3, 4⟩, port := 18080, id := some 9 } ∧
    d.peers.get? (Endpoint.text ⟨⟨5, 6, 7, 8⟩, 18081⟩)
      = some { ip := ⟨5, 6, 7, 8⟩, port := 18081, rpcPort := some 18089 } := by
  have hlistable : ∀ e ∈ threeShapes, e.Listable := by
    simp only [threeShapes, List.forall_mem_cons]
    refine ⟨?_, ?_, ?_, fun e he => absurd he List.not_mem_nil⟩
    all_goals
      refine ⟨by decide, by decide, ⟨rfl, rfl⟩, by decide, by decide, ?_, ?_⟩ <;>
        simp [Directory.Width.Holds, Directory.Width.bound]
  have hcarries : Directory.Carries shapesRoot (threeShapes.map Directory.Entry.peer) {}
      { height := some 3100000 } ∧ shapesRoot.Uniform ∧ shapesRoot.depth ≤ Storage.maxDepth := by
    apply Directory.carries_rootOf hlistable <;>
      simp [Directory.Width.Holds, Directory.Width.bound]
  have hothers : ∀ m ∈ [Message.request .supportFlags true],
      replies isHandshake m = false ∧ m.Fits shapesListed.config.ceiling := by
    intro m hm
    cases List.mem_singleton.1 hm
    exact ⟨by decide, rfl, Nat.zero_le _⟩
  have harrival : (shapesListed.arrival [] 5).state
      = Message.encodeAll [.request .supportFlags true, shapesReply] ++ [] := by
    have harrived : (shapesListed.arrival [] 5).state
        = ((Message.request .supportFlags true).encode ++ shapesReply.encode.take 40)
          ++ shapesReply.encode.drop 40 := rfl
    rw [harrived, List.append_assoc, List.take_append_drop]
    simp [Message.encodeAll]
  obtain ⟨hcarries, huniform, hshallow⟩ := hcarries
  have hcode : (0 : Int32) ≤ 0 := by decide
  have hreply : Message.storageResponse Command.handshake.id 0 shapesRoot = .ok shapesReply := rfl
  have hshort : shapesReply.payload.length ≤ FrameReader.longest shapesListed.config.ceiling := by
    decide +kernel
  obtain ⟨d, hresult, hkeeps⟩ := handshake_discovers (s := shapesListed) (open_start _ _ _ _ _ _) rfl
    rfl hcarries huniform hshallow hcode hreply hshort hothers ⟨5⟩ harrival
  refine ⟨d, hresult, hkeeps.dropped, ?_, hkeeps.chain, ?_, ?_⟩
  · rw [hkeeps.size]
    rfl
  · rw [hkeeps.last]
    rfl
  · rw [hkeeps.last]
    rfl

end Session

end LevinNet
