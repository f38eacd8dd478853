import LevinNet.Proofs.Directory.Accounting
import LevinNet.Proofs.Session.Metadata
import LevinNet.Proofs.Session.Pairing

/-
Where an RPC port of zero comes from.

   1. No peer that a directory lists has the RPC port zero, as an entry with a zero has none
      (`rpcPort_of_listed`). What a node says of itself is taken as it stands: its RPC port is zero if a
      zero stands in its data, and only then (`rpcPort_node_iff`).
   2. A peer with a known RPC port that is told of no other keeps its own, unless it is told of a zero
      (`rpcPort_told`).
   3. A handshake tells what some root carries (`exists_root_of_handshake`). So in a run a zero comes from
      a handshake with a zero in the node's data, and from nothing else (`zero_rpcPort_of_run`).
-/
namespace LevinNet

open Storage (Value Section)

namespace Directory

variable {root : Section}

/-- The node's own data in a root gives the number `n` for the RPC port. -/
def SaysRpcPort (root : Section) (n : Nat) : Prop :=
  ∃ data : Section, root.value? "node_data" = some (.object data) ∧ Gives data "rpc_port" (some n)

/-- An entry for a peer with an RPC port of zero is an entry for one without. -/
theorem rpcPort_of_describes {item : Value} {p : Peer} (h : Describes item p) :
    p.rpcPort ≠ some 0 := by
  obtain ⟨entry, adr, -, -, -, -, hrpc⟩ := h.entry
  intro hzero
  rw [hzero] at hrpc
  obtain ⟨-, hlow, -⟩ := (hrpc 0).1 rfl
  exact absurd hlow (Nat.not_succ_le_zero 0)

theorem rpcPort_of_listed {key : String} {p : Peer}
    (h : (ofSection root).peers.get? key = some p) : p.rpcPort ≠ some 0 := by
  obtain ⟨item, -, hitem⟩ := List.mem_filterMap.1 (mem_of_get?_ofSection h).1
  exact rpcPort_of_describes (peerOf_eq_some_iff.1 hitem)

/-- What a node says of its RPC port is taken as it stands. -/
theorem rpcPort_node_iff {r : UInt16} :
    (ofSection root).node.rpcPort = some r ↔ SaysRpcPort root r.toNat := by
  have hnode : (ofSection root).node = nodeInfo root := by
    rw [ofSection, foldl_add_eq]
  rw [hnode, nodeInfo, SaysRpcPort]
  cases hdata : root.section? "node_data" with
  | none =>
    constructor
    · intro h
      cases h
    · rintro ⟨data, hvalue, -⟩
      rw [section?_eq_some_iff.2 hvalue] at hdata
      cases hdata
  | some data =>
    have hvalue := section?_eq_some_iff.1 hdata
    have hread := reads_port data "rpc_port" r.toNat
    rw [Option.map_eq_some_iff] at hread
    constructor
    · intro h
      exact ⟨data, hvalue, (hread.1 ⟨r, h, rfl⟩).1⟩
    · rintro ⟨data', hvalue', hgives⟩
      rw [hvalue] at hvalue'
      cases hvalue'
      obtain ⟨r', hr', heq⟩ := hread.2 ⟨hgives, Nat.zero_le _, r.toNat_lt⟩
      rwa [UInt16.toNat_inj.1 heq] at hr'

end Directory

namespace Peer

open LevinNet.Directory (SaysRpcPort ofSection rpcPort_node_iff)

/-- A peer that is told of no RPC port but zero keeps the port that is known, unless it is told of a
zero. -/
theorem rpcPort_told {root : Section} {p : Peer} {port : UInt16} (hknown : p.rpcPort = some port)
    (hport : port ≠ 0) (hother : ∀ r : UInt16, r ≠ 0 → ¬ SaysRpcPort root r.toNat) :
    ((p.told (ofSection root)).rpcPort = some port ↔ ¬ SaysRpcPort root 0) ∧
      ((p.told (ofSection root)).rpcPort = some 0 ↔ SaysRpcPort root 0) := by
  have htold : (p.told (ofSection root)).rpcPort = (ofSection root).node.rpcPort.or (some port) := by
    rw [← hknown]
    rfl
  have hzero : (ofSection root).node.rpcPort = some 0 ↔ SaysRpcPort root 0 := rpcPort_node_iff
  rw [htold, ← hzero]
  cases hnode : (ofSection root).node.rpcPort with
  | none => simp [hport]
  | some r =>
    obtain rfl : r = 0 := by
      by_contra hr
      exact hother r hr (rpcPort_node_iff.1 hnode)
    simp [hport.symm]

/-- A peer gets an RPC port of zero from a directory that tells it. -/
theorem exists_zero_of_foldl_told {p : Peer} {ds : List Directory} (hp : p.rpcPort ≠ some 0)
    (hzero : (ds.foldl told p).rpcPort = some 0) : ∃ d ∈ ds, d.node.rpcPort = some 0 := by
  induction ds generalizing p with
  | nil => exact absurd hzero hp
  | cons d ds ih =>
    by_cases hd : d.node.rpcPort = some 0
    · exact ⟨d, List.mem_cons_self, hd⟩
    · have htold : (p.told d).rpcPort ≠ some 0 := by
        change d.node.rpcPort.or p.rpcPort ≠ some 0
        cases hnode : d.node.rpcPort with
        | none => exact hp
        | some r => rwa [hnode] at hd
      obtain ⟨d', hmem, hd'⟩ := ih htold hzero
      exact ⟨d', List.mem_cons_of_mem _ hmem, hd'⟩

end Peer

namespace Session

open LevinNet.Directory (SaysRpcPort ofSection rpcPort_node_iff rpcPort_of_listed)

/-- A handshake comes to what some root carries. -/
theorem exists_root_of_handshake {s : Session} {wait : Duration} {d : Directory}
    (h : (s.handshake wait).1 = .ok d) : ∃ root, d = ofSection root := by
  obtain ⟨e, hrefused⟩ | ⟨request, peer, hhandshake⟩ := handshake_cases s wait
  · rw [hrefused] at h
    cases h
  · rw [hhandshake] at h
    cases hmade : (s.exchange isHandshake request wait).1 with
    | error e =>
      rw [hmade] at h
      cases h
    | ok m =>
      rw [hmade] at h
      change directoryOf m = .ok d at h
      rw [directoryOf] at h
      cases hroot : m.storage with
      | error e =>
        rw [hroot] at h
        cases h
      | ok root =>
        rw [hroot] at h
        cases h
        exact ⟨root, rfl⟩

/-- So does every handshake of a run. -/
theorem exists_root_of_run {d : Directory} (s : Session) (calls : List Call)
    (h : .operation (.handshake (.ok d)) ∈ (s.callAll calls).1) : ∃ root, d = ofSection root := by
  induction calls generalizing s with
  | nil => cases h
  | cons c calls ih =>
    obtain hcall | hrest := List.mem_cons.1 h
    · cases c with
      | operation op =>
        cases op with
        | handshake wait =>
          change Call.Result.operation _ = .operation (.handshake (s.handshake wait).1) at hcall
          injection hcall with hcall
          injection hcall with hcall
          exact exists_root_of_handshake hcall.symm
        | ping wait | receive wait => cases hcall
      | send m | close => cases hcall
    · exact ih _ hrest

/-- A session that was opened without the RPC port zero has it after a run only if a zero stood in the
node's data in a reply to a handshake of the run. -/
theorem zero_rpcPort_of_run (s : Session) (calls : List Call) (hs : s.peer.rpcPort ≠ some 0)
    (hzero : (s.callAll calls).2.peer.rpcPort = some 0) :
    ∃ root, .operation (.handshake (.ok (ofSection root))) ∈ (s.callAll calls).1 ∧
      SaysRpcPort root 0 := by
  rw [peer_callAll] at hzero
  obtain ⟨d, hmem, hd⟩ := Peer.exists_zero_of_foldl_told hs hzero
  obtain ⟨result, hresult, hdirectory⟩ := List.mem_filterMap.1 hmem
  obtain rfl := Call.Result.directory?_eq_some_iff.1 hdirectory
  obtain ⟨root, rfl⟩ := exists_root_of_run s calls hresult
  exact ⟨root, hresult, rpcPort_node_iff.1 hd⟩

/-- **Zero RPC ports.** Whatever stands in a root:

1. no peer that is listed has the RPC port zero;
2. what the node says of itself has it if a zero stands in the node's data, and only then;
3. a handshake that comes to what the root carries tells it to the peer of its session, and a visit to
   the peer that it records;
4. a peer with a known RPC port other than zero, told of no other by the node's data, keeps its own
   unless it is told of a zero, which it then has;
5. whatever is called on a session, its peer gets the RPC port zero from a handshake with a zero in the
   node's data, and from nothing else. -/
theorem zero_rpcPort_of_node (root : Section) :
    (∀ key p, (ofSection root).peers.get? key = some p → p.rpcPort ≠ some 0) ∧
    ((ofSection root).node.rpcPort = some 0 ↔ SaysRpcPort root 0) ∧
    (∀ (s : Session) (wait : Duration), (s.handshake wait).1 = .ok (ofSection root) →
      (s.handshake wait).2.peer = s.peer.told (ofSection root) ∧
      ((Reply.directory (ofSection root)).outcome s.peer).1.peer = s.peer.told (ofSection root)) ∧
    (∀ (p : Peer) (port : UInt16), p.rpcPort = some port → port ≠ 0 →
      (∀ r : UInt16, r ≠ 0 → ¬ SaysRpcPort root r.toNat) →
      ((p.told (ofSection root)).rpcPort = some port ↔ ¬ SaysRpcPort root 0) ∧
      ((p.told (ofSection root)).rpcPort = some 0 ↔ SaysRpcPort root 0)) ∧
    ∀ (s : Session) (calls : List Call), s.peer.rpcPort ≠ some 0 →
      (s.callAll calls).2.peer.rpcPort = some 0 →
      ∃ told, .operation (.handshake (.ok (ofSection told))) ∈ (s.callAll calls).1 ∧
        SaysRpcPort told 0 := by
  refine ⟨fun key p => rpcPort_of_listed, rpcPort_node_iff, fun s wait h => ⟨?_, rfl⟩,
    fun p port => Peer.rpcPort_told, zero_rpcPort_of_run⟩
  rw [peer_handshake, h]

/-- A root in which a node says that its RPC port is zero. -/
def zeroRoot : Section := [("node_data", .object [("rpc_port", .uint16 0)])]

/-- The node has the RPC port zero, and what was known of it is lost. -/
theorem zero_rpcPort_of_node_zeroRoot :
    let known : Peer := { ip := ⟨1, 1, 1, 1⟩, port := 18080, rpcPort := some 18089 }
    (ofSection zeroRoot).node.rpcPort = some 0 ∧
    (known.told (ofSection zeroRoot)).rpcPort = some 0 ∧
    ((Reply.directory (ofSection zeroRoot)).outcome known).1.peer.rpcPort = some 0 :=
  ⟨rfl, rfl, rfl⟩

end Session

end LevinNet
