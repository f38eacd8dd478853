import LevinNet.Proofs.Net.EndpointText
import LevinNet.Directory
import Mathlib.Data.List.Forall2
import Mathlib.Data.List.Dedup

/-
What a directory makes of a root section that lists some peers.

   1. `Writes` is a number in any unsigned width, `Locates` an endpoint in any of the three shapes, and
      `Lists` an entry of a peer. A section may hold more than what is read of it, in any order.
   2. Each of these is read back (`unsigned?_of_writes`, `endpoint?_of_locates`, `peerOf_of_lists`).
   3. So the directory of a root that carries some peers drops no entry, and holds the last listed peer
      of each address and no others (`ofSection_of_carries`, `get?_insertAll`).
-/
namespace LevinNet

open Storage (Value Section Kind)

namespace Directory

/-! ## Roots that carry a list of peers -/

/-- `v` is the number `n` in one of the unsigned widths. -/
inductive Writes : (n : Nat) → (v : Value) → Prop where
  | uint8 (n : UInt8) : Writes n.toNat (.uint8 n)
  | uint16 (n : UInt16) : Writes n.toNat (.uint16 n)
  | uint32 (n : UInt32) : Writes n.toNat (.uint32 n)
  | uint64 (n : UInt64) : Writes n.toNat (.uint64 n)

/-- A section gives this number under a name, or nothing at all. -/
def Gives (s : Section) (name : String) : Option Nat → Prop
  | none => s.value? name = none
  | some n => ∃ v, s.value? name = some v ∧ Writes n v

/-- `adr` gives the endpoint `e` in one of the three shapes: an object with the number whose lowest byte
is the first octet, an object with the four octets, or the four octets with the port beside them. -/
inductive Locates (e : Endpoint) (adr : Section) : Prop where
  | number {addr : Section} (haddr : adr.value? "addr" = some (.object addr))
    (hip : Gives addr "m_ip" (some (Bytes.toNat e.ip.octets)))
    (hport : Gives addr "m_port" (some e.port.toNat))
  | octets {addr : Section} (haddr : adr.value? "addr" = some (.object addr))
    (hno : Section.value? addr "m_ip" = none)
    (hip : Section.value? addr "addr" = some (.string e.ip.octets))
    (hport : Gives addr "m_port" (some e.port.toNat))
  | beside (hip : adr.value? "addr" = some (.string e.ip.octets))
    (hport : Gives adr "m_port" (some e.port.toNat))

/-- `item` is an entry for the peer `p`, of which an entry tells no more than the endpoint, the id and
the RPC port. -/
structure Lists (p : Peer) (item : Value) : Prop where
  entry : ∃ (entry adr : Section), item = .object entry ∧ entry.section? "adr" = some adr ∧
    Locates p.endpoint adr ∧ Gives entry "id" (p.id.map UInt64.toNat) ∧
    Gives entry "rpc_port" (p.rpcPort.map UInt16.toNat)
  port : p.port ≠ 0
  rpcPort : p.rpcPort ≠ some 0
  bare : p.height = none ∧ p.version = none

/-- What a root says in the section `name`; a root without it says nothing. -/
def Says (root : Section) (name : String) (fields : List (String × Option Nat)) : Prop :=
  match root.section? name with
  | some data => ∀ field ∈ fields, Gives data field.1 field.2
  | none => ∀ field ∈ fields, field.2 = none

/-- A root section that lists the peers `ps` in this order and says this of its node and its chain. -/
structure Carries (root : Section) (ps : List Peer) (node : NodeInfo) (chain : ChainInfo) : Prop where
  peers : ∃ k items, root.value? "local_peerlist_new" = some (.array k items) ∧
    List.Forall₂ Lists ps items
  node : Says root "node_data"
    [("rpc_port", node.rpcPort.map UInt16.toNat), ("peer_id", node.peerId.map UInt64.toNat)]
  chain : Says root "payload_data"
    [("current_height", chain.height.map UInt64.toNat), ("top_version", chain.version.map UInt8.toNat)]

/-! ## Numbers -/

theorem unsigned?_of_writes {n : Nat} {v : Value} (h : Writes n v) : v.unsigned? = some n := by
  cases h <;> rfl

/-- A number below the bound is read, whatever it is read into. -/
theorem numberBelow_of_writes {bound n : Nat} {v : Value} (h : Writes n v) (hn : n < bound) :
    numberBelow bound v = some n := by
  simp only [numberBelow, unsigned?_of_writes h, Option.filter_some, decide_eq_true hn, if_true]

theorem port?_of_writes {p : UInt16} {v : Value} (h : Writes p.toNat v) : port? v = some p := by
  rw [port?, numberBelow_of_writes h p.toNat_lt, Option.map_some, UInt16.ofNat_toNat]

theorem byte?_of_writes {b : UInt8} {v : Value} (h : Writes b.toNat v) :
    (numberBelow (0x100) v).map UInt8.ofNat = some b := by
  rw [numberBelow_of_writes h b.toNat_lt, Option.map_some, UInt8.ofNat_toNat]

theorem word?_of_writes {w : UInt64} {v : Value} (h : Writes w.toNat v) : word? v = some w := by
  rw [word?, numberBelow_of_writes h w.toNat_lt, Option.map_some, UInt64.ofNat_toNat]

/-- A field is read with what reads its numbers, and an absent one is none. -/
theorem bind_of_gives {α : Type} {toNat : α → Nat} {read : Value → Option α} {s : Section}
    {name : String} {x : Option α} (hread : ∀ {a v}, Writes (toNat a) v → read v = some a)
    (h : Gives s name (x.map toNat)) : (s.value? name).bind read = x := by
  cases x with
  | none =>
    have hnone : s.value? name = none := h
    rw [hnone]
    rfl
  | some a =>
    obtain ⟨v, hv, hwrites⟩ := h
    rw [hv, Option.bind_some, hread hwrites]

/-! ## Entries -/

/-- The number of four octets holds the address that they are. -/
theorem ofRaw_octets (ip : Ipv4) : Ipv4.ofRaw (UInt32.ofNat (Bytes.toNat ip.octets)) = ip := by
  obtain ⟨a, b, c, d⟩ := ip
  have ha := a.toNat_lt
  have hb := b.toNat_lt
  have hc := c.toNat_lt
  have hd := d.toNat_lt
  simp only [Ipv4.ofRaw, Ipv4.octets, Bytes.toNat, Ipv4.mk.injEq, ← UInt8.toNat_inj,
    UInt8.toNat_ofNat', UInt32.toNat_ofNat']
  omega

theorem octets_lt (ip : Ipv4) : Bytes.toNat ip.octets < 0x100000000 := Bytes.toNat_lt ip.octets

theorem ofOctets?_octets (ip : Ipv4) : Ipv4.ofOctets? ip.octets = some ip := rfl

/-- The same octets give the same address in every shape. -/
theorem endpoint?_of_locates {e : Endpoint} {adr : Section} (h : Locates e adr) :
    endpoint? adr = some e := by
  have hread : ∀ {s : Section}, Gives s "m_port" (some e.port.toNat) →
      (s.value? "m_port").bind port? = some e.port :=
    fun hport => bind_of_gives (x := some e.port) port?_of_writes hport
  cases h with
  | number haddr hip hport =>
    obtain ⟨raw, hraw, hwrites⟩ := hip
    simp [endpoint?, haddr, hraw, numberBelow_of_writes hwrites (octets_lt e.ip), ofRaw_octets,
      hread hport]
  | octets haddr hno hip hport =>
    simp [endpoint?, haddr, hno, hip, octets?, Value.bytes?, ofOctets?_octets, hread hport]
  | beside hip hport => simp [endpoint?, hip, ofOctets?_octets, hread hport]

theorem peerOf_of_lists {p : Peer} {item : Value} (h : Lists p item) : peerOf item = some p := by
  obtain ⟨⟨entry, adr, rfl, hadr, hlocates, hid, hrpc⟩, hport, hnot, hbare⟩ := h
  have hid := bind_of_gives word?_of_writes hid
  have hrpc := bind_of_gives port?_of_writes hrpc
  have hfilter : p.rpcPort.filter (· ≠ 0) = p.rpcPort := by
    cases hp : p.rpcPort with
    | none => rfl
    | some rpc =>
      have hne : rpc ≠ 0 := fun hrpc => hnot (hrpc ▸ hp)
      rw [Option.filter_some, if_pos (decide_eq_true hne)]
  have hzero : ¬ p.endpoint.port = 0 := hport
  cases p
  obtain ⟨rfl, rfl⟩ := hbare
  simp only [peerOf, Value.section?, Option.bind_some, peerOfEntry, hadr, Option.bind_eq_bind,
    endpoint?_of_locates hlocates, hid, hrpc, hfilter, hzero, if_false]
  rfl

/-! ## The directory -/

variable {root : Section} {ps : List Peer} {node : NodeInfo} {chain : ChainInfo}

/-- The map that some peers make, put into a map one after the other. -/
def insertAll (ps : List Peer) (m : AddressMap Peer) : AddressMap Peer :=
  ps.foldl (fun m p => m.insert p.address p) m

theorem foldl_add {items : List Value} (h : List.Forall₂ Lists ps items) (d : Directory) :
    items.foldl add d = { d with peers := insertAll ps d.peers } := by
  induction h generalizing d with
  | nil => rfl
  | cons hfirst _ ih =>
    rw [List.foldl_cons, ih, add, peerOf_of_lists hfirst]
    rfl

theorem nodeInfo_of_carries (h : Carries root ps node chain) : nodeInfo root = node := by
  have hnode := h.node
  rw [Says] at hnode
  rw [nodeInfo]
  cases hdata : root.section? "node_data" with
  | none =>
    simp only [hdata, List.forall_mem_cons, Option.map_eq_none_iff] at hnode
    obtain ⟨hrpc, hid, -⟩ := hnode
    cases node
    cases hrpc
    cases hid
    rfl
  | some data =>
    simp only [hdata, List.forall_mem_cons] at hnode
    obtain ⟨hrpc, hid, -⟩ := hnode
    simp only [bind_of_gives port?_of_writes hrpc, bind_of_gives word?_of_writes hid]

theorem chainInfo_of_carries (h : Carries root ps node chain) : chainInfo root = chain := by
  have hchain := h.chain
  rw [Says] at hchain
  rw [chainInfo]
  cases hdata : root.section? "payload_data" with
  | none =>
    simp only [hdata, List.forall_mem_cons, Option.map_eq_none_iff] at hchain
    obtain ⟨hheight, hversion, -⟩ := hchain
    cases chain
    cases hheight
    cases hversion
    rfl
  | some data =>
    simp only [hdata, List.forall_mem_cons] at hchain
    obtain ⟨hheight, hversion, -⟩ := hchain
    have hversion := bind_of_gives byte?_of_writes hversion
    simp only [bind_of_gives word?_of_writes hheight, Option.map_bind, Function.comp_def, hversion]

/-- The directory of a root that lists some peers is those peers, and what the root says. -/
theorem ofSection_of_carries (h : Carries root ps node chain) :
    ofSection root = { peers := insertAll ps .empty, node, chain, dropped := 0 } := by
  obtain ⟨k, items, hlist, hitems⟩ := h.peers
  have hlisted : listed root = items := by
    simp only [listed, hlist, Option.bind_some, Value.array?]
  rw [ofSection, hlisted, foldl_add hitems, nodeInfo_of_carries h, chainInfo_of_carries h]

/-- Under each address stands the last peer with it. -/
theorem get?_insertAll (ps : List Peer) (m : AddressMap Peer) (key : String) :
    (insertAll ps m).get? key = (ps.reverse.find? (·.address = key)).or (m.get? key) := by
  induction ps generalizing m with
  | nil => rfl
  | cons p ps ih =>
    have hinsert := ih (m.insert p.address p)
    rw [AddressMap.get?_insert] at hinsert
    rw [insertAll, List.foldl_cons]
    rw [insertAll] at hinsert
    rw [hinsert, List.reverse_cons, List.find?_append, Option.or_assoc]
    by_cases hkey : p.address = key <;> simp [hkey]

/-- The map has the addresses of the peers for keys. -/
theorem contains_insertAll (ps : List Peer) (key : String) :
    (insertAll ps .empty).contains key = true ↔ key ∈ ps.map Peer.address := by
  rw [AddressMap.contains, get?_insertAll, AddressMap.get?_empty, Option.or_none,
    List.find?_isSome, List.mem_map]
  simp

/-- It has one entry for each of them. -/
theorem size_insertAll (ps : List Peer) :
    (insertAll ps .empty).size = (ps.map Peer.address).dedup.length := by
  have hnodup : (insertAll ps .empty).keys.Nodup :=
    List.pairwise_map.2 ((insertAll ps .empty).sorted.imp fun hlt => Std.ne_of_lt hlt)
  have hkeys : (insertAll ps .empty).keys.Perm (ps.map Peer.address).dedup := by
    refine (List.perm_ext_iff_of_nodup hnodup (List.nodup_dedup _)).2 fun key => ?_
    rw [AddressMap.mem_keys_iff, contains_insertAll, List.mem_dedup]
  rw [← hkeys.length_eq, AddressMap.keys, List.length_map, AddressMap.size]

/-- As the text of an endpoint tells which it is, under it stands the last peer with this endpoint. -/
theorem get?_text_insertAll (ps : List Peer) (e : Endpoint) :
    (insertAll ps .empty).get? e.text = ps.reverse.find? (·.endpoint = e) := by
  rw [get?_insertAll, AddressMap.get?_empty, Option.or_none]
  simp only [Peer.address, Endpoint.text_inj]

/-- There is one entry for each endpoint. -/
theorem size_insertAll_endpoint (ps : List Peer) :
    (insertAll ps .empty).size = (ps.map Peer.endpoint).dedup.length := by
  have htext : ps.map Peer.address = (ps.map Peer.endpoint).map Endpoint.text := by
    rw [List.map_map]
    rfl
  rw [size_insertAll, htext, List.dedup_map_of_injective fun _ _ htexts => Endpoint.text_inj.1 htexts,
    List.length_map]

/-- A directory that keeps the peers `ps`, the last of each endpoint, and what was said of the node and
its chain, and nothing else. -/
structure Keeps (d : Directory) (ps : List Peer) (node : NodeInfo) (chain : ChainInfo) : Prop where
  dropped : d.dropped = 0
  node : d.node = node
  chain : d.chain = chain
  /-- Under the text of an endpoint stands the last peer with it. -/
  last : ∀ e : Endpoint, d.peers.get? e.text = ps.reverse.find? (·.endpoint = e)
  /-- There are no other keys. -/
  keys : ∀ key, d.peers.contains key = true ↔ ∃ p ∈ ps, p.endpoint.text = key
  size : d.size = (ps.map Peer.endpoint).dedup.length

theorem keeps_of_carries (h : Carries root ps node chain) : (ofSection root).Keeps ps node chain := by
  rw [ofSection_of_carries h]
  refine ⟨rfl, rfl, rfl, get?_text_insertAll ps, fun key => ?_, size_insertAll_endpoint ps⟩
  rw [contains_insertAll, List.mem_map]
  rfl

end Directory

end LevinNet
