import LevinNet.Proofs.Directory.Listing
import LevinNet.Proofs.Storage.RoundTrip

/-
A root section for every list of peers: each entry in a shape of its own, each number in any width that
holds it, and beside them what a node says of itself and its chain. Such a root carries the list, its
arrays are uniform and it is nested no deeper than is read (`carries_rootOf`).
-/
namespace LevinNet

open Storage (Value Section Kind)

namespace Directory

/-! ## Fields in any width -/

/-- The unsigned widths. -/
inductive Width where
  | one | two | four | eight
  deriving DecidableEq, Repr

namespace Width

/-- How many numbers a width can write. -/
def bound : Width → Nat
  | one => 0x100
  | two => 0x10000
  | four => 0x100000000
  | eight => 0x10000000000000000

/-- A number as a value of this width. -/
def write : Width → Nat → Value
  | one, n => .uint8 (UInt8.ofNat n)
  | two, n => .uint16 (UInt16.ofNat n)
  | four, n => .uint32 (UInt32.ofNat n)
  | eight, n => .uint64 (UInt64.ofNat n)

/-- Whether a width holds a number, if there is one. -/
def Holds (w : Width) (n : Option Nat) : Prop := ∀ x ∈ n, x < w.bound

theorem writes_write {w : Width} {n : Nat} (h : n < w.bound) : Writes n (w.write n) := by
  cases w with
  | one =>
    have hwrites := Writes.uint8 (UInt8.ofNat n)
    rwa [UInt8.toNat_ofNat_of_lt' h] at hwrites
  | two =>
    have hwrites := Writes.uint16 (UInt16.ofNat n)
    rwa [UInt16.toNat_ofNat_of_lt' h] at hwrites
  | four =>
    have hwrites := Writes.uint32 (UInt32.ofNat n)
    rwa [UInt32.toNat_ofNat_of_lt' h] at hwrites
  | eight =>
    have hwrites := Writes.uint64 (UInt64.ofNat n)
    rwa [UInt64.toNat_ofNat_of_lt' h] at hwrites

theorem uniform_write (w : Width) (n : Nat) : (w.write n).Uniform := by
  cases w <;> trivial

theorem depth_write (w : Width) (n : Nat) : (w.write n).depth = 0 := by
  cases w <;> rfl

end Width

/-- A number under a name, or nothing. -/
def field (name : String) (w : Width) : Option Nat → Section
  | none => []
  | some n => [(name, w.write n)]

/-- Two fields are given side by side, if their widths hold them. -/
theorem gives_fields {name name' : String} {w w' : Width} {n n' : Option Nat} (hne : name ≠ name')
    (h : w.Holds n) (h' : w'.Holds n') :
    Gives (field name w n ++ field name' w' n') name n ∧
      Gives (field name w n ++ field name' w' n') name' n' := by
  cases n <;> cases n' <;> simp_all [field, Gives, Section.value?, Width.Holds, Width.writes_write, Ne.symm]

theorem gives_cons {name name' : String} {v : Value} {s : Section} {n : Option Nat}
    (hne : name' ≠ name) (h : Gives s name n) : Gives ((name', v) :: s) name n := by
  have hvalue : Section.value? ((name', v) :: s) name = s.value? name := by
    simp [Section.value?, hne]
  cases n with
  | none => exact hvalue.trans h
  | some n =>
    obtain ⟨v, hv, hwrites⟩ := h
    exact ⟨v, hvalue.trans hv, hwrites⟩

theorem uniform_fields (name name' : String) (w w' : Width) (n n' : Option Nat) :
    (field name w n ++ field name' w' n').Uniform := by
  cases n <;> cases n' <;>
    simp [field, Section.Uniform, Value.UniformEntries, Width.uniform_write]

theorem depth_fields (name name' : String) (w w' : Width) (n n' : Option Nat) :
    Value.entriesDepth (field name w n ++ field name' w' n') = 0 := by
  cases n <;> cases n' <;> simp [field, Value.entriesDepth, Width.depth_write]

/-! ## Entries in any shape -/

/-- The three shapes of an address. -/
inductive Shape where
  | number | octets | beside
  deriving DecidableEq, Repr

/-- A peer, and how it is to be listed. -/
structure Entry where
  peer : Peer
  shape : Shape
  ipWidth : Width := .four
  portWidth : Width := .two
  idWidth : Width := .eight
  rpcWidth : Width := .two

namespace Entry

/-- The address of the peer in its shape. -/
def adr (e : Entry) : Section :=
  let port := ("m_port", e.portWidth.write e.peer.port.toNat)
  match e.shape with
  | .number =>
    [("addr", .object [("m_ip", e.ipWidth.write (Bytes.toNat e.peer.ip.octets)), port])]
  | .octets => [("addr", .object [("addr", .string e.peer.ip.octets), port])]
  | .beside => [("addr", .string e.peer.ip.octets), port]

def «section» (e : Entry) : Section :=
  ("adr", .object e.adr) :: (field "id" e.idWidth (e.peer.id.map UInt64.toNat) ++
    field "rpc_port" e.rpcWidth (e.peer.rpcPort.map UInt16.toNat))

/-- Whether the peer can be listed so: it has a port, an entry tells all that is known of it, and the
widths hold the numbers. -/
structure Listable (e : Entry) : Prop where
  port : e.peer.port ≠ 0
  rpcPort : e.peer.rpcPort ≠ some 0
  bare : e.peer.height = none ∧ e.peer.version = none
  holdsIp : e.shape = .number → Bytes.toNat e.peer.ip.octets < e.ipWidth.bound
  holdsPort : e.peer.port.toNat < e.portWidth.bound
  holdsId : e.idWidth.Holds (e.peer.id.map UInt64.toNat)
  holdsRpc : e.rpcWidth.Holds (e.peer.rpcPort.map UInt16.toNat)

theorem locates_adr {e : Entry} (h : e.Listable) : Locates e.peer.endpoint e.adr := by
  have hport := Width.writes_write h.holdsPort
  rw [adr]
  cases hshape : e.shape with
  | number => exact .number rfl ⟨_, rfl, Width.writes_write (h.holdsIp hshape)⟩ ⟨_, rfl, hport⟩
  | octets => exact .octets rfl rfl rfl ⟨_, rfl, hport⟩
  | beside => exact .beside rfl ⟨_, rfl, hport⟩

theorem lists_section {e : Entry} (h : e.Listable) : Lists e.peer (.object e.section) where
  entry := by
    obtain ⟨hgives, hgives'⟩ :=
      gives_fields (by decide : "id" ≠ "rpc_port") h.holdsId h.holdsRpc
    exact ⟨_, e.adr, rfl, rfl, locates_adr h, gives_cons (by decide) hgives,
      gives_cons (by decide) hgives'⟩
  port := h.port
  rpcPort := h.rpcPort
  bare := h.bare

theorem uniform_section (e : Entry) : e.section.Uniform := by
  refine ⟨?_, uniform_fields ..⟩
  rw [adr]
  cases e.shape <;> simp [Value.Uniform, Value.UniformEntries, Width.uniform_write]

theorem depth_section (e : Entry) : (Value.object e.section).depth ≤ 3 := by
  have hadr : Value.entriesDepth e.adr ≤ 1 := by
    rw [adr]
    cases e.shape <;> simp [Value.depth, Value.entriesDepth, Width.depth_write]
  simp only [«section», Value.depth, Value.entriesDepth, depth_fields]
  omega

end Entry

/-! ## The root -/

/-- A root section that lists some peers, each in its shape, and says this of the node and its chain in
these widths. -/
def rootOf (es : List Entry) (node : NodeInfo) (chain : ChainInfo) (rpc id height version : Width) :
    Section :=
  [("node_data", .object (field "rpc_port" rpc (node.rpcPort.map UInt16.toNat) ++
      field "peer_id" id (node.peerId.map UInt64.toNat))),
    ("payload_data", .object (field "current_height" height (chain.height.map UInt64.toNat) ++
      field "top_version" version (chain.version.map UInt8.toNat))),
    ("local_peerlist_new", Value.ofSections (es.map Entry.section))]

theorem says_fields {root : Section} {part name name' : String} {w w' : Width}
    {n n' : Option Nat}
    (hsection : root.section? part = some (field name w n ++ field name' w' n'))
    (hne : name ≠ name') (h : w.Holds n) (h' : w'.Holds n') :
    Says root part [(name, n), (name', n')] := by
  obtain ⟨hgives, hgives'⟩ := gives_fields hne h h'
  simp only [Says, hsection, List.forall_mem_cons]
  exact ⟨hgives, hgives', fun field hfield => absurd hfield (List.not_mem_nil)⟩

/-- **A root for every list.** All peers with a port can be listed, in whatever shapes and widths hold
them, and the root can be written and read. -/
theorem carries_rootOf {es : List Entry} {node : NodeInfo} {chain : ChainInfo}
    {rpc id height version : Width} (hes : ∀ e ∈ es, e.Listable)
    (hrpc : rpc.Holds (node.rpcPort.map UInt16.toNat))
    (hid : id.Holds (node.peerId.map UInt64.toNat))
    (hheight : height.Holds (chain.height.map UInt64.toNat))
    (hversion : version.Holds (chain.version.map UInt8.toNat)) :
    let root := rootOf es node chain rpc id height version
    Carries root (es.map Entry.peer) node chain ∧ root.Uniform ∧ root.depth ≤ Storage.maxDepth := by
  refine ⟨⟨⟨.object, _, rfl, ?_⟩, ?_, ?_⟩, ?_, ?_⟩
  · rw [List.map_map, List.forall₂_map_left_iff, List.forall₂_map_right_iff, List.forall₂_same]
    exact fun e he => Entry.lists_section (hes e he)
  · exact says_fields rfl (by decide) hrpc hid
  · exact says_fields rfl (by decide) hheight hversion
  · refine ⟨uniform_fields .., uniform_fields .., Storage.uniform_ofSections ?_, trivial⟩
    intro s hs
    obtain ⟨e, -, rfl⟩ := List.mem_map.1 hs
    exact e.uniform_section
  · have hitems : Value.itemsDepth ((es.map Entry.section).map .object) ≤ 3 := by
      clear hes
      induction es with
      | nil => exact Nat.zero_le _
      | cons e es ih => exact Nat.max_le.2 ⟨e.depth_section, ih⟩
    simp only [rootOf, Section.depth, Value.entriesDepth, Value.depth, Value.ofSections,
      depth_fields, Storage.maxDepth]
    omega

end Directory

end LevinNet
