import LevinNet.Proofs.Directory.Listing

/-
What a directory makes of whatever stands in a peer list.

   1. `Keepable` says which elements give a peer, in terms of the numbers and bytes in their fields, and
      `Describes` says what every field of the peer is. An element gives a peer if and only if it is
      keepable (`isSome_peerOf_iff`), and it gives just the peer that it describes (`peerOf_eq_some_iff`).
   2. A list of elements is put into a directory one by one: those that give a peer are inserted, and the
      others are counted (`foldl_add_eq`).
   3. So the kept and the dropped elements of a root are all of its elements, and each address has the
      peer of the last kept element with it (`ofSection_accounts`).
-/
namespace LevinNet

open Storage (Value Section)

namespace Directory

/-! ## Elements -/

/-- The number `x` is the one that stands under a name, if it is unsigned and in this range, and there
is none if it is not. -/
def Reads (s : Section) (name : String) (low bound : Nat) (x : Option Nat) : Prop :=
  ∀ n, x = some n ↔ Gives s name (some n) ∧ low ≤ n ∧ n < bound

/-- An unsigned number that is a port stands under a name. -/
def GivesPort (s : Section) (name : String) : Prop :=
  ∃ n, Gives s name (some n) ∧ 1 ≤ n ∧ n ≤ 65535

/-- Four bytes stand under a name. -/
def GivesOctets (s : Section) (name : String) : Prop :=
  ∃ bytes, s.value? name = some (.string bytes) ∧ bytes.length = 4

/-- An `adr` section gives an address and a port, in one of the three shapes. -/
inductive Locatable (adr : Section) : Prop where
  | number {addr : Section} {raw : Nat} (haddr : adr.value? "addr" = some (.object addr))
    (hip : Gives addr "m_ip" (some raw)) (hsmall : raw < 0x100000000)
    (hport : GivesPort addr "m_port")
  | octets {addr : Section} (haddr : adr.value? "addr" = some (.object addr))
    (hno : Section.value? addr "m_ip" = none) (hip : GivesOctets addr "addr")
    (hport : GivesPort addr "m_port")
  | beside (hip : GivesOctets adr "addr") (hport : GivesPort adr "m_port")

/-- Whether a list element is kept: it is an object, and its `adr` gives an address and a port. -/
def Keepable (item : Value) : Prop :=
  ∃ entry adr : Section, item = .object entry ∧ entry.value? "adr" = some (.object adr) ∧ Locatable adr

/-- `item` is an entry for the peer `p`. Each field of the peer is the number that its own field writes:
the address and the port as `adr` locates them, the id and the RPC port if they can be read. -/
structure Describes (item : Value) (p : Peer) : Prop where
  entry : ∃ entry adr : Section, item = .object entry ∧ entry.value? "adr" = some (.object adr) ∧
    Locates p.endpoint adr ∧ Reads entry "id" 0 0x10000000000000000 (p.id.map UInt64.toNat) ∧
    Reads entry "rpc_port" 1 0x10000 (p.rpcPort.map UInt16.toNat)
  port : p.port ≠ 0
  bare : p.height = none ∧ p.version = none

/-- The elements of the peer list of a root: those of the first value of its name, if that is an array. -/
inductive Elements (root : Section) : List Value → Prop where
  | array {k : Storage.Kind} {items : List Value}
    (h : root.value? "local_peerlist_new" = some (.array k items)) : Elements root items
  | absent (h : ∀ k items, root.value? "local_peerlist_new" ≠ some (.array k items)) :
    Elements root []

/-! ## Numbers -/

variable {s adr : Section} {name : String} {v : Value} {e : Endpoint} {n : Nat}

theorem unsigned?_eq_some_iff : v.unsigned? = some n ↔ Writes n v := by
  refine ⟨fun h => ?_, unsigned?_of_writes⟩
  cases v <;> cases h <;> constructor

theorem numberBelow_eq_some_iff {bound : Nat} :
    numberBelow bound v = some n ↔ Writes n v ∧ n < bound := by
  rw [numberBelow, Option.filter_eq_some_iff, unsigned?_eq_some_iff, decide_eq_true_iff]

/-- What is read of a number is that number, if it can be read at all. -/
theorem reads_of_read {α : Type} {toNat : α → Nat} {read : Value → Option α} {low bound : Nat}
    (hread : ∀ v n, (read v).map toNat = some n ↔ Writes n v ∧ low ≤ n ∧ n < bound)
    (s : Section) (name : String) :
    Reads s name low bound (((s.value? name).bind read).map toNat) := by
  intro n
  rw [Gives]
  cases s.value? name with
  | none => simp
  | some v => simp [hread]

/-- A number below the bound is read into a word that holds it, and nothing else is. -/
theorem toNat_map_iff {α : Type} {toNat : α → Nat} {ofNat : Nat → α} {bound : Nat}
    (hword : ∀ {n : Nat}, n < bound → toNat (ofNat n) = n) :
    ((numberBelow bound v).map ofNat).map toNat = some n ↔ Writes n v ∧ 0 ≤ n ∧ n < bound := by
  rw [Option.map_map, Option.map_eq_some_iff]
  constructor
  · rintro ⟨m, hm, rfl⟩
    obtain ⟨hwrites, hlt⟩ := numberBelow_eq_some_iff.1 hm
    rw [Function.comp_apply, hword hlt]
    exact ⟨hwrites, Nat.zero_le _, hlt⟩
  · rintro ⟨hwrites, -, hlt⟩
    exact ⟨n, numberBelow_eq_some_iff.2 ⟨hwrites, hlt⟩, hword hlt⟩

theorem reads_word (s : Section) (name : String) :
    Reads s name 0 0x10000000000000000 (((s.value? name).bind word?).map UInt64.toNat) :=
  reads_of_read (fun _ _ => toNat_map_iff UInt64.toNat_ofNat_of_lt') s name

theorem reads_port (s : Section) (name : String) :
    Reads s name 0 0x10000 (((s.value? name).bind port?).map UInt16.toNat) :=
  reads_of_read (fun _ _ => toNat_map_iff UInt16.toNat_ofNat_of_lt') s name

/-- A port that is zero counts as none. -/
theorem reads_nonzero_port (s : Section) (name : String) : Reads s name 1 0x10000
    ((((s.value? name).bind port?).filter (· ≠ 0)).map UInt16.toNat) := by
  intro n
  have hport := reads_port s name n
  simp only [Option.map_eq_some_iff, Option.filter_eq_some_iff, decide_eq_true_iff] at hport ⊢
  have hpos : ∀ p : UInt16, p ≠ 0 ↔ 1 ≤ p.toNat := by
    intro p
    rw [Nat.one_le_iff_ne_zero, ne_eq, ne_eq, ← UInt16.toNat_inj, UInt16.toNat_zero]
  constructor
  · rintro ⟨p, ⟨hp, hne⟩, rfl⟩
    obtain ⟨hgives, -, hlt⟩ := hport.1 ⟨p, hp, rfl⟩
    exact ⟨hgives, (hpos p).1 hne, hlt⟩
  · rintro ⟨hgives, hlow, hlt⟩
    obtain ⟨p, hp, rfl⟩ := hport.2 ⟨hgives, Nat.zero_le _, hlt⟩
    exact ⟨p, ⟨hp, (hpos p).2 hlow⟩, rfl⟩

/-- There is one number at most that is read. -/
theorem Reads.unique {low bound : Nat} {x y : Option Nat} (hx : Reads s name low bound x)
    (hy : Reads s name low bound y) : x = y :=
  Option.ext fun n => (hx n).trans (hy n).symm

theorem port?_eq_some_iff {p : UInt16} : port? v = some p ↔ Writes p.toNat v := by
  refine ⟨fun h => ?_, port?_of_writes⟩
  have hread := (toNat_map_iff (v := v) (n := p.toNat) UInt16.toNat_ofNat_of_lt').1
    (congrArg (Option.map UInt16.toNat) h)
  exact hread.1

/-! ## Addresses -/

theorem toNat_ofRaw {raw : Nat} (h : raw < 0x100000000) :
    Bytes.toNat (Ipv4.ofRaw (UInt32.ofNat raw)).octets = raw := by
  simp only [Ipv4.ofRaw, Ipv4.octets, Bytes.toNat, UInt8.toNat_ofNat', UInt32.toNat_ofNat']
  omega

theorem ofOctets?_eq_some_iff {bytes : Bytes} {ip : Ipv4} :
    Ipv4.ofOctets? bytes = some ip ↔ bytes = ip.octets := by
  constructor
  · intro h
    unfold Ipv4.ofOctets? at h
    split at h
    · cases h
      rfl
    · cases h
  · rintro rfl
    exact ofOctets?_octets ip

theorem octets?_eq_some_iff {ip : Ipv4} : octets? v = some ip ↔ v = .string ip.octets := by
  cases v <;> simp [octets?, Value.bytes?, ofOctets?_eq_some_iff]

theorem gives_of_port {p : UInt16} (h : (s.value? name).bind port? = some p) :
    Gives s name (some p.toNat) := by
  obtain ⟨v, hv, hport⟩ := Option.bind_eq_some_iff.1 h
  exact ⟨v, hv, port?_eq_some_iff.1 hport⟩

/-- Whatever is read of an `adr` section stands in it, in one of the three shapes. -/
theorem locates_of_endpoint? (h : endpoint? adr = some e) : Locates e adr := by
  simp only [endpoint?, Option.bind_eq_bind, Option.bind_eq_some_iff] at h
  obtain ⟨v, haddr, h⟩ := h
  split at h
  · next addr =>
    split at h
    · next raw hraw =>
      obtain ⟨ip, hip, h⟩ := Option.bind_eq_some_iff.1 h
      obtain ⟨port, hport, h⟩ := Option.bind_eq_some_iff.1 h
      cases h
      obtain ⟨n, hn, rfl⟩ := Option.map_eq_some_iff.1 hip
      obtain ⟨hwrites, hlt⟩ := numberBelow_eq_some_iff.1 hn
      refine .number haddr ⟨raw, hraw, ?_⟩ (gives_of_port hport)
      rwa [toNat_ofRaw hlt]
    · next hno =>
      obtain ⟨ip, hip, h⟩ := Option.bind_eq_some_iff.1 h
      obtain ⟨port, hport, h⟩ := Option.bind_eq_some_iff.1 h
      cases h
      obtain ⟨v, hv, hoctets⟩ := Option.bind_eq_some_iff.1 hip
      exact .octets haddr hno (octets?_eq_some_iff.1 hoctets ▸ hv) (gives_of_port hport)
  · next bytes =>
    obtain ⟨ip, hip, h⟩ := Option.bind_eq_some_iff.1 h
    obtain ⟨port, hport, h⟩ := Option.bind_eq_some_iff.1 h
    cases h
    exact .beside (ofOctets?_eq_some_iff.1 hip ▸ haddr) (gives_of_port hport)
  · cases h

theorem endpoint?_eq_some_iff : endpoint? adr = some e ↔ Locates e adr :=
  ⟨locates_of_endpoint?, endpoint?_of_locates⟩

theorem givesPort_iff : GivesPort s name ↔ ∃ p : UInt16, p ≠ 0 ∧ Gives s name (some p.toNat) := by
  constructor
  · rintro ⟨n, hgives, hlow, hhigh⟩
    have hn : (UInt16.ofNat n).toNat = n := UInt16.toNat_ofNat_of_lt' (Nat.lt_succ_of_le hhigh)
    refine ⟨UInt16.ofNat n, fun hzero => ?_, by rwa [hn]⟩
    rw [hzero, UInt16.toNat_zero] at hn
    omega
  · rintro ⟨p, hne, hgives⟩
    have hpos : p.toNat ≠ 0 := fun hzero => hne (UInt16.toNat_inj.1 hzero)
    exact ⟨p.toNat, hgives, by omega, Nat.le_of_lt_succ p.toNat_lt⟩

theorem givesOctets_iff : GivesOctets s name ↔ ∃ ip : Ipv4, s.value? name = some (.string ip.octets) := by
  constructor
  · rintro ⟨bytes, hbytes, hlen⟩
    obtain ⟨a, b, c, d, rfl⟩ := List.length_eq_four.1 hlen
    exact ⟨⟨a, b, c, d⟩, hbytes⟩
  · rintro ⟨ip, hip⟩
    exact ⟨ip.octets, hip, rfl⟩

/-- What an `adr` section gives is an endpoint with a port. -/
theorem locatable_iff : Locatable adr ↔ ∃ e : Endpoint, e.port ≠ 0 ∧ Locates e adr := by
  constructor
  · intro h
    cases h with
    | @number addr raw haddr hip hsmall hport =>
      obtain ⟨p, hne, hgives⟩ := givesPort_iff.1 hport
      refine ⟨⟨Ipv4.ofRaw (UInt32.ofNat raw), p⟩, hne, .number haddr ?_ hgives⟩
      rwa [toNat_ofRaw hsmall]
    | octets haddr hno hip hport =>
      obtain ⟨p, hne, hgives⟩ := givesPort_iff.1 hport
      obtain ⟨ip, hip⟩ := givesOctets_iff.1 hip
      exact ⟨⟨ip, p⟩, hne, .octets haddr hno hip hgives⟩
    | beside hip hport =>
      obtain ⟨p, hne, hgives⟩ := givesPort_iff.1 hport
      obtain ⟨ip, hip⟩ := givesOctets_iff.1 hip
      exact ⟨⟨ip, p⟩, hne, .beside hip hgives⟩
  · rintro ⟨e, hne, h⟩
    cases h with
    | number haddr hip hport =>
      exact .number haddr hip (octets_lt e.ip) (givesPort_iff.2 ⟨_, hne, hport⟩)
    | octets haddr hno hip hport =>
      exact .octets haddr hno (givesOctets_iff.2 ⟨_, hip⟩) (givesPort_iff.2 ⟨_, hne, hport⟩)
    | beside hip hport =>
      exact .beside (givesOctets_iff.2 ⟨_, hip⟩) (givesPort_iff.2 ⟨_, hne, hport⟩)

/-! ## Entries -/

variable {entry : Section} {item : Value} {p : Peer}

theorem section?_eq_some_iff {data : Section} :
    s.section? name = some data ↔ s.value? name = some (.object data) := by
  rw [Section.section?, Option.bind_eq_some_iff]
  constructor
  · rintro ⟨v, hv, hdata⟩
    cases v <;> cases hdata
    exact hv
  · intro h
    exact ⟨_, h, rfl⟩

theorem peerOfEntry_eq_some_iff : peerOfEntry entry = some p ↔
    ∃ adr e, entry.value? "adr" = some (.object adr) ∧ Locates e adr ∧ e.port ≠ 0 ∧
      p = { Peer.ofEndpoint e with
        id := (entry.value? "id").bind word?
        rpcPort := ((entry.value? "rpc_port").bind port?).filter (· ≠ 0) } := by
  simp only [peerOfEntry, Option.bind_eq_bind, Option.bind_eq_some_iff, section?_eq_some_iff,
    endpoint?_eq_some_iff]
  constructor
  · rintro ⟨adr, hadr, e, he, h⟩
    split at h
    · cases h
    · next hne =>
      cases h
      exact ⟨adr, e, hadr, he, hne, rfl⟩
  · rintro ⟨adr, e, hadr, he, hne, rfl⟩
    refine ⟨adr, hadr, e, he, ?_⟩
    rw [if_neg hne]
    rfl

theorem peerOf_eq_some_iff : peerOf item = some p ↔ Describes item p := by
  rw [peerOf, Option.bind_eq_some_iff]
  constructor
  · rintro ⟨entry, hentry, h⟩
    obtain ⟨adr, e, hadr, he, hne, rfl⟩ := peerOfEntry_eq_some_iff.1 h
    refine ⟨⟨entry, adr, ?_, hadr, he, reads_word entry "id", reads_nonzero_port entry "rpc_port"⟩,
      hne, rfl, rfl⟩
    cases item <;> cases hentry
    rfl
  · rintro ⟨⟨entry, adr, rfl, hadr, he, hid, hrpc⟩, hport, hheight, hversion⟩
    refine ⟨entry, rfl, peerOfEntry_eq_some_iff.2 ⟨adr, p.endpoint, hadr, he, hport, ?_⟩⟩
    have hid := Option.map_injective (fun _ _ => UInt64.toNat_inj.1) (hid.unique (reads_word entry "id"))
    have hrpc := Option.map_injective (fun _ _ => UInt16.toNat_inj.1)
      (hrpc.unique (reads_nonzero_port entry "rpc_port"))
    cases p
    cases hheight
    cases hversion
    rw [Peer.mk.injEq]
    exact ⟨rfl, rfl, hid, hrpc, rfl, rfl⟩

theorem isSome_peerOf_iff : (peerOf item).isSome = true ↔ Keepable item := by
  rw [Option.isSome_iff_exists]
  constructor
  · rintro ⟨p, hp⟩
    obtain ⟨⟨entry, adr, rfl, hadr, he, -⟩, hport, -⟩ := peerOf_eq_some_iff.1 hp
    exact ⟨entry, adr, rfl, hadr, locatable_iff.2 ⟨_, hport, he⟩⟩
  · rintro ⟨entry, adr, rfl, hadr, hlocatable⟩
    obtain ⟨e, hne, he⟩ := locatable_iff.1 hlocatable
    exact ⟨_, peerOfEntry_eq_some_iff.2 ⟨adr, e, hadr, he, hne, rfl⟩⟩

instance : DecidablePred Keepable := fun _ => decidable_of_iff _ isSome_peerOf_iff

/-! ## The directory -/

/-- Elements are put into a directory one by one: those that give a peer are inserted, and the others
are counted. -/
theorem foldl_add_eq (items : List Value) (d : Directory) : items.foldl add d = { d with
    peers := insertAll (items.filterMap peerOf) d.peers
    dropped := d.dropped + items.countP fun item => ¬ (peerOf item).isSome = true } := by
  induction items generalizing d with
  | nil => rfl
  | cons item items ih =>
    rw [List.foldl_cons, ih, add]
    cases h : peerOf item with
    | some p => simp [h, insertAll]
    | none =>
      simp only [h, List.filterMap_cons, List.countP_cons]
      simp [Nat.add_assoc, Nat.add_comm 1]

/-- The peers that are taken from a list are those of its kept elements. -/
theorem describes_filterMap (items : List Value) :
    List.Forall₂ Describes (items.filter (Keepable ·)) (items.filterMap peerOf) := by
  induction items with
  | nil => exact .nil
  | cons item items ih =>
    rw [List.filter_cons, List.filterMap_cons]
    cases h : peerOf item with
    | some p =>
      have hkept : Keepable item := isSome_peerOf_iff.1 (by rw [h]; rfl)
      rw [if_pos (decide_eq_true hkept)]
      exact .cons (peerOf_eq_some_iff.1 h) ih
    | none =>
      have hdropped : ¬ Keepable item := by
        rw [← isSome_peerOf_iff, h]
        exact Bool.false_ne_true
      rw [if_neg (by rwa [decide_eq_true_iff])]
      exact ih

theorem elements_listed (root : Section) : Elements root (listed root) := by
  rw [listed]
  cases h : root.value? "local_peerlist_new" with
  | none => exact .absent fun k items heq => by rw [h] at heq; cases heq
  | some v =>
    cases v with
    | array k items => exact .array h
    | _ => exact .absent fun k items heq => by rw [h] at heq; cases heq

/-- A peer of a directory is one of the peers that are taken from its list, under its own address. -/
theorem mem_of_get?_ofSection {root : Section} {key : String}
    (h : (ofSection root).peers.get? key = some p) :
    p ∈ (listed root).filterMap peerOf ∧ p.address = key := by
  rw [ofSection, foldl_add_eq] at h
  change (insertAll _ .empty).get? key = some p at h
  rw [get?_insertAll, AddressMap.get?_empty, Option.or_none] at h
  have haddress := List.find?_some h
  exact ⟨List.mem_reverse.1 (List.mem_of_find?_eq_some h), of_decide_eq_true haddress⟩

/-- What a directory `d` makes of the elements of a list, of which the kept ones describe the peers `ps`,
in this order. -/
structure Accounts (d : Directory) (items : List Value) (ps : List Peer) : Prop where
  kept : List.Forall₂ Describes (items.filter (Keepable ·)) ps
  /-- Each element is kept or counted as dropped. -/
  dropped : d.dropped + (items.filter (Keepable ·)).length = items.length
  /-- Each peer stands under its own address. -/
  own : ∀ key p, d.peers.get? key = some p → p ∈ ps ∧ p.address = key
  /-- Under the text of an endpoint stands the last peer with it. -/
  last : ∀ e : Endpoint, d.peers.get? e.text = ps.reverse.find? (·.endpoint = e)
  /-- There is one peer for each endpoint. -/
  size : d.size = (ps.map Peer.endpoint).dedup.length

/-- **Accounting.** Whatever stands in a root section, each element of its peer list is kept or counted
as dropped, and an element is kept if and only if it gives an address and a port in one of the three
shapes. The directory holds one peer for each address that a kept element gives, under this address, and
it is just what the last of these elements describes: each of its numbers is the number in its field,
and a number that does not fit is none. -/
theorem ofSection_accounts (root : Section) :
    ∃ items ps, Elements root items ∧ (ofSection root).Accounts items ps := by
  refine ⟨listed root, (listed root).filterMap peerOf, elements_listed root, ?_⟩
  have hkept := describes_filterMap (listed root)
  refine ⟨hkept, ?_, fun key p => mem_of_get?_ofSection, fun e => ?_, ?_⟩
  · rw [ofSection, foldl_add_eq]
    change 0 + _ + _ = _
    rw [hkept.length_eq, List.length_filterMap_eq_countP, Nat.zero_add, Nat.add_comm]
    exact (List.length_eq_countP_add_countP _).symm
  · rw [ofSection, foldl_add_eq]
    exact get?_text_insertAll _ e
  · rw [ofSection, foldl_add_eq]
    exact size_insertAll_endpoint _

/-- The port 18080 in two bytes is a port, and a number with these lower two bytes is none. -/
example :
    let item (port : Value) : Value :=
      .object [("adr", .object [("addr", .string [10, 0, 0, 1]), ("m_port", port)])]
    Keepable (item (.uint16 18080)) ∧ ¬ Keepable (item (.uint32 83616)) := by
  decide

end Directory

end LevinNet
