import LevinNet.Proofs.Directory.Accounting

/-
What a directory does not depend on: the order of the fields, and the fields that it does not name.

   1. A directory is read from sections of six levels. `LooksUp` says which names are looked up in a
      section of a level, and `Level.see` is what is made of one. Sections with the same first values of
      these names are seen the same (`see_congr`), and of a section inside another one no more is taken
      than what is seen of it (`see_inside`, `see_element`).
   2. `Rearranged` puts together all changes of order and all insertions of other names, at any level.
      None of them is seen (`see_of_rearranged`), and at the root that is the directory
      (`ofSection_congr`).
   3. The order of the list itself tells only which peer of an address is the last (`find?_of_perm`), so
      another order keeps the addresses, and the peers of the addresses that are listed once
      (`ofSection_rearranged`).
-/
namespace LevinNet

open Storage (Value Section Kind)

namespace Directory

/-! ## Levels -/

/-- The sections that a directory is read from. -/
inductive Level where
  | root
  /-- The replying node's own data. -/
  | node
  /-- The data of its chain. -/
  | chain
  /-- An entry of the peer list. -/
  | entry
  | adr
  | addr

/-- Where the section of another level stands in a section. -/
inductive Level.Inside : Level → String → Level → Prop where
  | node : Level.Inside .root "node_data" .node
  | chain : Level.Inside .root "payload_data" .chain
  | adr : Level.Inside .entry "adr" .adr
  | addr : Level.Inside .adr "addr" .addr

/-- An `addr` section gives an address: as a number, or in four bytes if there is nothing under the
name of the number. -/
inductive GivesIp (addr : Section) : Prop where
  | number {raw : Nat} (hip : Gives addr "m_ip" (some raw)) (hsmall : raw < 0x100000000)
  | octets (hno : addr.value? "m_ip" = none) (hip : GivesOctets addr "addr")

/-- The names that are looked up in a section of a level. A port is looked up behind an address, and
the id and the RPC port of an entry behind its address and its port. -/
inductive LooksUp : Level → Section → String → Prop where
  | nodeData (s : Section) : LooksUp .root s "node_data"
  | payloadData (s : Section) : LooksUp .root s "payload_data"
  | peerList (s : Section) : LooksUp .root s "local_peerlist_new"
  | nodeRpcPort (s : Section) : LooksUp .node s "rpc_port"
  | peerId (s : Section) : LooksUp .node s "peer_id"
  | height (s : Section) : LooksUp .chain s "current_height"
  | version (s : Section) : LooksUp .chain s "top_version"
  | adr (s : Section) : LooksUp .entry s "adr"
  | id {s : Section} : Keepable (.object s) → LooksUp .entry s "id"
  | rpcPort {s : Section} : Keepable (.object s) → LooksUp .entry s "rpc_port"
  | addr (s : Section) : LooksUp .adr s "addr"
  | portBeside {s : Section} : GivesOctets s "addr" → LooksUp .adr s "m_port"
  | ip (s : Section) : LooksUp .addr s "m_ip"
  | octets {s : Section} : s.value? "m_ip" = none → LooksUp .addr s "addr"
  | port {s : Section} : GivesIp s → LooksUp .addr s "m_port"

/-- `s'` is `s` but for the order of entries and for entries that are not looked up, in the section
itself and in the sections of the levels below. -/
inductive Rearranged : Level → Section → Section → Prop where
  | refl (level : Level) (s : Section) : Rearranged level s s
  | trans {level : Level} {s s' s'' : Section} :
    Rearranged level s s' → Rearranged level s' s'' → Rearranged level s s''
  /-- Of the entries of one name the same comes first. -/
  | reorder {level : Level} {s s' : Section} :
    s.Perm s' → (∀ name, s'.value? name = s.value? name) → Rearranged level s s'
  | insert {level : Level} {before after : Section} {name : String} {v : Value} :
    ¬ LooksUp level (before ++ after) name →
    Rearranged level (before ++ after) (before ++ (name, v) :: after)
  | inside {level inner : Level} {before after : Section} {name : String} {s s' : Section} :
    level.Inside name inner → Rearranged inner s s' →
    Rearranged level (before ++ (name, .object s) :: after) (before ++ (name, .object s') :: after)
  | element {before after : Section} {k : Kind} {first later : List Value} {s s' : Section} :
    Rearranged .entry s s' →
    Rearranged .root
      (before ++ ("local_peerlist_new", .array k (first ++ .object s :: later)) :: after)
      (before ++ ("local_peerlist_new", .array k (first ++ .object s' :: later)) :: after)

/-! ## First values -/

variable {before after s s' : Section} {name key : String} {v v' : Value}

theorem value?_append (s s' : Section) (key : String) :
    Section.value? (s ++ s') key = (s.value? key).or (s'.value? key) := by
  rw [Section.value?, List.find?_append, Option.map_or]
  rfl

theorem value?_cons (name : String) (v : Value) (s : Section) (key : String) :
    Section.value? ((name, v) :: s) key = if name = key then some v else s.value? key := by
  by_cases h : name = key
  · simp [Section.value?, h]
  · have hne : (name == key) = false := beq_false_of_ne h
    simp only [Section.value?, List.find?_cons, hne, h, if_false]

/-- Another name is looked up as if the entry were not there. -/
theorem value?_insert_of_ne (h : name ≠ key) :
    Section.value? (before ++ (name, v) :: after) key = Section.value? (before ++ after) key := by
  rw [value?_append, value?_append, value?_cons, if_neg h]

/-- An entry is the first of its name, or there is one before it. -/
theorem value?_replace (before after : Section) (name : String) (v v' : Value) :
    (∀ key, Section.value? (before ++ (name, v') :: after) key =
      Section.value? (before ++ (name, v) :: after) key) ∨
    Section.value? (before ++ (name, v) :: after) name = some v ∧
      Section.value? (before ++ (name, v') :: after) name = some v' ∧
      ∀ key, name ≠ key → Section.value? (before ++ (name, v') :: after) key =
        Section.value? (before ++ (name, v) :: after) key := by
  have hother : ∀ key, name ≠ key → Section.value? (before ++ (name, v') :: after) key =
      Section.value? (before ++ (name, v) :: after) key := by
    intro key hne
    rw [value?_insert_of_ne hne, value?_insert_of_ne hne]
  cases hbefore : before.value? name with
  | none =>
    refine .inr ⟨?_, ?_, hother⟩
    · rw [value?_append, hbefore, value?_cons, if_pos rfl, Option.none_or]
    · rw [value?_append, hbefore, value?_cons, if_pos rfl, Option.none_or]
  | some w =>
    refine .inl fun key => ?_
    by_cases hkey : name = key
    · rw [← hkey, value?_append, value?_append, hbefore, Option.some_or, Option.some_or]
    · exact hother key hkey

/-- Two neighbours of different names may change places. -/
theorem Rearranged.swap {level : Level} {name name' : String} (hne : name ≠ name') (v v' : Value)
    (before after : Section) : Rearranged level (before ++ (name, v) :: (name', v') :: after)
      (before ++ (name', v') :: (name, v) :: after) := by
  refine .reorder ((List.Perm.swap _ _ _).append_left before) fun key => ?_
  simp only [value?_append, value?_cons]
  by_cases hkey : name = key
  · have hkey' : ¬ name' = key := fun h => hne (hkey.trans h.symm)
    simp only [hkey, hkey', if_true, if_false]
  · simp only [hkey, if_false]

/-! ## What is seen of a section -/

/-- The address of an `addr` section. -/
def ip? (addr : Section) : Option Ipv4 :=
  match addr.value? "m_ip" with
  | some raw => (numberBelow (0x100000000) raw).map fun n => Ipv4.ofRaw (UInt32.ofNat n)
  | none => (addr.value? "addr").bind octets?

/-- An address with the port that stands in a section. -/
def withPort (s : Section) (ip : Ipv4) : Option Endpoint := do
  let port ← (s.value? "m_port").bind port?
  return ⟨ip, port⟩

/-- The peer at an endpoint, with what an entry tells of it. -/
def peerAt (entry : Section) (e : Endpoint) : Peer :=
  { Peer.ofEndpoint e with
    id := (entry.value? "id").bind word?
    rpcPort := ((entry.value? "rpc_port").bind port?).filter (· ≠ 0) }

theorem endpoint?_eq (adr : Section) : endpoint? adr =
    match adr.value? "addr" with
    | some (.object addr) => (ip? addr).bind (withPort addr)
    | some (.string bytes) => (Ipv4.ofOctets? bytes).bind (withPort adr)
    | _ => none := by
  rw [endpoint?]
  cases adr.value? "addr" with
  | none => rfl
  | some v =>
    cases v with
    | object addr =>
      simp only [Option.bind_eq_bind, Option.bind_some, ip?]
      cases Section.value? addr "m_ip" <;> rfl
    | _ => rfl

theorem peerOfEntry_eq (entry : Section) : peerOfEntry entry =
    (((entry.section? "adr").bind endpoint?).filter (·.port ≠ 0)).map (peerAt entry) := by
  rw [peerOfEntry]
  cases entry.section? "adr" with
  | none => rfl
  | some adr =>
    cases h : endpoint? adr with
    | none => simp [h]
    | some e =>
      by_cases hport : e.port = 0
      · simp [h, hport, Option.filter_some]
      · simp [h, hport, Option.filter_some, peerAt]

/-- What the replying node says in its own section. -/
def nodeOf (data : Section) : NodeInfo where
  rpcPort := (data.value? "rpc_port").bind port?
  peerId := (data.value? "peer_id").bind word?

/-- What it says in the section of its chain. -/
def chainOf (data : Section) : ChainInfo where
  height := (data.value? "current_height").bind word?
  version := ((data.value? "top_version").bind (numberBelow (0x100))).map UInt8.ofNat

theorem nodeInfo_eq (root : Section) :
    nodeInfo root = ((root.section? "node_data").map nodeOf).getD {} := by
  rw [nodeInfo]
  cases root.section? "node_data" <;> rfl

theorem chainInfo_eq (root : Section) :
    chainInfo root = ((root.section? "payload_data").map chainOf).getD {} := by
  rw [chainInfo]
  cases root.section? "payload_data" <;> rfl

/-- What can be seen of a section. -/
inductive Sight where
  | root (node : NodeInfo) (chain : ChainInfo) (peers : List (Option Peer))
  | node (node : NodeInfo)
  | chain (chain : ChainInfo)
  | entry (peer : Option Peer)
  | endpoint (e : Option Endpoint)

/-- What is made of a section of a level. -/
def Level.see : Level → Section → Sight
  | .root, s => .root (nodeInfo s) (chainInfo s) ((listed s).map peerOf)
  | .node, s => .node (nodeOf s)
  | .chain, s => .chain (chainOf s)
  | .entry, s => .entry (peerOfEntry s)
  | .adr, s => .endpoint (endpoint? s)
  | .addr, s => .endpoint ((ip? s).bind (withPort s))

theorem givesIp_of_ip? {addr : Section} {ip : Ipv4} (h : ip? addr = some ip) : GivesIp addr := by
  rw [ip?] at h
  cases hraw : addr.value? "m_ip" with
  | none =>
    simp only [hraw] at h
    obtain ⟨v, hv, hoctets⟩ := Option.bind_eq_some_iff.1 h
    rw [octets?_eq_some_iff.1 hoctets] at hv
    exact .octets hraw (givesOctets_iff.2 ⟨ip, hv⟩)
  | some raw =>
    simp only [hraw] at h
    obtain ⟨n, hn, -⟩ := Option.map_eq_some_iff.1 h
    obtain ⟨hwrites, hlt⟩ := numberBelow_eq_some_iff.1 hn
    exact .number ⟨raw, hraw, hwrites⟩ hlt

theorem withPort_congr (h : s'.value? "m_port" = s.value? "m_port") : withPort s' = withPort s := by
  funext ip
  simp only [withPort, h]

/-- Nothing is seen but the first values of the names that are looked up. -/
theorem see_congr {level : Level}
    (h : ∀ name, LooksUp level s name → s'.value? name = s.value? name) :
    level.see s' = level.see s := by
  cases level with
  | root =>
    have hnode := h _ (.nodeData s)
    have hchain := h _ (.payloadData s)
    have hlist := h _ (.peerList s)
    simp only [Level.see, nodeInfo_eq, chainInfo_eq, listed, Section.section?, hnode, hchain, hlist]
  | node => simp only [Level.see, nodeOf, h _ (.nodeRpcPort s), h _ (.peerId s)]
  | chain => simp only [Level.see, chainOf, h _ (.height s), h _ (.version s)]
  | entry =>
    have hadr := h _ (.adr s)
    rw [Level.see, Level.see, peerOfEntry_eq, peerOfEntry_eq, Section.section?, hadr, ← Section.section?]
    cases he : ((s.section? "adr").bind endpoint?).filter (·.port ≠ 0) with
    | none => rfl
    | some e =>
      have hkeep : Keepable (.object s) := by
        rw [← isSome_peerOf_iff, peerOf, Value.section?, Option.bind_some, peerOfEntry_eq, he]
        rfl
      simp only [Option.map_some, peerAt, h _ (.id hkeep), h _ (.rpcPort hkeep)]
  | adr =>
    have haddr := h _ (.addr s)
    rw [Level.see, Level.see, endpoint?_eq, endpoint?_eq, haddr]
    split
    · rfl
    · next bytes hbytes =>
      cases hip : Ipv4.ofOctets? bytes with
      | none => rfl
      | some ip =>
        rw [ofOctets?_eq_some_iff.1 hip] at hbytes
        rw [withPort_congr (h _ (.portBeside (givesOctets_iff.2 ⟨ip, hbytes⟩)))]
    · rfl
  | addr =>
    have hraw := h _ (.ip s)
    have hip : ip? s' = ip? s := by
      rw [ip?, ip?, hraw]
      cases hno : s.value? "m_ip" with
      | none => simp only [h _ (.octets hno)]
      | some raw => rfl
    rw [Level.see, Level.see, hip]
    cases hsome : ip? s with
    | none => rfl
    | some ip => rw [withPort_congr (h _ (.port (givesIp_of_ip? hsome)))]

/-- Of a section inside another one no more is taken than what is seen of it. -/
theorem see_inside {level inner : Level} {whole whole' : Section} (h : level.Inside name inner)
    (hsee : inner.see s' = inner.see s) (hs : whole.value? name = some (.object s))
    (hs' : whole'.value? name = some (.object s'))
    (hother : ∀ key, name ≠ key → whole'.value? key = whole.value? key) :
    level.see whole' = level.see whole := by
  cases h with
  | node =>
    have hchain := hother "payload_data" (by decide)
    have hlist := hother "local_peerlist_new" (by decide)
    have hnode := Sight.node.inj hsee
    simp only [Level.see, nodeInfo_eq, chainInfo_eq, listed, Section.section?, hs, hs', hchain, hlist,
      Option.bind_some, Value.section?, Option.map_some, hnode]
  | chain =>
    have hnode := hother "node_data" (by decide)
    have hlist := hother "local_peerlist_new" (by decide)
    have hchain := Sight.chain.inj hsee
    simp only [Level.see, nodeInfo_eq, chainInfo_eq, listed, Section.section?, hs, hs', hnode, hlist,
      Option.bind_some, Value.section?, Option.map_some, hchain]
  | adr =>
    have hid := hother "id" (by decide)
    have hrpc := hother "rpc_port" (by decide)
    have he := Sight.endpoint.inj hsee
    have hat : peerAt whole' = peerAt whole := by
      funext e
      simp only [peerAt, hid, hrpc]
    simp only [Level.see, peerOfEntry_eq, Section.section?, hs, hs', Option.bind_some, Value.section?,
      he, hat]
  | addr =>
    have he := Sight.endpoint.inj hsee
    simp only [Level.see, endpoint?_eq, hs, hs', he]

/-- And so it is with the entries of the peer list. -/
theorem see_element {whole whole' : Section} {k : Kind} {first later : List Value}
    (hsee : Level.entry.see s' = Level.entry.see s)
    (hs : whole.value? "local_peerlist_new" = some (.array k (first ++ .object s :: later)))
    (hs' : whole'.value? "local_peerlist_new" = some (.array k (first ++ .object s' :: later)))
    (hother : ∀ key, "local_peerlist_new" ≠ key → whole'.value? key = whole.value? key) :
    Level.root.see whole' = Level.root.see whole := by
  have hnode := hother "node_data" (by decide)
  have hchain := hother "payload_data" (by decide)
  have hpeer : peerOf (.object s') = peerOf (.object s) := Sight.entry.inj hsee
  simp only [Level.see, nodeInfo_eq, chainInfo_eq, listed, Section.section?, hnode, hchain, hs, hs',
    Option.bind_some, Value.array?, List.map_append, List.map_cons, hpeer]

/-- What is rearranged is seen as before. -/
theorem see_of_rearranged {level : Level} (h : Rearranged level s s') :
    level.see s' = level.see s := by
  induction h with
  | refl => rfl
  | trans _ _ ih ih' => exact ih'.trans ih
  | reorder _ hfirst => exact see_congr fun name _ => hfirst name
  | insert hname =>
    refine see_congr fun key hkey => value?_insert_of_ne ?_
    rintro rfl
    exact hname hkey
  | @inside level inner before after name s s' hinside _ ih =>
    rcases value?_replace before after name (.object s) (.object s') with hsame | ⟨hs, hs', hother⟩
    · exact see_congr fun key _ => hsame key
    · exact see_inside hinside ih hs hs' hother
  | @element before after k first later s s' _ ih =>
    rcases value?_replace before after "local_peerlist_new" (.array k (first ++ .object s :: later))
      (.array k (first ++ .object s' :: later)) with hsame | ⟨hs, hs', hother⟩
    · exact see_congr fun key _ => hsame key
    · exact see_element ih hs hs' hother

/-- Roots that are seen the same have the same directory. -/
theorem ofSection_congr (h : Level.root.see s' = Level.root.see s) : ofSection s' = ofSection s := by
  obtain ⟨hnode, hchain, hpeers⟩ := Sight.root.inj h
  have hkept : ∀ items : List Value, items.filterMap peerOf = (items.map peerOf).filterMap id := by
    intro items
    rw [List.filterMap_map]
    rfl
  have hdropped : ∀ items : List Value, items.countP (fun v => ¬ (peerOf v).isSome = true) =
      (items.map peerOf).countP fun p => ¬ p.isSome = true := by
    intro items
    rw [List.countP_map]
    rfl
  rw [ofSection, ofSection, foldl_add_eq, foldl_add_eq, hkept, hkept, hdropped, hdropped, hpeers, hnode,
    hchain]

/-! ## The order of the list -/

/-- How many of the peers in a list have this address. -/
def listings (items : List Value) (key : String) : Nat :=
  (items.filterMap peerOf).countP (·.address = key)

/-- `d'` is `d` but for what is told of peers whose addresses are in the list more than once. -/
structure Reshuffled (items : List Value) (d d' : Directory) : Prop where
  node : d'.node = d.node
  chain : d'.chain = d.chain
  dropped : d'.dropped = d.dropped
  addresses : ∀ key, d'.peers.contains key = d.peers.contains key
  endpoints : ∀ key, (d'.peers.get? key).map Peer.endpoint = (d.peers.get? key).map Peer.endpoint
  metadata : ∀ key, d'.peers.get? key ≠ d.peers.get? key → 1 < listings items key

/-- What is the only one of its kind is found in any order. -/
theorem find?_of_perm {α : Type} {p : α → Bool} {l l' : List α} (h : l.Perm l')
    (hone : l.countP p ≤ 1) : l'.find? p = l.find? p := by
  induction h with
  | nil => rfl
  | cons a _ ih =>
    by_cases ha : p a
    · simp only [List.find?_cons, ha]
    · rw [List.countP_cons_of_neg ha] at hone
      simp only [List.find?_cons, ha, ih hone]
  | swap a b l =>
    by_cases ha : p a
    · by_cases hb : p b
      · rw [List.countP_cons_of_pos hb, List.countP_cons_of_pos ha] at hone
        omega
      · simp only [List.find?_cons, ha, hb]
    · simp only [List.find?_cons, ha]
  | trans h _ ih ih' =>
    have hone' := hone
    rw [h.countP_eq] at hone'
    exact (ih' hone').trans (ih hone)

theorem get?_ofSection (root : Section) (key : String) : (ofSection root).peers.get? key =
    ((listed root).filterMap peerOf).reverse.find? (·.address = key) := by
  rw [ofSection, foldl_add_eq]
  change (insertAll _ .empty).get? key = _
  rw [get?_insertAll, AddressMap.get?_empty, Option.or_none]

theorem contains_ofSection (root : Section) (key : String) :
    (ofSection root).peers.contains key = true ↔
      key ∈ ((listed root).filterMap peerOf).map Peer.address := by
  rw [ofSection, foldl_add_eq]
  exact contains_insertAll _ key

theorem dropped_ofSection (root : Section) : (ofSection root).dropped =
    (listed root).countP fun item => ¬ (peerOf item).isSome = true := by
  rw [ofSection, foldl_add_eq]
  exact Nat.zero_add _

theorem reshuffled_of_perm {r r' : Section} (hnode : nodeInfo r' = nodeInfo r)
    (hchain : chainInfo r' = chainInfo r) (h : (listed r).Perm (listed r')) :
    Reshuffled (listed r) (ofSection r) (ofSection r') := by
  have hpeers := h.filterMap peerOf
  have haddresses : ∀ key, (ofSection r').peers.contains key = (ofSection r).peers.contains key := by
    intro key
    rw [Bool.eq_iff_iff, contains_ofSection, contains_ofSection]
    exact (hpeers.map Peer.address).mem_iff.symm
  refine ⟨?_, ?_, ?_, haddresses, fun key => ?_, fun key hne => ?_⟩
  · rw [ofSection, ofSection, foldl_add_eq, foldl_add_eq]
    exact hnode
  · rw [ofSection, ofSection, foldl_add_eq, foldl_add_eq]
    exact hchain
  · rw [dropped_ofSection, dropped_ofSection]
    exact (h.countP_eq _).symm
  · -- both are peers of this address, or there is none of it in either
    have hkey := haddresses key
    rw [AddressMap.contains, AddressMap.contains] at hkey
    cases hp' : (ofSection r').peers.get? key with
    | none =>
      rw [hp', Option.isSome_none, eq_comm, Option.isSome_eq_false_iff, Option.isNone_iff_eq_none] at hkey
      rw [hkey]
    | some p' =>
      rw [hp', Option.isSome_some, eq_comm, Option.isSome_iff_exists] at hkey
      obtain ⟨p, hp⟩ := hkey
      have haddress := (mem_of_get?_ofSection hp').2.trans (mem_of_get?_ofSection hp).2.symm
      rw [hp, Option.map_some, Option.map_some, Endpoint.text_inj.1 haddress]
  · -- if it is listed once at most, it is found in either order
    apply Nat.lt_of_not_le
    intro hone
    rw [listings, ← List.countP_reverse] at hone
    have hreverse := (List.reverse_perm _).trans (hpeers.trans (List.reverse_perm _).symm)
    rw [get?_ofSection, get?_ofSection] at hne
    exact hne (find?_of_perm hreverse hone)

/-- **The directory depends only on the fields that it names.** The order of the entries in a section
is not seen, as long as of the entries of one name the same comes first, and nor are entries that are
not looked up there; be it in the root, in the sections of the node and its chain, or in the entries of
the peer list and their addresses. Another order of the peer list itself keeps the addresses and how
many entries were dropped, and what is told of a peer is another only if its address is listed more than
once. -/
theorem ofSection_rearranged :
    (∀ r r' : Section, Rearranged .root r r' → ofSection r' = ofSection r) ∧
    ∀ (before after : Section) (k : Kind) (items items' : List Value), items.Perm items' →
      Reshuffled items (ofSection (before ++ ("local_peerlist_new", .array k items) :: after))
        (ofSection (before ++ ("local_peerlist_new", .array k items') :: after)) := by
  refine ⟨fun r r' h => ofSection_congr (see_of_rearranged h), ?_⟩
  intro before after k items items' h
  rcases value?_replace before after "local_peerlist_new" (.array k items) (.array k items') with
    hsame | ⟨hs, hs', hother⟩
  · -- another list comes first
    rw [ofSection_congr (see_congr fun key _ => hsame key)]
    exact ⟨rfl, rfl, rfl, fun _ => rfl, fun _ => rfl, fun _ hne => absurd rfl hne⟩
  · have hnode := hother "node_data" (by decide)
    have hchain := hother "payload_data" (by decide)
    have hlisted : listed (before ++ ("local_peerlist_new", .array k items) :: after) = items := by
      simp only [listed, hs, Option.bind_some, Value.array?]
    have hlisted' : listed (before ++ ("local_peerlist_new", .array k items') :: after) = items' := by
      simp only [listed, hs', Option.bind_some, Value.array?]
    rw [← hlisted, ← hlisted'] at h
    have hreshuffled := reshuffled_of_perm (by simp only [nodeInfo_eq, Section.section?, hnode])
      (by simp only [chainInfo_eq, Section.section?, hchain]) h
    rwa [hlisted] at hreshuffled

/-- An address and a port. -/
def plainAddr : Section := [("m_ip", .uint32 0x0100000a), ("m_port", .uint16 18080)]

/-- The same in another order, and with another address that is not looked up. -/
def crowdedAddr : Section :=
  [("addr", .string [10, 0, 0, 2]), ("m_port", .uint16 18080), ("m_ip", .uint32 0x0100000a)]

def listing (addr : Section) (id : UInt64) : Value :=
  .object [("adr", .object [("addr", .object addr)]), ("id", .uint64 id)]

/-- A root that lists one address under two ids. -/
def rootOfTwo (addr : Section) (first second : UInt64) : Section :=
  [("local_peerlist_new", .array .object [listing addr first, listing plainAddr second])]

/-- The address of the first entry may be written in the other way. -/
theorem rearranged_rootOfTwo (first second : UInt64) :
    Rearranged .root (rootOfTwo plainAddr first second) (rootOfTwo crowdedAddr first second) := by
  have hnot : ¬ LooksUp .addr [("m_port", .uint16 18080), ("m_ip", .uint32 0x0100000a)] "addr" := by
    intro h
    generalize hname : "addr" = name at h
    cases h with
    | octets hno => simp [value?_cons] at hno
    | ip | port => exact absurd hname (by decide)
  have haddr : Rearranged .addr plainAddr crowdedAddr :=
    .trans (.swap (by decide) _ _ [] []) (@Rearranged.insert .addr [] _ "addr" _ hnot)
  have hadr : Rearranged .adr [("addr", .object plainAddr)] [("addr", .object crowdedAddr)] :=
    @Rearranged.inside _ _ [] [] _ _ _ .addr haddr
  exact @Rearranged.element [] [] .object [] [listing plainAddr second] _ _
    (@Rearranged.inside _ _ [] [("id", .uint64 first)] _ _ _ .adr hadr)

/-- The sample root has the same directory however its first address is written. With its two entries
in the other order it has the other id for their address. -/
theorem ofSection_rearranged_rootOfTwo :
    ofSection (rootOfTwo crowdedAddr 1 2) = ofSection (rootOfTwo plainAddr 1 2) ∧
    Reshuffled [listing plainAddr 1, listing plainAddr 2] (ofSection (rootOfTwo plainAddr 1 2))
      (ofSection (rootOfTwo plainAddr 2 1)) ∧
    ((ofSection (rootOfTwo plainAddr 1 2)).peers.get? "10.0.0.1:18080").bind Peer.id = some 2 ∧
    ((ofSection (rootOfTwo plainAddr 2 1)).peers.get? "10.0.0.1:18080").bind Peer.id = some 1 :=
  ⟨ofSection_rearranged.1 _ _ (rearranged_rootOfTwo 1 2),
    ofSection_rearranged.2 [] [] .object _ _ (List.Perm.swap _ _ _), rfl, rfl⟩

end Directory

end LevinNet
