import LevinNet.Proofs.Crawl.Reports
import LevinNet.Proofs.Directory.Rearranged
import LevinNet.Crawl.Seed

/-
The text of its endpoint is the identity of a peer.

   1. Two peers have one text if and only if they are the same peer (`Peer.address_eq_iff`), so look-ups
      by text and by peer agree (`decide_address_eq`).
   2. `Book` is what a frontier would be if it compared peers and had no texts. Whatever a frontier is
      asked, in whatever order, a book gives the same answers (`answers_eq`); and what a crawl does to
      its frontier is to ask it such things (`asked_of_reachable`).
   3. A map of things under the texts of their peers finds them by peer, and holds no two of one peer
      (`byPeer_of_keys`). Directories and reports are such maps.
   4. A text stands for its peer as a seed, whatever the host looks up (`Seed.resolve_address`).
-/
namespace LevinNet

/-! ## Texts and peers -/

namespace Peer

variable {p q r : Peer}

theorem same_iff : p.same q = true ↔ p.ip = q.ip ∧ p.port = q.port := by
  rw [same, beq_iff_eq, endpoint, endpoint, Endpoint.mk.injEq]

theorem address_eq_iff : p.address = q.address ↔ p.same q = true := by
  rw [address, address, Endpoint.text_inj, same, beq_iff_eq]

theorem decide_address_eq (p q : Peer) : decide (p.address = q.address) = p.same q := by
  rw [Bool.eq_iff_iff, decide_eq_true_iff, address_eq_iff]

theorem same_self (p : Peer) : p.same p = true := address_eq_iff.1 rfl

theorem same_comm (p q : Peer) : p.same q = q.same p := by
  rw [← decide_address_eq, ← decide_address_eq, decide_eq_decide]
  exact eq_comm

/-- Records of one peer are the same peers as anything else. -/
theorem same_congr (h : p.same q = true) (r : Peer) : r.same p = r.same q := by
  rw [← decide_address_eq, ← decide_address_eq, address_eq_iff.2 h]

/-- What is left of a list without a peer's things still has those of all others. -/
theorem find?_drop {α : Type} (peer : α → Peer) (l : List α) (p q : Peer) :
    (l.filter fun a => !p.same (peer a)).find? (fun a => q.same (peer a)) =
      if p.same q then none else l.find? fun a => q.same (peer a) := by
  induction l with
  | nil => simp
  | cons a l ih =>
    by_cases hp : p.same (peer a) = true
    · -- `a` is dropped, and is not looked for unless the two peers are one
      rw [List.filter_cons_of_neg (by simp [hp]), ih]
      by_cases hq : p.same q = true
      · rw [if_pos hq, if_pos hq]
      · have hne : q.same (peer a) = false := by
          rw [← same_congr hp, same_comm, Bool.eq_false_iff]
          exact hq
        rw [if_neg hq, if_neg hq, List.find?_cons, hne]
    · rw [List.filter_cons_of_pos (by simp [hp]), List.find?_cons, List.find?_cons, ih]
      by_cases hq : q.same (peer a) = true
      · have hne : ¬ p.same q = true := by
          rw [same_congr hq]
          exact hp
        simp only [hq, if_neg hne]
      · rw [Bool.eq_false_iff.2 hq]

end Peer

/-! ## A frontier without texts -/

/-- What a frontier would be if it compared peers. -/
structure Book where
  waiting : List Peer := []
  inFlight : List Peer := []
  visited : List Visit := []

namespace Book

/-- Whether the peer was ever queued or visited. -/
def knows (b : Book) (p : Peer) : Bool :=
  b.visited.any (fun v => p.same v.peer) || b.inFlight.any p.same || b.waiting.any p.same

def enqueue (b : Book) (p : Peer) : Bool × Book :=
  if b.knows p then (false, b) else (true, { b with waiting := p :: b.waiting })

/-- Hand out the record of a peer that waits. -/
def take (b : Book) (p : Peer) : Option (Peer × Book) :=
  match b.waiting.find? p.same with
  | none => none
  | some q => some (q, { b with
      waiting := b.waiting.filter fun q => !p.same q
      inFlight := p :: b.inFlight })

/-- Record a visit. The first visit of a peer stays. -/
def record (b : Book) (v : Visit) : Book where
  waiting := b.waiting.filter fun q => !v.peer.same q
  inFlight := b.inFlight.filter fun q => !v.peer.same q
  visited := if b.visited.any fun w => v.peer.same w.peer then b.visited else v :: b.visited

end Book

/-- What a frontier is asked. -/
inductive Request where
  | enqueue (p : Peer)
  | take (p : Peer)
  | record (v : Visit)
  | knows (p : Peer)
  /-- The visit of a peer. -/
  | visit (p : Peer)
  | isQuiescent
  /-- Give up all visits, for the report. -/
  | drain

/-- What it answers. -/
inductive Response where
  | done
  | flag (b : Bool)
  | peer (p : Option Peer)
  | visit (v : Option Visit)

def Frontier.respond (f : Frontier) : Request → Response × Frontier
  | .enqueue p => (.flag (f.enqueue p).1, (f.enqueue p).2)
  | .take p =>
    match f.take p.address with
    | none => (.peer none, f)
    | some (q, f') => (.peer (some q), f')
  | .record v => (.done, f.record v)
  | .knows p => (.flag (f.knows p.address), f)
  | .visit p => (.visit (f.visited.get? p.address), f)
  | .isQuiescent => (.flag f.isQuiescent, f)
  | .drain => (.done, f.drain.2)

def Book.respond (b : Book) : Request → Response × Book
  | .enqueue p => (.flag (b.enqueue p).1, (b.enqueue p).2)
  | .take p =>
    match b.take p with
    | none => (.peer none, b)
    | some (q, b') => (.peer (some q), b')
  | .record v => (.done, b.record v)
  | .knows p => (.flag (b.knows p), b)
  | .visit p => (.visit (b.visited.find? fun v => p.same v.peer), b)
  | .isQuiescent => (.flag (b.waiting.isEmpty && b.inFlight.isEmpty), b)
  | .drain => (.done, { b with visited := [] })

/-- The answers to some requests, one after the other. -/
def answers {σ : Type} (respond : σ → Request → Response × σ) : σ → List Request → List Response
  | _, [] => []
  | s, r :: rs => (respond s r).1 :: answers respond (respond s r).2 rs

/-- What is left behind some requests. -/
def asked {σ : Type} (respond : σ → Request → Response × σ) : σ → List Request → σ
  | s, [] => s
  | s, r :: rs => asked respond (respond s r).2 rs

/-! ## Maps by text and lists by peer -/

/-- A map holds under the texts of peers what the list holds of these peers. -/
structure Mirrors {α β : Type} (peer : α → Peer) (value : α → β) (m : AddressMap β) (l : List α) :
    Prop where
  find : ∀ p : Peer, m.get? p.address = (l.find? fun a => p.same (peer a)).map value
  keys : ∀ key, m.contains key = true → ∃ p : Peer, p.address = key

namespace Mirrors

variable {α β : Type} {peer : α → Peer} {value : α → β} {m : AddressMap β} {l : List α}

theorem empty : Mirrors peer value .empty [] where
  find := fun _ => rfl
  keys := fun key h => by
    rw [AddressMap.contains_empty] at h
    cases h

theorem contains (h : Mirrors peer value m l) (p : Peer) :
    m.contains p.address = l.any fun a => p.same (peer a) := by
  rw [AddressMap.contains, h.find, Option.isSome_map, Bool.eq_iff_iff, List.find?_isSome,
    List.any_eq_true]

theorem insert (h : Mirrors peer value m l) (a : α) :
    Mirrors peer value (m.insert (peer a).address (value a)) (a :: l) where
  find p := by
    rw [AddressMap.get?_insert, h.find, List.find?_cons]
    by_cases hp : p.same (peer a) = true
    · rw [hp, if_pos (Peer.address_eq_iff.2 hp).symm]
      rfl
    · rw [Bool.eq_false_iff.2 hp, if_neg fun heq => hp (Peer.address_eq_iff.1 heq.symm)]
  keys key hkey := by
    rw [AddressMap.contains_insert, Bool.or_eq_true, decide_eq_true_iff] at hkey
    rcases hkey with hkey | hkey
    · exact ⟨peer a, hkey⟩
    · exact h.keys key hkey

theorem erase (h : Mirrors peer value m l) (p : Peer) :
    Mirrors peer value (m.erase p.address) (l.filter fun a => !p.same (peer a)) where
  find q := by
    rw [AddressMap.get?_erase, h.find, Peer.find?_drop]
    by_cases hq : p.same q = true
    · rw [if_pos hq, if_pos (Peer.address_eq_iff.2 hq)]
      rfl
    · rw [if_neg hq, if_neg fun heq => hq (Peer.address_eq_iff.1 heq)]
  keys key hkey := by
    rw [AddressMap.contains_erase, Bool.and_eq_true] at hkey
    exact h.keys key hkey.2

/-- Of several things of one peer, the one that is inserted last stays. -/
theorem foldl_insert (h : Mirrors peer value m l) (as : List α) :
    Mirrors peer value (as.foldl (fun m a => m.insert (peer a).address (value a)) m)
      (as.reverse ++ l) := by
  induction as generalizing m l with
  | nil => exact h
  | cons a as ih =>
    rw [List.foldl_cons, List.reverse_cons, List.append_assoc]
    exact ih (h.insert a)

theorem isEmpty (h : Mirrors peer value m l) : m.isEmpty = l.isEmpty := by
  rw [Bool.eq_iff_iff, AddressMap.isEmpty_iff, List.isEmpty_iff]
  constructor
  · intro hnone
    cases l with
    | nil => rfl
    | cons a l =>
      have hcontains := h.contains (peer a)
      rw [hnone, List.any_cons, Peer.same_self, Bool.true_or] at hcontains
      cases hcontains
  · rintro rfl key
    by_cases hkey : m.contains key = true
    · obtain ⟨p, rfl⟩ := h.keys key hkey
      rw [h.contains]
      rfl
    · exact Bool.eq_false_iff.2 hkey

end Mirrors

/-! ## The frontier and the book agree -/

/-- The three maps of a frontier hold what the lists of a book hold. -/
structure Agrees (f : Frontier) (b : Book) : Prop where
  waiting : Mirrors id id f.waiting b.waiting
  inFlight : Mirrors id (fun _ => ()) f.inFlight b.inFlight
  visited : Mirrors Visit.peer id f.visited b.visited

namespace Agrees

variable {f : Frontier} {b : Book}

theorem start : Agrees .empty {} := ⟨.empty, .empty, .empty⟩

theorem knows (h : Agrees f b) (p : Peer) : f.knows p.address = b.knows p := by
  rw [Frontier.knows, h.visited.contains, h.inFlight.contains, h.waiting.contains]
  rfl

theorem enqueue (h : Agrees f b) (p : Peer) :
    (f.enqueue p).1 = (b.enqueue p).1 ∧ Agrees (f.enqueue p).2 (b.enqueue p).2 := by
  rw [Frontier.enqueue, Book.enqueue, h.knows p]
  split
  · exact ⟨rfl, h⟩
  · exact ⟨rfl, h.waiting.insert p, h.inFlight, h.visited⟩

theorem take (h : Agrees f b) (p : Peer) :
    f.take p.address = none ∧ b.take p = none ∨
      ∃ q f' b', f.take p.address = some (q, f') ∧ b.take p = some (q, b') ∧ Agrees f' b' := by
  have hfind : f.waiting.get? p.address = b.waiting.find? p.same :=
    (h.waiting.find p).trans Option.map_id'
  cases hp : b.waiting.find? p.same with
  | none =>
    left
    rw [Frontier.take, Book.take, hfind, hp]
    exact ⟨rfl, rfl⟩
  | some q =>
    right
    rw [Frontier.take, Book.take, hfind, hp]
    exact ⟨q, _, _, rfl, rfl, h.waiting.erase p, h.inFlight.insert p, h.visited⟩

theorem record (h : Agrees f b) (v : Visit) : Agrees (f.record v) (b.record v) := by
  refine ⟨h.waiting.erase v.peer, h.inFlight.erase v.peer, ?_⟩
  have hcontains := h.visited.contains v.peer
  rw [Frontier.record, Book.record, Visit.address, hcontains]
  split
  · exact h.visited
  · exact h.visited.insert v

/-- One request is answered alike, and the two agree behind it. -/
theorem respond (h : Agrees f b) (r : Request) :
    (f.respond r).1 = (b.respond r).1 ∧ Agrees (f.respond r).2 (b.respond r).2 := by
  cases r with
  | enqueue p =>
    obtain ⟨hflag, hnext⟩ := h.enqueue p
    exact ⟨congrArg Response.flag hflag, hnext⟩
  | take p =>
    rcases h.take p with ⟨hf, hb⟩ | ⟨q, f', b', hf, hb, hnext⟩
    · rw [Frontier.respond, Book.respond, hf, hb]
      exact ⟨rfl, h⟩
    · rw [Frontier.respond, Book.respond, hf, hb]
      exact ⟨rfl, hnext⟩
  | record v => exact ⟨rfl, h.record v⟩
  | drain => exact ⟨rfl, h.waiting, h.inFlight, .empty⟩
  | knows p => exact ⟨congrArg Response.flag (h.knows p), h⟩
  | visit p =>
    have hfind := h.visited.find p
    rw [Option.map_id] at hfind
    exact ⟨congrArg Response.visit hfind, h⟩
  | isQuiescent =>
    refine ⟨?_, h⟩
    rw [Frontier.respond, Book.respond, Frontier.isQuiescent, h.waiting.isEmpty, h.inFlight.isEmpty]

/-- And so are all requests that follow one another. -/
theorem answers_eq (h : Agrees f b) (rs : List Request) :
    answers Frontier.respond f rs = answers Book.respond b rs := by
  induction rs generalizing f b with
  | nil => rfl
  | cons r rs ih =>
    obtain ⟨hanswer, hnext⟩ := h.respond r
    rw [answers, answers, hanswer, ih hnext]

end Agrees

/-! ## What a crawl asks its frontier -/

theorem asked_append {σ : Type} (respond : σ → Request → Response × σ) (s : σ)
    (rs : List Request) (r : Request) :
    asked respond s (rs ++ [r]) = (respond (asked respond s rs) r).2 := by
  induction rs generalizing s with
  | nil => rfl
  | cons _ rs ih => exact ih _

namespace Crawl.System

variable {c : Settings} {world : Endpoint → Encounter} {seeds : List Peer} {s s' : System}

/-- A move asks the frontier one thing, or nothing. -/
theorem asked_of_moved (hs : s.Tidy) (h : Moved c world s s') :
    s'.frontier = s.frontier ∨ ∃ r, s'.frontier = (s.frontier.respond r).2 := by
  cases h with
  | @seed p _ _ => exact .inr ⟨.enqueue p, rfl⟩
  | @queue p _ _ _ => exact .inr ⟨.enqueue p, rfl⟩
  | @record v _ => exact .inr ⟨.record v, rfl⟩
  | @drain v _ _ _ _ => exact .inr ⟨.record v, rfl⟩
  | report => exact .inr ⟨.drain, rfl⟩
  | @take i address p f hw h =>
    -- what waits under a text is a peer of this text
    obtain ⟨hget, -⟩ := Frontier.take_eq_some_iff.1 h
    have hkey := hs.waiting_key address p hget
    refine .inr ⟨.take p, ?_⟩
    rw [Frontier.respond, hkey, h]
    rfl
  | spawn | takeFound | takeVisit | queued | settle | goOn | quiesce | interrupt | signal | join
  | pace | begin | finish | die | sendFound | sendVisit | quit => exact .inl rfl

theorem asked_of_reachable (h : Reachable c world seeds s) :
    ∃ rs, s.frontier = asked Frontier.respond .empty rs := by
  induction h with
  | start => exact ⟨[], rfl⟩
  | @step s s' a hs hstep ih =>
    obtain ⟨rs, hrs⟩ := ih
    rcases asked_of_moved (tidy_of_reachable hs) (moved_of_step hstep) with hsame | ⟨r, hr⟩
    · exact ⟨rs, hsame.trans hrs⟩
    · exact ⟨rs ++ [r], by rw [asked_append, ← hrs, hr]⟩

end Crawl.System

/-! ## Maps that hold one thing for each peer -/

/-- The map finds its values by peer, and no two of them are of one peer. -/
structure ByPeer {α : Type} (peer : α → Peer) (m : AddressMap α) : Prop where
  find : ∀ p : Peer, m.get? p.address = m.values.find? fun a => p.same (peer a)
  different : m.values.Pairwise fun a b => (peer a).same (peer b) = false

/-- A map in which each value stands under the text of its peer is such a map. -/
theorem byPeer_of_keys {α : Type} {peer : α → Peer} {m : AddressMap α}
    (h : ∀ key a, m.get? key = some a → (peer a).address = key) : ByPeer peer m where
  find p := by
    cases hfound : m.values.find? fun a => p.same (peer a) with
    | none =>
      cases hget : m.get? p.address with
      | none => rfl
      | some a =>
        have hvalue : a ∈ m.values := AddressMap.mem_values_iff.2 ⟨_, hget⟩
        have hsame : p.same (peer a) = true := Peer.address_eq_iff.1 (h _ a hget).symm
        exact absurd hsame (List.find?_eq_none.1 hfound a hvalue)
    | some a =>
      have hsame := List.find?_some hfound
      obtain ⟨key, hget⟩ := AddressMap.mem_values_iff.1 (List.mem_of_find?_eq_some hfound)
      rw [Peer.address_eq_iff.2 hsame, h key a hget, hget]
  different := by
    -- the keys are different, and each value's peer has its key for text
    rw [AddressMap.values, List.pairwise_map]
    refine m.sorted.imp_of_mem fun {first second} hfirst hsecond hlt => ?_
    have hkey := h first.1 first.2 (AddressMap.lookup_of_mem m.sorted hfirst)
    have hkey' := h second.1 second.2 (AddressMap.lookup_of_mem m.sorted hsecond)
    rw [← Peer.decide_address_eq, hkey, hkey', decide_eq_false_iff_not]
    exact Std.ne_of_lt hlt

/-- A map that mirrors a list is such a map, too. -/
theorem Mirrors.byPeer {α : Type} {peer : α → Peer} {m : AddressMap α} {l : List α}
    (h : Mirrors peer id m l) : ByPeer peer m := by
  refine byPeer_of_keys fun key a hget => ?_
  obtain ⟨p, rfl⟩ := h.keys key (AddressMap.contains_of_get? hget)
  rw [h.find, Option.map_id, id] at hget
  have hsame := List.find?_some hget
  exact (Peer.address_eq_iff.2 hsame).symm

namespace Directory

theorem byPeer_ofSection (root : Storage.Section) : ByPeer id (ofSection root).peers :=
  byPeer_of_keys fun _ _ h => (mem_of_get?_ofSection h).2

/-- Of all listed records of a peer, the last one is in the directory. -/
theorem find_ofSection (root : Storage.Section) (p : Peer) : (ofSection root).peers.get? p.address =
    ((listed root).filterMap peerOf).reverse.find? p.same := by
  rw [get?_ofSection]
  congr 1
  funext q
  rw [Peer.decide_address_eq, Peer.same_comm]

end Directory

namespace Report

theorem mirrors_ofVisits (vs : List Visit) :
    Mirrors Visit.peer id (ofVisits vs).visits vs.reverse := by
  have hempty : Mirrors Visit.peer id .empty [] := .empty
  have hall := hempty.foldl_insert vs
  rwa [List.append_nil] at hall

/-- Of all visits of a peer, the last one is in the report of some visits. -/
theorem find_ofVisits (vs : List Visit) (p : Peer) :
    (ofVisits vs).visits.get? p.address = vs.reverse.find? fun v => p.same v.peer := by
  rw [(mirrors_ofVisits vs).find, Option.map_id, id]

theorem byPeer_ofVisits (vs : List Visit) : ByPeer Visit.peer (ofVisits vs).visits :=
  (mirrors_ofVisits vs).byPeer

end Report

namespace Crawl.System

variable {c : Settings} {world : Endpoint → Encounter} {seeds : List Peer} {s : System}

theorem byPeer_waiting (h : Reachable c world seeds s) : ByPeer id s.frontier.waiting :=
  byPeer_of_keys (tidy_of_reachable h).waiting_key

theorem byPeer_recorded (h : Reachable c world seeds s) : ByPeer Visit.peer s.recorded :=
  byPeer_of_keys (tidy_of_reachable h).recorded_key

theorem byPeer_report {r : Report} (h : Reachable c world seeds s) (hr : s.report? = some r) :
    ByPeer Visit.peer r.visits := by
  obtain ⟨why, hfinished⟩ := finished_of_report? hr
  have hrecorded : s.recorded = r.visits := by rw [recorded, hfinished]
  rw [← hrecorded]
  exact byPeer_recorded h

end Crawl.System

/-! ## Texts as seeds -/

namespace Ipv4

theorem parse?_text (ip : Ipv4) : parse? ip.text = some ip := by
  have hread := read_text ip Digits.noDigit_nil
  rw [List.append_nil] at hread
  rw [parse?, hread]

end Ipv4

/-- An address alone is no endpoint, for nothing is behind it. -/
theorem Endpoint.parse?_ip (ip : Ipv4) : Endpoint.parse? ip.text = none := by
  have hread := Ipv4.read_text ip Digits.noDigit_nil
  rw [List.append_nil] at hread
  rw [Endpoint.parse?, Endpoint.read, hread]
  rfl

namespace Seed

variable (host : Host) (network : Network) (p : Peer)

theorem resolve_address : resolve host network p.address = .ok { ip := p.ip, port := p.port } := by
  rw [resolve, Peer.address, Endpoint.parse?_text]
  rfl

theorem resolve_ip :
    resolve host network p.ip.text = .ok { ip := p.ip, port := network.defaultPort } := by
  rw [resolve, Endpoint.parse?_ip, Ipv4.parse?_text]
  rfl

end Seed

/-! ## The identity of a peer -/

open Crawl System in
/-- **The text of its endpoint is the identity of a peer.** Two peers have one text if and only if they
are the same peer, which is to have the same address and port, whatever else is known. So whatever a
frontier that goes by texts is asked, it answers as one that compares peers, and a crawl does nothing
else with its frontier. What waits, what is recorded and reported, and what a directory holds is found by
peer, and is one thing for each peer. As a seed, the text stands for a peer of its address and port, and
the address alone for one with the network's port, whatever the host looks up. -/
theorem address_identifies :
    (∀ p q : Peer, (p.address = q.address ↔ p.same q = true) ∧
      (p.same q = true ↔ p.ip = q.ip ∧ p.port = q.port)) ∧
    (∀ rs, answers Frontier.respond .empty rs = answers Book.respond {} rs) ∧
    (∀ c world seeds s, Reachable c world seeds s →
      (∃ rs, s.frontier = asked Frontier.respond .empty rs) ∧
      ByPeer id s.frontier.waiting ∧ ByPeer Visit.peer s.recorded ∧
      ∀ r, s.report? = some r → ByPeer Visit.peer r.visits) ∧
    (∀ root, ByPeer id (Directory.ofSection root).peers ∧
      ∀ p : Peer, (Directory.ofSection root).peers.get? p.address =
        ((Directory.listed root).filterMap Directory.peerOf).reverse.find? p.same) ∧
    (∀ vs, ByPeer Visit.peer (Report.ofVisits vs).visits ∧
      ∀ p : Peer, (Report.ofVisits vs).visits.get? p.address =
        vs.reverse.find? fun v => p.same v.peer) ∧
    ∀ (host : Host) (network : Network) (p : Peer),
      Seed.resolve host network p.address = .ok { ip := p.ip, port := p.port } ∧
      Seed.resolve host network p.ip.text = .ok { ip := p.ip, port := network.defaultPort } := by
  refine ⟨fun p q => ⟨Peer.address_eq_iff, Peer.same_iff⟩, Agrees.start.answers_eq, ?_, ?_, ?_, ?_⟩
  · intro c world seeds s h
    exact ⟨asked_of_reachable h, byPeer_waiting h, byPeer_recorded h, fun r => byPeer_report h⟩
  · exact fun root => ⟨Directory.byPeer_ofSection root, Directory.find_ofSection root⟩
  · exact fun vs => ⟨Report.byPeer_ofVisits vs, Report.find_ofVisits vs⟩
  · exact fun host network p => ⟨Seed.resolve_address host network p, Seed.resolve_ip host network p⟩

open Crawl System in
/-- A crawl that was cut off has asked its frontier some things, and its report is by peer. -/
theorem address_identifies_cutOff : ∃ s r,
    (start sampleSeeds).run ⟨1, true⟩ sampleWorld.encounter cutOff = some s ∧
    s.report? = some r ∧ r.visits.keys = ["1.1.1.1:80"] ∧
    (∃ rs, s.frontier = asked Frontier.respond .empty rs) ∧
    r.visits.get? "1.1.1.1:80" =
      r.visits.values.find? (Peer.same { ip := ⟨1, 1, 1, 1⟩, port := 80 } ·.peer) := by
  have hrun : (((start sampleSeeds).run ⟨1, true⟩ sampleWorld.encounter cutOff).bind report?).map
      (·.visits.keys) = some ["1.1.1.1:80"] := by
    decide +kernel
  obtain ⟨r, hr, hkeys⟩ := Option.map_eq_some_iff.1 hrun
  obtain ⟨s, hs, hr⟩ := Option.bind_eq_some_iff.1 hr
  obtain ⟨-, -, hcrawl, -, -, -⟩ := address_identifies
  obtain ⟨hasked, -, -, hreport⟩ := hcrawl _ _ _ s (reachable_run .start hs)
  exact ⟨s, r, hs, hr, hkeys, hasked, (hreport r hr).find { ip := ⟨1, 1, 1, 1⟩, port := 80 }⟩

end LevinNet
