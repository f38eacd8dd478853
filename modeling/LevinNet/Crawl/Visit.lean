import LevinNet.Directory
import LevinNet.Session.Error

/-
Visits and what comes of them. A visit is the recorded outcome of one attempt to hand a peer our
handshake; an encounter is how a peer behaves in it; a report holds one visit for each address.
-/
namespace LevinNet

/-- The outcome of one attempt. -/
structure Visit where
  /-- The peer, with what it told if the attempt succeeded. -/
  peer : Peer
  /-- How many peers its directory held. -/
  discovered : Nat
  error : Option SessionError
  deriving DecidableEq, Repr

namespace Visit

def reachable (p : Peer) (discovered : Nat) : Visit := ⟨p, discovered, none⟩

def failed (p : Peer) (e : SessionError) : Visit := ⟨p, 0, some e⟩

def isReachable (v : Visit) : Bool := v.error.isNone

def address (v : Visit) : String := v.peer.address

/-- One line about a visit. -/
def text (v : Visit) : String :=
  match v.error with
  | none => s!"Reachable: {v.peer.text} ({v.discovered} peers advertised)"
  | some e => s!"Unreachable: {v.address} ({e.message})"

end Visit

/-- What a peer's behaviour comes to. -/
inductive Reply where
  /-- No session could be opened. -/
  | unreached (e : SessionError)
  /-- The handshake failed. -/
  | failed (e : SessionError)
  | directory (d : Directory)

/-- How a peer behaves when it is visited. -/
inductive Encounter where
  /-- The visit ends in a reply after some nanoseconds. -/
  | ends (reply : Reply) (nanos : Nat)
  /-- The visit never ends. -/
  | never
  /-- The visiting worker dies of it. -/
  | fatal

namespace Reply

/-- The visit of a peer that replied so, and the peers that it advertised. -/
def outcome (p : Peer) : Reply → Visit × List Peer
  | .unreached e | .failed e => (.failed p e, [])
  | .directory d => (.reachable (p.withInfo d.node d.chain) d.size, d.peers.values)

/-- Whether a session was opened. -/
def wasReached : Reply → Bool
  | .unreached _ => false
  | _ => true

/-- The peers that a reply advertises, whoever is visited. -/
def advertised : Reply → List Peer
  | .directory d => d.peers.values
  | _ => []

/-- The error that a reply is recorded with. -/
def error? : Reply → Option SessionError
  | .unreached e | .failed e => some e
  | .directory _ => none

/-- How many peers a reply is recorded with. -/
def discovered : Reply → Nat
  | .directory d => d.size
  | _ => 0

/-- What a visit to a peer that replied so comes to: a directory is handed on in any order. -/
structure Yields (reply : Reply) (p : Peer) (v : Visit) (found : List Peer) : Prop where
  visit_eq : v = (reply.outcome p).1
  perm : found.Perm (reply.outcome p).2

variable {reply : Reply} {p : Peer} {v : Visit} {found : List Peer}

theorem advertised_eq (reply : Reply) (p : Peer) : (reply.outcome p).2 = reply.advertised := by
  cases reply <;> rfl

/-- What is found is what is advertised. -/
theorem Yields.mem_iff (h : reply.Yields p v found) {q : Peer} :
    q ∈ found ↔ q ∈ reply.advertised := by
  rw [h.perm.mem_iff, advertised_eq]

/-- A visit is one of the peer that was visited. -/
theorem Yields.endpoint_eq (h : reply.Yields p v found) : v.peer.endpoint = p.endpoint := by
  rw [h.visit_eq]
  cases reply <;> rfl

/-- What a visit says of a reply is the same for all records of a peer. -/
theorem Yields.verdict (h : reply.Yields p v found) :
    v.error = reply.error? ∧ v.discovered = reply.discovered := by
  rw [h.visit_eq]
  cases reply <;> exact ⟨rfl, rfl⟩

end Reply

/-- All visits of a crawl, by address. -/
structure Report where
  visits : AddressMap Visit := .empty

namespace Report

/-- The report of some visits; a later one of the same address replaces an earlier one. -/
def ofVisits (vs : List Visit) : Report :=
  ⟨vs.foldl (fun m v => m.insert v.address v) .empty⟩

def reachable (r : Report) : List Visit := r.visits.values.filter (·.isReachable)

def unreachable (r : Report) : List Visit := r.visits.values.filter (!·.isReachable)

def size (r : Report) : Nat := r.visits.size

end Report

end LevinNet
