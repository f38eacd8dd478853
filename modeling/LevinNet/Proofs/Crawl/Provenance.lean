import LevinNet.Proofs.Crawl.Flow

/-
Where the peers and visits of a crawl come from.

   1. `Sourced` says that the peers on their way to the queue have one property and those that were queued
      another, and that every visit was made of one that was queued. A move keeps this, for properties
      that only grow, if what a visit found has the first and what is queued has the second
      (`sourced_moved`).
   2. `Heard` is the least set of peers that has the seeds and all peers that a directory of a peer in it
      advertises. Whatever the order of moves, every peer in the system was heard of, and every visit was
      made of one (`traced_of_reachable`).
-/
namespace LevinNet.Crawl

/-- A visit of a peer with `P`, and what it found, are what the peer replied. -/
def MadeOf (world : Endpoint → Encounter) (P : Peer → Prop) (v : Visit) (found : List Peer) : Prop :=
  ∃ p reply nanos, P p ∧ world p.endpoint = .ends reply nanos ∧ reply.Yields p v found

/-- A worker has only peers with `P`, and visits of them. -/
def Worker.Sourced (world : Endpoint → Encounter) (P : Peer → Prop) : Worker → Prop
  | .holding p | .visiting p | .died p => P p
  | .finding v found => MadeOf world P v found
  | .reporting v => ∃ found, MadeOf world P v found
  | _ => True

section Sourced

variable {world : Endpoint → Encounter} {P P' : Peer → Prop}

theorem MadeOf.mono {v : Visit} {found : List Peer} (hP : ∀ p, P p → P' p)
    (h : MadeOf world P v found) : MadeOf world P' v found := by
  obtain ⟨p, reply, nanos, hp, hworld, ho⟩ := h
  exact ⟨p, reply, nanos, hP p hp, hworld, ho⟩

theorem MadeOf.finished {v : Visit} {found : List Peer} (h : MadeOf world P v found) :
    (Worker.finished v found).Sourced world P := by
  cases found with
  | nil => exact ⟨[], h⟩
  | cons q found => exact h

theorem Worker.Sourced.mono {w : Worker} (hP : ∀ p, P p → P' p) (h : w.Sourced world P) :
    w.Sourced world P' := by
  cases w with
  | holding p | visiting p | died p => exact hP p h
  | finding v found => exact MadeOf.mono hP h
  | reporting v =>
    obtain ⟨found, h⟩ := h
    exact ⟨found, h.mono hP⟩
  | checking | taking | idle | exited => trivial

/-- What is on its way to the queue has `A`, what was queued has `P`, and every visit was made of such
a peer. -/
structure System.Sourced (world : Endpoint → Encounter) (A P : Peer → Prop) (s : System) : Prop where
  pending : ∀ p ∈ s.supervisor.pending, A p
  found : ∀ peers ∈ s.found, ∀ p ∈ peers, A p
  waiting : ∀ a p, s.frontier.waiting.get? a = some p → P p
  workers : ∀ w ∈ s.workers, w.Sourced world P
  visits : ∀ v ∈ s.visits, ∃ found, MadeOf world P v found
  hand : ∀ v ∈ s.supervisor.hand, ∃ found, MadeOf world P v found
  recorded : ∀ a v, s.recorded.get? a = some v → ∃ found, MadeOf world P v found

theorem System.sourced_start {A : Peer → Prop} {seeds : List Peer} (h : ∀ p ∈ seeds, A p) :
    (System.start seeds).Sourced world A P where
  pending := h
  found := fun _ h => absurd h List.not_mem_nil
  waiting := fun _ _ h => by cases h
  workers := fun _ h => absurd h List.not_mem_nil
  visits := fun _ h => absurd h List.not_mem_nil
  hand := fun _ h => absurd h List.not_mem_nil
  recorded := fun _ _ h => by cases h

/-- What comes of the peers that were queued is sourced in them again. -/
theorem System.sourced_moved {c : Settings} {s s' : System} {A A' : Peer → Prop}
    (hs : s.Sourced world A P) (h : Moved c world s s') (hA : ∀ p, A p → A' p)
    (hP : ∀ p, P p → P' p)
    (hfound : ∀ v found, MadeOf world P v found → .reporting v ∈ s'.workers → ∀ q ∈ found, A' q)
    (hqueued : ∀ a p, s'.frontier.waiting.get? a = some p →
      s.frontier.waiting.get? a = some p ∨ P' p) : s'.Sourced world A' P' := by
  have hmade : ∀ {v}, (∃ found, MadeOf world P v found) → ∃ found, MadeOf world P' v found := by
    rintro v ⟨found, h⟩
    exact ⟨found, h.mono hP⟩
  constructor
  case pending =>
    intro p hp
    rcases pending_of_moved h hp with hp | ⟨peers, hpeers, hp⟩
    · exact hA p (hs.pending p hp)
    · exact hA p (hs.found peers hpeers p hp)
  case found =>
    intro peers hpeers p hp
    rcases found_of_moved h hpeers with hpeers | ⟨v, hv, hsent⟩
    · exact hA p (hs.found peers hpeers p hp)
    · exact hfound v peers (hs.workers _ hv) hsent p hp
  case waiting =>
    intro a p hp
    rcases hqueued a p hp with hp | hp
    · exact hP p (hs.waiting a p hp)
    · exact hp
  case workers =>
    intro w hw
    cases worker_of_moved h hw with
    | kept h => exact (hs.workers w h).mono hP
    | free h =>
      simp only [List.mem_cons, List.not_mem_nil, or_false] at h
      rcases h with rfl | rfl | rfl | rfl <;> trivial
    | took h hw =>
      rw [hw]
      exact hP _ (hs.waiting _ _ h)
    | began h hw =>
      rw [hw]
      exact hP _ (hs.workers _ h)
    | died h hw =>
      rw [hw]
      exact hP _ (hs.workers _ h)
    | @finished p reply nanos v found h hworld ho hw =>
      rw [hw]
      exact MadeOf.finished ⟨p, reply, nanos, hP p (hs.workers _ h), hworld, ho⟩
    | sent h hfound hw =>
      rw [hw]
      exact hmade ⟨_, hs.workers _ h⟩
  case visits =>
    intro v hv
    rcases visits_of_moved h hv with hv | hv
    · exact hmade (hs.visits v hv)
    · exact hmade (hs.workers _ hv)
  case hand =>
    intro v hv
    rcases hand_of_moved h hv with hv | hv
    · exact hmade (hs.hand v hv)
    · exact hmade (hs.visits v hv)
  case recorded =>
    intro a v hv
    rcases recorded_of_moved h hv with hv | ⟨-, hrecording | ⟨hv, -⟩⟩
    · exact hmade (hs.recorded a v hv)
    · exact hmade (hs.hand v (by rw [hrecording]; exact List.mem_cons_self))
    · exact hmade (hs.visits v hv)

end Sourced

/-- The peers that can be heard of from the seeds. -/
inductive Heard (world : Endpoint → Encounter) (seeds : List Peer) : Peer → Prop where
  | seed {p : Peer} (h : p ∈ seeds) : Heard world seeds p
  | advertised {p q : Peer} {reply : Reply} {nanos : Nat} (hp : Heard world seeds p)
    (hworld : world p.endpoint = .ends reply nanos) (hq : q ∈ reply.advertised) :
    Heard world seeds q

variable {c : Settings} {world : Endpoint → Encounter} {seeds : List Peer}

/-- What a visit found was heard of. -/
theorem MadeOf.heard {v : Visit} {found : List Peer} (h : MadeOf world (Heard world seeds) v found)
    {q : Peer} (hq : q ∈ found) : Heard world seeds q := by
  obtain ⟨p, reply, nanos, hp, hworld, hyields⟩ := h
  exact .advertised hp hworld (hyields.mem_iff.1 hq)

/-- What a visit found is what its peer advertises. -/
theorem MadeOf.mem_iff {P : Peer → Prop} {v : Visit} {found : List Peer}
    (h : MadeOf world P v found) {reply : Reply} {nanos : Nat}
    (hworld : world v.peer.endpoint = .ends reply nanos) {q : Peer} :
    q ∈ found ↔ q ∈ reply.advertised := by
  obtain ⟨p, reply', nanos', -, hworld', hyields⟩ := h
  rw [hyields.endpoint_eq, hworld'] at hworld
  cases hworld
  exact hyields.mem_iff

namespace System

variable {s s' : System}

/-- Every peer in a system was heard of, and every visit was made of one. -/
abbrev Traced (world : Endpoint → Encounter) (seeds : List Peer) (s : System) : Prop :=
  s.Sourced world (Heard world seeds) (Heard world seeds)

/-- Every run keeps to what can be heard of from the seeds. -/
theorem traced_of_reachable (h : Reachable c world seeds s) : s.Traced world seeds := by
  refine h.invariant (P := fun s => s.Traced world seeds) (sourced_start fun _ hp => .seed hp) ?_
  intro s s' hs hm
  refine sourced_moved hs hm (fun _ hp => hp) (fun _ hp => hp) ?_ ?_
  · intro v found hmade _ q hq
    exact hmade.heard hq
  · intro a p hp
    exact (waiting_of_moved hm hp).imp_right fun hpending => hs.pending p hpending.2

end System

end LevinNet.Crawl
