import LevinNet.Proofs.Crawl.Moves

/-
Where peers and visits are in a crawl, and where they go.

   1. A peer is pending with the supervisor, in the channel of what was found, waiting, or with a worker;
      a visit is with a worker, in the channel of visits, in the supervisor's hand, or recorded.
   2. For each of these places, one law says where what a move puts there comes from
      (`pending_of_moved`, `found_of_moved`, `waiting_of_moved`, `worker_of_moved`, `visits_of_moved`,
      `hand_of_moved`, `recorded_of_moved`).
   3. `Tidy` is what every run keeps of the maps' keys.
-/
namespace LevinNet.Crawl

/-- The peers that the supervisor is about to queue. -/
def Supervisor.pending : Supervisor → List Peer
  | .seeding peers | .queueing peers _ => peers
  | _ => []

/-- The visit that the supervisor has taken and not recorded. -/
def Supervisor.hand : Supervisor → List Visit
  | .queueing _ (some v) | .receiving v | .recording v => [v]
  | _ => []

/-- Whether the supervisor has made its report. -/
def Supervisor.isFinished : Supervisor → Bool
  | .finished _ _ => true
  | _ => false

/-- Why the supervisor has left its loop, if it has. -/
def Supervisor.ending? : Supervisor → Option Ending
  | .stopping why | .joining why | .draining why | .finished why _ => some why
  | _ => none

namespace System

variable {c : Settings} {world : Endpoint → Encounter} {seeds : List Peer} {s s' : System}

/-- The visits that are recorded, also once they are reported. -/
def recorded (s : System) : AddressMap Visit :=
  match s.supervisor with
  | .finished _ r => r.visits
  | _ => s.frontier.visited

/-- Before the report, what is recorded is in the frontier. -/
theorem recorded_eq (h : s.supervisor.isFinished = false) : s.recorded = s.frontier.visited := by
  cases hs : s.supervisor with
  | finished why r =>
    rw [hs] at h
    cases h
  | _ => rw [recorded, hs]

theorem recorded_of_loop (h : s.supervisor.ending? = none) : s.recorded = s.frontier.visited := by
  apply recorded_eq
  cases hs : s.supervisor with
  | finished why r =>
    rw [hs] at h
    cases h
  | _ => rfl

/-! ## Peers -/

theorem pending_of_moved (h : Moved c world s s') {p : Peer} (hp : p ∈ s'.supervisor.pending) :
    p ∈ s.supervisor.pending ∨ ∃ peers ∈ s.found, p ∈ peers := by
  cases h with
  | seed h =>
    rw [h]
    exact .inl (List.mem_cons_of_mem _ hp)
  | queue h =>
    rw [h]
    exact .inl (List.mem_cons_of_mem _ hp)
  | takeFound h hfound =>
    rw [hfound]
    exact .inr ⟨_, List.mem_cons_self, hp⟩
  | @queued visit h => cases visit <;> cases hp
  | spawn | takeVisit | settle | record | goOn | quiesce | interrupt | signal | join | report =>
    cases hp
  | drain | pace | take | begin | finish | die | sendFound | sendVisit | quit => exact .inl hp

/-- What was found is sent by a worker that then reports its visit. -/
theorem found_of_moved (h : Moved c world s s') {peers : List Peer} (hp : peers ∈ s'.found) :
    peers ∈ s.found ∨ ∃ v, .finding v peers ∈ s.workers ∧ .reporting v ∈ s'.workers := by
  cases h with
  | takeFound h hfound =>
    rw [hfound]
    exact .inl (List.mem_cons_of_mem _ hp)
  | sendFound hw =>
    rcases List.mem_append.1 hp with hp | hp
    · exact .inl hp
    · obtain ⟨hi, -⟩ := List.getElem?_eq_some_iff.1 hw
      rw [List.mem_singleton.1 hp]
      exact .inr ⟨_, List.mem_of_getElem? hw, List.mem_set hi _⟩
  | _ => exact .inl hp

/-- A peer that waits was pending, and waits under its address. -/
theorem waiting_of_moved (h : Moved c world s s') {a : String} {p : Peer}
    (hp : s'.frontier.waiting.get? a = some p) :
    s.frontier.waiting.get? a = some p ∨ p.address = a ∧ p ∈ s.supervisor.pending := by
  have henqueue : ∀ {q : Peer}, q ∈ s.supervisor.pending →
      (s.frontier.enqueue q).2.waiting.get? a = some p →
      s.frontier.waiting.get? a = some p ∨ p.address = a ∧ p ∈ s.supervisor.pending := by
    intro q hq hget
    cases hknows : s.frontier.knows q.address with
    | true =>
      rw [Frontier.enqueue_of_knows hknows] at hget
      exact .inl hget
    | false =>
      rw [Frontier.enqueue_of_new hknows, AddressMap.get?_insert] at hget
      by_cases ha : q.address = a
      · rw [if_pos ha] at hget
        cases hget
        exact .inr ⟨ha, hq⟩
      · rw [if_neg ha] at hget
        exact .inl hget
  cases h with
  | seed h => exact henqueue (by rw [h]; exact List.mem_cons_self) hp
  | queue h => exact henqueue (by rw [h]; exact List.mem_cons_self) hp
  | record h => exact .inl (AddressMap.get?_of_erase hp)
  | drain h hvisits => exact .inl (AddressMap.get?_of_erase hp)
  | take hw h =>
    obtain ⟨-, rfl⟩ := Frontier.take_eq_some_iff.1 h
    exact .inl (AddressMap.get?_of_erase hp)
  | _ => exact .inl hp

/-! ## Workers -/

/-- Where a worker comes from that is there after a move from `s` to `s'`. -/
inductive WorkerFrom (world : Endpoint → Encounter) (s s' : System) (w : Worker) : Prop where
  | kept (h : w ∈ s.workers)
  /-- It has no peer. -/
  | free (h : w ∈ [.checking, .taking, .idle, .exited])
  | took {a : String} {p : Peer} (h : s.frontier.waiting.get? a = some p) (hw : w = .holding p)
  | began {p : Peer} (h : .holding p ∈ s.workers) (hw : w = .visiting p)
  | died {p : Peer} (h : .visiting p ∈ s.workers) (hw : w = .died p)
  | finished {p : Peer} {reply : Reply} {nanos : Nat} {v : Visit} {found : List Peer}
    (h : .visiting p ∈ s.workers) (hworld : world p.endpoint = .ends reply nanos)
    (ho : reply.Yields p v found) (hw : w = .finished v found)
  /-- It has sent what it found, and holds the visit. -/
  | sent {v : Visit} {found : List Peer} (h : .finding v found ∈ s.workers)
    (hfound : found ∈ s'.found) (hw : w = .reporting v)

theorem worker_of_moved (h : Moved c world s s') {w : Worker} (hw : w ∈ s'.workers) :
    WorkerFrom world s s' w := by
  -- all moves but the first replace one worker at most
  have hset : ∀ {i : Nat} {w' : Worker}, w ∈ s.workers.set i w' → w ∈ s.workers ∨ w = w' :=
    fun h => List.mem_or_eq_of_mem_set h
  cases h with
  | spawn h =>
    rw [List.eq_of_mem_replicate hw]
    exact .free (by simp)
  | pace hw' h =>
    rcases hset hw with hold | rfl
    · exact .kept hold
    · exact .free (by cases h <;> simp)
  | take hw' h =>
    obtain ⟨hget, -⟩ := Frontier.take_eq_some_iff.1 h
    rcases hset hw with hold | hnew
    · exact .kept hold
    · exact .took hget hnew
  | begin hw' =>
    rcases hset hw with hold | hnew
    · exact .kept hold
    · exact .began (List.mem_of_getElem? hw') hnew
  | finish hw' hworld h =>
    rcases hset hw with hold | hnew
    · exact .kept hold
    · exact .finished (List.mem_of_getElem? hw') hworld h hnew
  | die hw' hworld =>
    rcases hset hw with hold | hnew
    · exact .kept hold
    · exact .died (List.mem_of_getElem? hw') hnew
  | sendFound hw' =>
    rcases hset hw with hold | hnew
    · exact .kept hold
    · refine .sent (List.mem_of_getElem? hw') ?_ hnew
      exact List.mem_append_right _ List.mem_cons_self
  | sendVisit hw' =>
    rcases hset hw with hold | rfl
    · exact .kept hold
    · exact .free (by simp)
  | quit hw' h hdown =>
    rcases hset hw with hold | rfl
    · exact .kept hold
    · exact .free (by simp)
  | _ => exact .kept hw

/-! ## Visits -/

theorem visits_of_moved (h : Moved c world s s') {v : Visit} (hv : v ∈ s'.visits) :
    v ∈ s.visits ∨ .reporting v ∈ s.workers := by
  cases h with
  | takeVisit h hvisits =>
    rw [hvisits]
    exact .inl (List.mem_cons_of_mem _ hv)
  | drain h hvisits =>
    rw [hvisits]
    exact .inl (List.mem_cons_of_mem _ hv)
  | sendVisit hw =>
    rcases List.mem_append.1 hv with hv | hv
    · exact .inl hv
    · rw [List.mem_singleton.1 hv]
      exact .inr (List.mem_of_getElem? hw)
  | _ => exact .inl hv

theorem hand_of_moved (h : Moved c world s s') {v : Visit} (hv : v ∈ s'.supervisor.hand) :
    v ∈ s.supervisor.hand ∨ v ∈ s.visits := by
  cases h with
  | @takeFound peers found visit h hfound =>
    rw [h]
    cases visit <;> exact .inl hv
  | takeVisit h hvisits =>
    rw [hvisits, List.mem_singleton.1 hv]
    exact .inr List.mem_cons_self
  | @queue p peers visit h =>
    rw [h]
    cases visit <;> exact .inl hv
  | @queued visit h =>
    rw [h]
    cases visit <;> exact .inl hv
  | settle h hfound =>
    rw [h]
    exact .inl hv
  | seed | spawn | record | goOn | quiesce | interrupt | signal | join | report => cases hv
  | drain | pace | take | begin | finish | die | sendFound | sendVisit | quit => exact .inl hv

/-- A visit is recorded under its address, out of the supervisor's hand or out of the channel. -/
theorem recorded_of_moved (h : Moved c world s s') {a : String} {v : Visit}
    (hv : s'.recorded.get? a = some v) :
    s.recorded.get? a = some v ∨ v.address = a ∧
      (s.supervisor = .recording v ∨ v ∈ s.visits ∧ ∃ why, s.supervisor = .draining why) := by
  have hrecord : ∀ {u : Visit}, (s.frontier.record u).visited.get? a = some v →
      s.frontier.visited.get? a = some v ∨ v.address = a ∧ u = v := by
    intro u hget
    rw [Frontier.get?_visited_record] at hget
    by_cases ha : s.frontier.visited.contains u.address = false ∧ u.address = a
    · rw [if_pos ha] at hget
      cases hget
      exact .inr ⟨ha.2, rfl⟩
    · rw [if_neg ha] at hget
      exact .inl hget
  cases h with
  | record h =>
    rw [recorded_eq (by rw [h]; rfl)]
    rcases hrecord hv with hold | ⟨ha, rfl⟩
    · exact .inl hold
    · exact .inr ⟨ha, .inl h⟩
  | drain h hvisits =>
    rw [recorded_eq (by simp only [h]; rfl)] at hv
    rw [recorded_eq (by rw [h]; rfl)]
    rcases hrecord hv with hold | ⟨ha, rfl⟩
    · exact .inl hold
    · exact .inr ⟨ha, .inr ⟨by rw [hvisits]; exact List.mem_cons_self, _, h⟩⟩
  | @takeFound peers found visit h hfound =>
    left
    cases visit <;> simpa [recorded, h, Supervisor.resting] using hv
  | @queued visit h =>
    left
    cases visit <;> simpa [recorded, h, Supervisor.resting] using hv
  | seed h | queue h =>
    rw [recorded_of_loop rfl, Frontier.visited_enqueue] at hv
    rw [recorded_eq (by rw [h]; rfl)]
    exact .inl hv
  | spawn h | takeVisit h | settle h | goOn h | quiesce h | interrupt h | signal h | join h
  | report h => exact .inl (by simpa [recorded, h] using hv)
  | take hw h =>
    obtain ⟨-, rfl⟩ := Frontier.take_eq_some_iff.1 h
    exact .inl hv
  | pace | begin | finish | die | sendFound | sendVisit | quit => exact .inl hv

/-! ## The supervisor -/

/-- Once the supervisor has left its loop, it is out for the same reason for good. -/
theorem ending_keeps (h : Moved c world s s') {why : Ending}
    (hended : s.supervisor.ending? = some why) : s'.supervisor.ending? = some why := by
  cases h with
  | signal h | join h | report h =>
    rw [h] at hended
    exact hended
  | @takeFound peers found visit h hfound =>
    rw [h] at hended
    cases visit <;> cases hended
  | seed h | spawn h | takeVisit h | queue h | queued h | settle h | record h | goOn h | quiesce h
  | interrupt h =>
    rw [h] at hended
    cases hended
  | drain | pace | take | begin | finish | die | sendFound | sendVisit | quit => exact hended

/-! ## Keys -/

/-- Peers wait, and visits are recorded, under their own addresses; and there are no workers before
the seeds are queued. -/
structure Tidy (s : System) : Prop where
  waiting_key : ∀ a p, s.frontier.waiting.get? a = some p → p.address = a
  recorded_key : ∀ a v, s.recorded.get? a = some v → v.address = a
  unspawned : ∀ seeds, s.supervisor = .seeding seeds → s.workers = []

theorem tidy_start (seeds : List Peer) : (System.start seeds).Tidy where
  waiting_key := fun _ _ h => by cases h
  recorded_key := fun _ _ h => by cases h
  unspawned := fun _ _ => rfl

theorem tidy_moved (hs : s.Tidy) (h : Moved c world s s') : s'.Tidy where
  waiting_key a p hp := by
    rcases waiting_of_moved h hp with hp | ⟨ha, -⟩
    · exact hs.waiting_key a p hp
    · exact ha
  recorded_key a v hv := by
    rcases recorded_of_moved h hv with hv | ⟨ha, -⟩
    · exact hs.recorded_key a v hv
    · exact ha
  unspawned seeds hseeds := by
    cases h with
    | seed h => exact hs.unspawned _ h
    | queued h => next visit => cases visit <;> cases hseeds
    | spawn | takeFound | takeVisit | queue | settle | record | goOn | quiesce | interrupt | signal
    | join | report => cases hseeds
    | drain => exact hs.unspawned seeds hseeds
    | pace | take | begin | finish | die | sendFound | sendVisit | quit =>
      -- no worker can have moved, for there is none
      simp only [setWorker, hs.unspawned seeds hseeds, List.set_nil]

/-- The keys are in order in all that a run can reach. -/
theorem tidy_of_reachable (h : Reachable c world seeds s) : s.Tidy :=
  h.invariant (tidy_start seeds) fun _ _ hs hm => tidy_moved hs hm

end System

end LevinNet.Crawl
