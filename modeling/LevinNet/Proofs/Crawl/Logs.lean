import LevinNet.Proofs.Crawl.Runs
import Mathlib.Data.List.Nodup

/-
What a run sends and what it queues.

   1. `sent` are the visits that workers put into their channel along a run, and `queued` the peers that
      the supervisor put into its queue, both in order. They are told from the moves and from the states
      in which these are made.
   2. `stored` is where a visit is after it was sent: in the channel, in the supervisor's hand, or
      recorded. A move stores what it sends, and loses nothing and makes nothing up
      (`stored_of_step`), so what is stored is what was sent (`stored_perm_sent`).
   3. A peer waits only if it was queued (`waiting_of_step`), and of each address one peer is queued at
      most (`nodup_queued`).
-/
namespace LevinNet

namespace AddressMap

variable {α : Type}

theorem values_insertEntry {key : String} {entries : List (String × α)}
    (h : key ∉ entries.map (·.1)) (a : α) :
    ((insertEntry key a entries).map (·.2)).Perm (a :: entries.map (·.2)) := by
  induction entries with
  | nil => exact .refl _
  | cons entry entries ih =>
    rw [List.map_cons, List.mem_cons, not_or] at h
    rw [insertEntry, if_neg h.1]
    split
    · exact .refl _
    · exact ((ih h.2).cons entry.2).trans (.swap ..)

/-- Setting a new key adds its value. -/
theorem values_insert {m : AddressMap α} {key : String} (h : m.contains key = false) (a : α) :
    (m.insert key a).values.Perm (a :: m.values) := by
  apply values_insertEntry
  intro hkey
  have hcontains := mem_keys_iff.1 hkey
  rw [h] at hcontains
  cases hcontains

theorem lookup_of_mem {entries : List (String × α)} (h : entries.Pairwise fun a b => a.1 < b.1)
    {entry : String × α} (hmem : entry ∈ entries) : lookup entry.1 entries = some entry.2 := by
  induction entries with
  | nil => cases hmem
  | cons first entries ih =>
    obtain ⟨hfirst, hrest⟩ := List.pairwise_cons.1 h
    rcases List.mem_cons.1 hmem with rfl | hmem
    · rw [lookup, if_pos rfl]
    · rw [lookup, if_neg (Std.ne_of_lt (hfirst entry hmem))]
      exact ih hrest hmem

theorem mem_of_lookup {entries : List (String × α)} {key : String} {a : α}
    (h : lookup key entries = some a) : (key, a) ∈ entries := by
  induction entries with
  | nil => cases h
  | cons first entries ih =>
    rw [lookup] at h
    split at h
    · next hkey =>
      cases h
      rw [← hkey]
      exact List.mem_cons_self
    · exact List.mem_cons_of_mem _ (ih h)

/-- The values are those of the look-ups. -/
theorem mem_values_iff {m : AddressMap α} {a : α} : a ∈ m.values ↔ ∃ key, m.get? key = some a := by
  rw [values, List.mem_map]
  constructor
  · rintro ⟨entry, hmem, rfl⟩
    exact ⟨entry.1, lookup_of_mem m.sorted hmem⟩
  · rintro ⟨key, h⟩
    exact ⟨(key, a), mem_of_lookup h, rfl⟩

end AddressMap

namespace Crawl

namespace System

variable {c : Settings} {world : Endpoint → Encounter} {seeds : List Peer} {s s' : System}
  {a : Action}

/-! ## Logs -/

/-- What the moves of a run log, in order; `logged?` tells it of one move from a state. -/
def log {α : Type} (logged? : System → Action → Option α) (c : Settings)
    (world : Endpoint → Encounter) : System → List Action → List α
  | _, [] => []
  | s, a :: as => (logged? s a).toList ++ match s.step c world a with
    | some s' => log logged? c world s' as
    | none => []

/-- One more move logs its entry behind all others. -/
theorem log_concat {α : Type} (logged? : System → Action → Option α) {as : List Action}
    (h : s.run c world as = some s') :
    log logged? c world s (as ++ [a]) = log logged? c world s as ++ (logged? s' a).toList := by
  induction as generalizing s with
  | nil =>
    cases h
    simp only [log, List.nil_append]
    split <;> exact List.append_nil _
  | cons b as ih =>
    obtain ⟨s₁, hmove, hrun⟩ := Option.bind_eq_some_iff.1 h
    simp only [List.cons_append, log, hmove, ih hrun, List.append_assoc]

/-- The induction over runs, with the run at hand. -/
theorem run_induct_run {P : List Action → System → Prop} (hstart : P [] (start seeds))
    (hstep : ∀ as s a s', (start seeds).run c world as = some s → P as s →
      s.step c world a = some s' → P (as ++ [a]) s')
    {as : List Action} (h : (start seeds).run c world as = some s) : P as s := by
  refine (run_induct (P := fun as s => (start seeds).run c world as = some s ∧ P as s)
    ⟨rfl, hstart⟩ ?_ h).2
  rintro as s a s' - ⟨hrun, hP⟩ hmove
  exact ⟨run_concat hrun hmove, hstep as s a s' hrun hP hmove⟩

/-- The visit that a move puts into the channel. -/
def sent? (s : System) : Action → Option Visit
  | .work i .sendVisit =>
    match s.workers[i]? with
    | some (.reporting v) => some v
    | _ => none
  | _ => none

/-- The peer that a move queues: the next that is pending, unless its address is known. -/
def queued? (s : System) : Action → Option Peer
  | .supervise .seed | .supervise .queue =>
    s.supervisor.pending.head?.filter fun p => !s.frontier.knows p.address
  | _ => none

/-- The visits that workers put into the channel in a run from the seeds. -/
def sent (c : Settings) (world : Endpoint → Encounter) (seeds : List Peer) (as : List Action) :
    List Visit :=
  log sent? c world (start seeds) as

/-- The peers that were queued in a run from the seeds. -/
def queued (c : Settings) (world : Endpoint → Encounter) (seeds : List Peer) (as : List Action) :
    List Peer :=
  log queued? c world (start seeds) as

/-! ## What a move logs -/

/-- The visits that were sent: those recorded, in hand and in the channel. -/
def stored (s : System) : List Visit := s.recorded.values ++ s.supervisor.hand ++ s.visits

/-- A visit that was sent and is to be recorded is the first of its address. -/
theorem not_recorded_of_begun (h : Reachable c world seeds s) {v : Visit}
    (hv : v ∈ s.visits ∨ v ∈ s.supervisor.hand) : s.recorded.contains v.address = false := by
  have hbalanced := balanced_of_reachable h v.address
  have hbegun : 0 < s.visits.countP (·.address == v.address)
      + s.supervisor.hand.countP (·.address == v.address) := by
    rcases hv with hv | hv
    · have hpos : 0 < s.visits.countP (·.address == v.address) :=
        List.countP_pos_iff.2 ⟨v, hv, BEq.rfl⟩
      omega
    · have hpos : 0 < s.supervisor.hand.countP (·.address == v.address) :=
        List.countP_pos_iff.2 ⟨v, hv, BEq.rfl⟩
      omega
  have hheld := hbalanced.held_le
  have hsingle := hbalanced.single
  simp only [ledger] at hheld hsingle
  exact Bool.toNat_eq_zero.1 (by omega)

/-- Recording a new visit adds it to those that are recorded. -/
theorem values_record {f : Frontier} {v : Visit} (h : f.visited.contains v.address = false)
    (others : List Visit) :
    ((f.record v).visited.values ++ others).Perm (f.visited.values ++ v :: others) := by
  rw [Frontier.record, h, if_neg Bool.false_ne_true]
  exact ((AddressMap.values_insert h v).append_right others).trans List.perm_middle.symm

/-- The supervisor loses no visit that was sent, and makes none up. -/
theorem stored_of_supervise {m : Move} (hs : Reachable c world seeds s)
    (h : s.supervise c m = some s') : s'.stored.Perm s.stored := by
  cases m <;> simp only [supervise] at h
  case record =>
    split at h <;> cases h
    next v hv =>
    have hnew := not_recorded_of_begun hs (v := v) (.inr (by rw [hv]; exact List.mem_cons_self))
    rw [recorded_eq (by rw [hv]; rfl)] at hnew
    simpa [stored, hv, recorded, Supervisor.hand] using values_record hnew s.visits
  case drain =>
    split at h <;> cases h
    next v visits why hvisits hdraining =>
    have hnew := not_recorded_of_begun hs (v := v) (.inl (by rw [hvisits]; exact List.mem_cons_self))
    rw [recorded_eq (by rw [hdraining]; rfl)] at hnew
    simpa [stored, hdraining, hvisits, recorded, Supervisor.hand] using values_record hnew visits
  case seed =>
    split at h <;> cases h
    simp [stored, recorded, Supervisor.hand, Frontier.visited_enqueue, *]
  case queue =>
    split at h <;> cases h
    · next p peers visit hqueueing =>
      cases visit <;> simp [stored, recorded, Supervisor.hand, Frontier.visited_enqueue, *]
    · simp [stored, recorded, Supervisor.hand, *]
    · simp [stored, recorded, Supervisor.hand, *]
  case judge =>
    split at h
    · split at h <;> cases h <;> simp [stored, recorded, Supervisor.hand, *]
    · cases h
  case join =>
    split at h
    · split at h <;> cases h
      simp [stored, recorded, Supervisor.hand, *]
    · cases h
  all_goals
    split at h <;> cases h <;> simp [stored, recorded, Supervisor.hand, Frontier.drain, *]

/-- What a worker changes of what it shares: it hands its visit on, and it may take a peer that waits. -/
structure Shares (s s' : System) (handed : List Visit) : Prop where
  supervisor : s'.supervisor = s.supervisor
  visits : s'.visits = s.visits ++ handed
  visited : s'.frontier.visited = s.frontier.visited
  waiting : ∀ {address p}, s'.frontier.waiting.get? address = some p →
    s.frontier.waiting.get? address = some p

theorem shares_of_work {i : Nat} {w : Worker} {k : Work} (hw : s.workers[i]? = some w)
    (h : s.work world i w k = some s') : Shares s s' (s.sent? (.work i k)).toList := by
  cases k <;> simp only [work] at h
  case sendVisit =>
    split at h <;> cases h
    exact ⟨rfl, by simp [sent?, hw, setWorker], rfl, id⟩
  case take address =>
    split at h
    · obtain ⟨⟨p, f⟩, htake, rfl⟩ := Option.map_eq_some_iff.1 h
      obtain ⟨-, rfl⟩ := Frontier.take_eq_some_iff.1 htake
      exact ⟨rfl, (List.append_nil _).symm, rfl, AddressMap.get?_of_erase⟩
    · cases h
  all_goals
    repeat' split at h
    all_goals first | cases h; exact ⟨rfl, (List.append_nil _).symm, rfl, id⟩ | cases h

/-- A move stores what it sends, and loses nothing that was stored. -/
theorem stored_of_step (hs : Reachable c world seeds s) (h : s.step c world a = some s') :
    s'.stored.Perm (s.stored ++ (s.sent? a).toList) := by
  cases a with
  | supervise m =>
    have hperm := stored_of_supervise hs h
    rwa [← List.append_nil s.stored] at hperm
  | work i k =>
    obtain ⟨w, hw, hwork⟩ := Option.bind_eq_some_iff.1 h
    obtain ⟨hsupervisor, hvisits, hvisited, -⟩ := shares_of_work hw hwork
    rw [stored, stored, recorded, recorded, hsupervisor, hvisits, hvisited, ← List.append_assoc]

/-- What was sent is stored. -/
theorem stored_perm_sent {as : List Action} (h : (start seeds).run c world as = some s) :
    s.stored.Perm (sent c world seeds as) := by
  refine run_induct_run (P := fun as s => s.stored.Perm (sent c world seeds as)) (.refl _) ?_ h
  intro as s a s' hrun ih hstep
  rw [sent, log_concat sent? hrun]
  exact (stored_of_step (reachable_iff_run.2 ⟨as, hrun⟩) hstep).trans (ih.append_right _)

/-! ## What is queued -/

/-- In its loop, the supervisor queues just the peers of which nothing is known. -/
theorem not_knows_iff (hloop : s.supervisor.ending? = none) {address : String} :
    ¬ s.Knows address ↔ s.frontier.knows address = false := by
  rw [knows_iff, recorded_of_loop hloop, Frontier.knows]
  cases s.frontier.visited.contains address <;> cases s.frontier.inFlight.contains address <;>
    cases s.frontier.waiting.contains address <;> simp

/-- Queueing the next peer that is pending. -/
inductive Enqueues (s s' : System) (p : Peer) : Prop where
  | mk {ps : List Peer} (hpending : s.supervisor.pending = p :: ps)
    (hloop : s.supervisor.ending? = none) (hloop' : s'.supervisor.ending? = none)
    (hfrontier : s'.frontier = (s.frontier.enqueue p).2)

/-- The two moves that queue peers, of which one may instead come to the end of them. -/
theorem enqueues_of_step {m : Move} (hm : m = .seed ∨ m = .queue)
    (h : s.supervise c m = some s') :
    (∃ p, Enqueues s s' p) ∨ s.supervisor.pending = [] ∧ s'.frontier = s.frontier := by
  rcases hm with rfl | rfl <;> simp only [supervise] at h
  · split at h <;> cases h
    next p ps hs => exact .inl ⟨p, .mk (by rw [hs]; rfl) (by rw [hs]; rfl) rfl rfl⟩
  · split at h <;> cases h
    · next p ps visit hs => exact .inl ⟨p, .mk (by rw [hs]; rfl) (by rw [hs]; rfl) rfl rfl⟩
    · next hs => exact .inr ⟨by rw [hs]; rfl, rfl⟩
    · next v hs => exact .inr ⟨by rw [hs]; rfl, rfl⟩

theorem queued?_of_move {m : Move} (hm : m = .seed ∨ m = .queue) :
    s.queued? (.supervise m)
      = s.supervisor.pending.head?.filter fun p => !s.frontier.knows p.address := by
  rcases hm with rfl | rfl <;> rfl

/-- A peer that is queued was the next that is pending, nothing was known of its address, and it is now. -/
theorem queued?_eq_some {p : Peer} (h : s.step c world a = some s') (hq : s.queued? a = some p) :
    p ∈ s.supervisor.pending ∧ ¬ s.Knows p.address ∧ s'.Knows p.address := by
  obtain ⟨m, hm, rfl⟩ : ∃ m, (m = .seed ∨ m = .queue) ∧ a = .supervise m := by
    cases a with
    | work i k => cases hq
    | supervise m =>
      cases m with
      | seed => exact ⟨_, .inl rfl, rfl⟩
      | queue => exact ⟨_, .inr rfl, rfl⟩
      | _ => cases hq
  rw [queued?_of_move hm] at hq
  obtain ⟨hhead, hnew⟩ := Option.filter_eq_some_iff.1 hq
  rcases enqueues_of_step hm h with ⟨q, hpending, hloop, hloop', hfrontier⟩ | ⟨hpending, -⟩
  · rw [hpending, List.head?_cons, Option.some.injEq] at hhead
    subst hhead
    refine ⟨by rw [hpending]; exact List.mem_cons_self, (not_knows_iff hloop).2 (by simpa using hnew),
      knows_enqueue hloop' hfrontier⟩
  · rw [hpending] at hhead
    cases hhead

/-- A peer waits only if it was queued. -/
theorem waiting_of_step {address : String} {p : Peer} (h : s.step c world a = some s')
    (hp : s'.frontier.waiting.get? address = some p) :
    s.frontier.waiting.get? address = some p ∨ s.queued? a = some p := by
  cases a with
  | work i k =>
    obtain ⟨w, hw, hwork⟩ := Option.bind_eq_some_iff.1 h
    exact .inl ((shares_of_work hw hwork).waiting hp)
  | supervise m =>
    by_cases hm : m = .seed ∨ m = .queue
    · rw [queued?_of_move hm]
      rcases enqueues_of_step hm h with ⟨q, hpending, -, -, hfrontier⟩ | ⟨-, hfrontier⟩
      · rw [hfrontier] at hp
        cases hknows : s.frontier.knows q.address with
        | true =>
          rw [Frontier.enqueue_of_knows hknows] at hp
          exact .inl hp
        | false =>
          rw [Frontier.enqueue_of_new hknows, AddressMap.get?_insert] at hp
          split at hp
          · cases hp
            exact .inr (by rw [hpending, List.head?_cons, Option.filter_some, hknows]; rfl)
          · exact .inl hp
      · rw [hfrontier] at hp
        exact .inl hp
    · left
      change s.supervise c m = some s' at h
      cases m <;> simp only [supervise] at h
      case seed => exact absurd (.inl rfl) hm
      case queue => exact absurd (.inr rfl) hm
      case record | drain =>
        split at h <;> cases h
        exact AddressMap.get?_of_erase hp
      all_goals
        repeat' split at h
        all_goals first | cases h; exact hp | cases h

/-- The peers that were queued have addresses of their own, which are known. -/
theorem nodup_queued {as : List Action} (h : (start seeds).run c world as = some s) :
    ((queued c world seeds as).map Peer.address).Nodup ∧
      ∀ p ∈ queued c world seeds as, s.Knows p.address := by
  refine run_induct_run (P := fun as s => ((queued c world seeds as).map Peer.address).Nodup ∧
    ∀ p ∈ queued c world seeds as, s.Knows p.address) ⟨List.nodup_nil, ?_⟩ ?_ h
  · intro p hp
    cases hp
  · rintro as s a s' hrun ⟨hnodup, hknown⟩ hstep
    have htidy := tidy_of_reachable (reachable_iff_run.2 ⟨as, hrun⟩)
    have hkeeps : ∀ p ∈ queued c world seeds as, s'.Knows p.address :=
      fun p hp => knows_of_moved htidy (moved_of_step hstep) (hknown p hp)
    rw [queued, log_concat queued? hrun]
    cases hq : s.queued? a with
    | none =>
      rw [Option.toList_none, List.append_nil]
      exact ⟨hnodup, hkeeps⟩
    | some p =>
      obtain ⟨-, hnew, hknows⟩ := queued?_eq_some hstep hq
      rw [Option.toList_some]
      constructor
      · -- the address of a peer that was queued before is known
        have hfresh : p.address ∉ (queued c world seeds as).map Peer.address := by
          intro hmem
          obtain ⟨q, hq, hsame⟩ := List.mem_map.1 hmem
          exact hnew (hsame ▸ hknown q hq)
        rw [List.map_append, List.map_singleton, ← List.concat_eq_append]
        exact List.Nodup.concat hfresh hnodup
      · intro q hq
        rcases List.mem_append.1 hq with hq | hq
        · exact hkeeps q hq
        · rw [List.mem_singleton.1 hq]
          exact hknows

end System

end Crawl

end LevinNet
