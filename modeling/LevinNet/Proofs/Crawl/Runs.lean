import LevinNet.Proofs.Crawl.Quiescence
import Mathlib.Data.List.Perm.Subperm

/-
How often a crawl does what it does.

   1. A run is the list of its moves (`System.run`). What some run reaches is what can be reached
      (`reachable_iff_run`), and what holds of runs is proved one move at a time (`run_induct`).
   2. An address that is handed to a worker was queued before, and is not handed out again
      (`count_takes_le`). So addresses that are handed out, or attempted, are no more than the
      endpoints that can be discovered (`length_le_of_discoverable`).
   3. What a visit found is told once at most, and a visit is recorded once at most, for each of these
      moves uses up a visit that was begun (`countP_tells_le`, `countP_records_le`).
-/
namespace LevinNet.Crawl

namespace Action

/-- The address that a move hands to a worker. -/
def taken? : Action → Option String
  | .work _ (.take address) => some address
  | _ => none

/-- Whether a move sends what a visit found. -/
def tells : Action → Bool
  | .work _ .sendFound => true
  | _ => false

/-- Whether a move records a visit. -/
def records : Action → Bool
  | .supervise .record | .supervise .drain => true
  | _ => false

end Action

/-- The addresses that some moves hand to workers, in order. -/
def takes (as : List Action) : List String := as.filterMap Action.taken?

/-- Whether a worker is in a visit, or has found peers in it that it has not told of. -/
def Worker.mayTell : Worker → Bool
  | .visiting _ | .finding _ _ => true
  | _ => false

/-- Whether a worker is in a visit, or has not handed it on. -/
def Worker.mayReport : Worker → Bool
  | .visiting _ | .finding _ _ | .reporting _ => true
  | _ => false

namespace System

variable {c : Settings} {world : Endpoint → Encounter} {seeds : List Peer} {s s' : System}

/-! ## Runs -/

/-- Make some moves one after the other, if they can be made. -/
def run (c : Settings) (world : Endpoint → Encounter) (s : System) : List Action → Option System
  | [] => some s
  | a :: as => (s.step c world a).bind fun s' => run c world s' as

theorem run_append (s : System) (as bs : List Action) :
    s.run c world (as ++ bs) = (s.run c world as).bind fun s' => s'.run c world bs := by
  induction as generalizing s with
  | nil => rfl
  | cons a as ih =>
    rw [List.cons_append, run, run]
    cases s.step c world a with
    | none => rfl
    | some s' => exact ih s'

theorem run_concat {s'' : System} {as : List Action} {a : Action} (h : s.run c world as = some s')
    (hstep : s'.step c world a = some s'') : s.run c world (as ++ [a]) = some s'' := by
  rw [run_append, h]
  simp only [Option.bind_some, run, hstep]

/-- What every step keeps is kept by a run. -/
theorem run_keeps {P : System → Prop}
    (hstep : ∀ s a s', P s → s.step c world a = some s' → P s') {as : List Action} (hs : P s)
    (h : s.run c world as = some s') : P s' := by
  induction as generalizing s with
  | nil =>
    cases h
    exact hs
  | cons a as ih =>
    obtain ⟨s₁, hmove, hrun⟩ := Option.bind_eq_some_iff.1 h
    exact ih (hstep _ _ _ hs hmove) hrun

/-- A run goes on from what can be reached. -/
theorem reachable_run {as : List Action} (hs : Reachable c world seeds s)
    (h : s.run c world as = some s') : Reachable c world seeds s' :=
  run_keeps (P := Reachable c world seeds) (fun _ _ _ hs hstep => .step hs hstep) hs h

/-- What can be reached is what some run reaches. -/
theorem reachable_iff_run :
    Reachable c world seeds s ↔ ∃ as, (start seeds).run c world as = some s := by
  constructor
  · intro h
    induction h with
    | start => exact ⟨[], rfl⟩
    | step hs hstep ih =>
      obtain ⟨as, hrun⟩ := ih
      exact ⟨_, run_concat hrun hstep⟩
  · rintro ⟨as, hrun⟩
    exact reachable_run .start hrun

/-- What holds of no moves at the start, and is kept by one more move, holds of every run. -/
theorem run_induct {P : List Action → System → Prop} (hstart : P [] (start seeds))
    (hstep : ∀ as s a s', Reachable c world seeds s → P as s → s.step c world a = some s' →
      P (as ++ [a]) s') {as : List Action} (h : (start seeds).run c world as = some s) : P as s := by
  -- the induction adds moves at the end, while a run is taken apart at its beginning
  suffices hmore : ∀ bs as s₁, Reachable c world seeds s₁ → P as s₁ → s₁.run c world bs = some s →
      P (as ++ bs) s from hmore as [] _ .start hstart h
  intro bs
  induction bs with
  | nil =>
    intro as s₁ _ hP hrun
    cases hrun
    rwa [List.append_nil]
  | cons b bs ih =>
    intro as s₁ hs₁ hP hrun
    obtain ⟨s₂, hmove, hrun⟩ := Option.bind_eq_some_iff.1 hrun
    rw [List.append_cons]
    exact ih _ s₂ (.step hs₁ hmove) (hstep as s₁ b s₂ hs₁ hP hmove) hrun

/-! ## Addresses that are taken -/

theorem taken?_eq_some_iff {a : Action} {address : String} :
    a.taken? = some address ↔ ∃ i, a = .work i (.take address) := by
  cases a with
  | supervise m => simp [Action.taken?]
  | work i k => cases k <;> simp [Action.taken?]

/-- An address that is handed to a worker waited, and is then in flight. -/
theorem ledger_of_taken {a : Action} {address : String} (htaken : a.taken? = some address)
    (h : s.step c world a = some s') :
    (s.ledger address).waiting = 1 ∧ (s'.ledger address).inFlight = 1 := by
  obtain ⟨i, rfl⟩ := taken?_eq_some_iff.1 htaken
  obtain ⟨w, hw, hwork⟩ := Option.bind_eq_some_iff.1 h
  cases w with
  | taking =>
    obtain ⟨⟨p, f⟩, htake, rfl⟩ := Option.map_eq_some_iff.1 hwork
    obtain ⟨hget, rfl⟩ := Frontier.take_eq_some_iff.1 htake
    simp [ledger, setWorker, AddressMap.contains_of_get? hget]
  | _ => cases hwork

/-- An address is handed to a worker only if it was not in flight before, and never again. -/
theorem count_takes_le {as : List Action} (h : (start seeds).run c world as = some s) (a : String) :
    (takes as).count a ≤ (s.ledger a).inFlight + (s.ledger a).recorded := by
  refine run_induct (P := fun as s =>
    (takes as).count a ≤ (s.ledger a).inFlight + (s.ledger a).recorded) (Nat.zero_le _) ?_ h
  intro as s b s' hs ih hstep
  have hbalanced := balanced_of_reachable hs a
  have hmono := (ledger_moved (tidy_of_reachable hs) (moved_of_step hstep) a).attempted_le hbalanced
  rw [takes, List.filterMap_append, List.count_append]
  change (takes as).count a + _ ≤ _
  cases hb : b.taken? with
  | none =>
    simp only [List.filterMap_cons, hb, List.filterMap_nil, List.count_nil]
    omega
  | some address =>
    simp only [List.filterMap_cons, hb, List.filterMap_nil]
    by_cases ha : address = a
    · subst ha
      obtain ⟨hwaiting, hflight⟩ := ledger_of_taken hb hstep
      have hsingle := hbalanced.single
      rw [List.count_singleton_self]
      omega
    · rw [List.count_cons_of_ne (by simpa using ha), List.count_nil]
      omega

/-- An address that is known is one of a peer that was heard of. -/
theorem heard_of_knows (h : Reachable c world seeds s) {a : String} (ha : s.Knows a) :
    ∃ p, Heard world seeds p ∧ p.address = a := by
  induction h with
  | start => simp [Knows, ledger, start, recorded, Frontier.empty] at ha
  | @step s s' b hs hstep ih =>
    have hs' := hs.step hstep
    have hl := ledger_moved (tidy_of_reachable hs) (moved_of_step hstep) a
    rcases hl.known_or_queued (balanced_of_reachable hs a) ha with hknown | hwaiting
    · exact ih hknown
    · obtain ⟨p, hp⟩ := AddressMap.exists_of_contains (Bool.toNat_eq_one.1 hwaiting)
      exact ⟨p, (traced_of_reachable hs').waiting a p hp, (tidy_of_reachable hs').waiting_key a p hp⟩

/-- Addresses that were each attempted, or are about to be, are each there once, and there are no more
of them than endpoints that can be discovered. -/
theorem length_le_of_discoverable {l : List String} (h : Reachable c world seeds s)
    (hl : ∀ a, l.count a ≤ (s.ledger a).inFlight + (s.ledger a).recorded) :
    l.Nodup ∧ ∀ es : List Endpoint, (∀ e, Discoverable world seeds e → e ∈ es) →
      l.length ≤ es.length := by
  have hnodup : l.Nodup := by
    rw [List.nodup_iff_count]
    intro a
    have hsingle := (balanced_of_reachable h a).single
    have hcount := hl a
    omega
  refine ⟨hnodup, fun es hes => ?_⟩
  have hsubset : l ⊆ es.map Endpoint.text := by
    intro a ha
    have hpos := List.count_pos_iff.2 ha
    have hcount := hl a
    have hknown : s.Knows a := by
      unfold Knows
      omega
    obtain ⟨p, hp, rfl⟩ := heard_of_knows h hknown
    exact List.mem_map.2 ⟨p.endpoint, hes _ (discoverable_of_heard hp), rfl⟩
  have hle := (hnodup.subperm hsubset).length_le
  rwa [List.length_map] at hle

/-! ## Visits that were begun -/

/-- Moves that each use up one of what only the beginning of a visit brings are no more than the visits
that were begun. -/
theorem countP_add_le_attempts {counts : Action → Bool} {F : System → Nat}
    (hstart : F (start seeds) = 0)
    (hstep : ∀ s a s', s.step c world a = some s' →
      (if counts a then 1 else 0) + F s' + s.attempts.length ≤ F s + s'.attempts.length)
    {as : List Action} (h : (start seeds).run c world as = some s) :
    as.countP counts + F s ≤ s.attempts.length := by
  refine run_induct (P := fun as s => as.countP counts + F s ≤ s.attempts.length) ?_ ?_ h
  · rw [hstart]
    exact Nat.le_refl _
  · intro as s a s' _ ih hmove
    have hle := hstep s a s' hmove
    rw [List.countP_append, List.countP_singleton]
    omega

/-- A worker that counts no more than before makes the count no larger. -/
theorem countP_set_le (P : Worker → Bool) {workers : List Worker} {i : Nat} {w w' : Worker}
    (hw : workers[i]? = some w) (h : P w' = true → P w = true) :
    (workers.set i w').countP P ≤ workers.countP P := by
  have hset := countP_set P w' hw
  by_cases hP : P w' = true
  · rw [if_pos hP, if_pos (h hP)] at hset
    omega
  · rw [if_neg hP] at hset
    omega

/-- A worker that counts makes the count larger by one at most. -/
theorem countP_set_le_succ (P : Worker → Bool) {workers : List Worker} {i : Nat} {w : Worker}
    (w' : Worker) (hw : workers[i]? = some w) : (workers.set i w').countP P ≤ workers.countP P + 1 := by
  have hset := countP_set P w' hw
  have hle : (if P w' = true then 1 else 0) ≤ 1 := by split <;> decide
  omega

/-- A worker that counts no more makes the count less by one. -/
theorem countP_set_of_lost (P : Worker → Bool) {workers : List Worker} {i : Nat} {w : Worker}
    (w' : Worker) (hw : workers[i]? = some w) (h : P w = true) (h' : P w' = false) :
    (workers.set i w').countP P + 1 = workers.countP P := by
  have hset := countP_set P w' hw
  rwa [if_pos h, h', if_neg Bool.false_ne_true] at hset

/-- Only the beginning of a visit brings a worker that may tell of found peers. -/
theorem mayTell_of_moved (h : Moved c world s s') :
    s'.workers.countP Worker.mayTell + s.attempts.length
      ≤ s.workers.countP Worker.mayTell + s'.attempts.length := by
  cases h with
  | spawn h => simp [List.countP_replicate, Worker.mayTell]
  | pace hw h => exact Nat.add_le_add_right (countP_set_le _ hw (by cases h <;> exact id)) _
  | @begin i p hw =>
    have hle := countP_set_le_succ Worker.mayTell (.visiting p) hw
    simp only [setWorker, List.length_cons]
    omega
  | finish hw hworld h => exact Nat.add_le_add_right (countP_set_le _ hw fun _ => rfl) _
  | take hw | die hw | sendFound hw | sendVisit hw | quit hw =>
    exact Nat.add_le_add_right (countP_set_le _ hw fun h => absurd h Bool.false_ne_true) _
  | _ => exact Nat.le_refl _

/-- The visits that were begun and neither recorded nor given up. -/
def unrecorded (s : System) : Nat :=
  s.workers.countP Worker.mayReport + s.visits.length + s.supervisor.hand.length

/-- Only the beginning of a visit brings one that is to be recorded. -/
theorem unrecorded_of_moved (h : Moved c world s s') :
    s'.unrecorded + s.attempts.length ≤ s.unrecorded + s'.attempts.length := by
  have hworkers : ∀ {i w w'}, s.workers[i]? = some w →
      (w'.mayReport = true → w.mayReport = true) →
      (s.workers.set i w').countP Worker.mayReport + s.visits.length + s.supervisor.hand.length
        + s.attempts.length ≤ s.unrecorded + s.attempts.length := by
    intro i w w' hw hle
    have hcount := countP_set_le _ hw hle
    simp only [unrecorded]
    omega
  cases h with
  | spawn h => simp [unrecorded, List.countP_replicate, Worker.mayReport, h, Supervisor.hand]
  | pace hw h => exact hworkers hw (by cases h <;> exact id)
  | @begin i p hw =>
    have hle := countP_set_le_succ Worker.mayReport (.visiting p) hw
    simp only [unrecorded, setWorker, List.length_cons]
    omega
  | finish hw hworld h => exact hworkers hw fun _ => rfl
  | sendFound hw => exact hworkers hw fun _ => rfl
  | take hw | die hw | quit hw => exact hworkers hw fun h => absurd h Bool.false_ne_true
  | sendVisit hw =>
    -- the visit goes from the worker to the channel
    have hlost := countP_set_of_lost Worker.mayReport .checking hw rfl rfl
    simp only [unrecorded, setWorker, List.length_append, List.length_singleton]
    omega
  | takeVisit h hvisits =>
    simp only [unrecorded, h, hvisits, Supervisor.hand, List.length_cons, List.length_nil]
    omega
  | @takeFound peers found visit h hfound =>
    cases visit <;> simp [unrecorded, h, Supervisor.resting, Supervisor.hand]
  | @queue p peers visit h => cases visit <;> simp [unrecorded, h, Supervisor.hand]
  | @queued visit h => cases visit <;> simp [unrecorded, h, Supervisor.resting, Supervisor.hand]
  | drain h hvisits => simp [unrecorded, hvisits]
  | seed h | settle h | record h | goOn h | quiesce h | interrupt h | signal h | join h | report h =>
    simp [unrecorded, h, Supervisor.hand]

/-- What the visits found is told at most as often as visits were begun. -/
theorem countP_tells_le {as : List Action} (h : (start seeds).run c world as = some s) :
    as.countP Action.tells ≤ s.attempts.length := by
  refine Nat.le_trans (Nat.le_add_right _ _) (countP_add_le_attempts
    (F := fun s => s.workers.countP Worker.mayTell) rfl ?_ h)
  intro s a s' hstep
  cases htells : a.tells with
  | false =>
    have hle := mayTell_of_moved (moved_of_step hstep)
    simp only [Bool.false_eq_true, if_false]
    omega
  | true =>
    obtain ⟨i, rfl⟩ : ∃ i, a = .work i .sendFound := by
      cases a with
      | supervise m => cases htells
      | work i k => cases k <;> first | exact ⟨i, rfl⟩ | cases htells
    obtain ⟨w, hw, hwork⟩ := Option.bind_eq_some_iff.1 hstep
    cases w with
    | finding v found =>
      cases hwork
      have hlost := countP_set_of_lost Worker.mayTell (.reporting v) hw rfl rfl
      simp only [setWorker, if_true]
      omega
    | _ => cases hwork

/-- Visits are recorded at most as often as visits were begun. -/
theorem countP_records_le {as : List Action} (h : (start seeds).run c world as = some s) :
    as.countP Action.records ≤ s.attempts.length := by
  refine Nat.le_trans (Nat.le_add_right _ _) (countP_add_le_attempts
    (F := unrecorded) rfl ?_ h)
  intro s a s' hstep
  cases hrecords : a.records with
  | false =>
    have hle := unrecorded_of_moved (moved_of_step hstep)
    simp only [Bool.false_eq_true, if_false]
    omega
  | true =>
    have hmove : a = .supervise .record ∨ a = .supervise .drain := by
      cases a with
      | supervise m => cases m <;> first | exact .inl rfl | exact .inr rfl | cases hrecords
      | work i k => cases hrecords
    rcases hmove with rfl | rfl <;> simp only [step, supervise] at hstep
    · split at hstep <;> cases hstep
      next v h =>
      simp only [unrecorded, h, Supervisor.hand, if_true, List.length_singleton, List.length_nil]
      omega
    · split at hstep <;> cases hstep
      next v visits why hvisits h =>
      simp only [unrecorded, hvisits, if_true, List.length_cons]
      omega

end System

end LevinNet.Crawl
