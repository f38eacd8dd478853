import LevinNet.Proofs.Crawl.Scheduled
import LevinNet.Proofs.Crawl.Shutdown
import Mathlib.Algebra.Order.BigOperators.Group.Finset
import Mathlib.Algebra.Ring.Nat
import Mathlib.Data.Finset.Basic

/-
How many moves a crawl has before it.

   1. `Load` counts the moves that are left to the supervisor, to the workers and for what is in the
      channels, where a visit is charged from the start with all that it may advertise. `untaken` is the
      same for the visits that are still to be begun, to the endpoints of a finite set.
   2. Every move makes the sum of both smaller (`rank_lt_of_moved`). The one that does not is the waking of
      an idle worker, which finds nothing and rests again. So only a crawl that is not shut down, with
      nothing to do, may go on for ever.
   3. Under the shutdown the moves are bounded by the rank (`length_le_rank`), and some move can be made
      until there is a report (`can_move`). So the report comes, whatever moves are made.
-/
namespace LevinNet.Crawl

open Finset

/-- The moves that are left to a worker and for what it sends, at most. -/
def Worker.load (world : Endpoint → Encounter) (down : Bool) : Worker → Nat
  | .exited | .died _ => 0
  | .checking => if down then 1 else 4
  | .idle => 2
  | .taking => 3
  | .reporting _ => 9
  | .finding _ found => 12 + found.length
  | .visiting p => 13 + World.advertisedBy (world p.endpoint)
  | .holding p => 14 + World.advertisedBy (world p.endpoint)

/-- The moves that are left to the supervisor with what it has in hand, before `workers` workers are there
and from then on. -/
def Supervisor.load (workers : Nat) : Supervisor → Nat
  | .seeding seeds => 5 + 4 * max workers 1 + seeds.length
  | .queueing peers none => 5 + peers.length
  | .queueing peers (some _) => 8 + peers.length
  | .receiving _ => 7
  | .recording _ => 6
  | .judging => 5
  | .selecting => 4
  | .stopping _ => 3
  | .joining _ => 2
  | .draining _ => 1
  | .finished _ _ => 0

namespace System

/-- The moves that are left for what is under way. -/
def load (c : Settings) (world : Endpoint → Encounter) (s : System) : Nat :=
  s.supervisor.load c.workers + (s.workers.map (Worker.load world s.shutdown)).sum
    + (s.found.map fun peers => peers.length + 2).sum + 4 * s.visits.length

/-- Whether an address was handed to a worker or recorded. -/
def Taken (s : System) (a : String) : Prop := 0 < (s.ledger a).inFlight + (s.ledger a).recorded

instance (s : System) (a : String) : Decidable (s.Taken a) := inferInstanceAs (Decidable (0 < _))

/-- The moves that are left for visits to endpoints of `es` that are still to be begun. -/
def untaken (world : Endpoint → Encounter) (es : Finset Endpoint) (s : System) : Nat :=
  ∑ e ∈ es with ¬ s.Taken e.text, (12 + World.advertisedBy (world e))

/-- All moves that are left, if no endpoint out of `es` is visited. -/
def rank (c : Settings) (world : Endpoint → Encounter) (es : Finset Endpoint) (s : System) : Nat :=
  s.load c world + s.untaken world es

variable {c : Settings} {world : Endpoint → Encounter} {seeds : List Peer} {s s' : System}
  {es : Finset Endpoint}

/-! ## What a move leaves -/

/-- A list with one place changed differs in its sum by what stands there. -/
theorem sum_set (f : Worker → Nat) {workers : List Worker} {i : Nat} {w : Worker} (w' : Worker)
    (hw : workers[i]? = some w) :
    ((workers.set i w').map f).sum + f w = (workers.map f).sum + f w' := by
  induction workers generalizing i with
  | nil => simp at hw
  | cons x workers ih =>
    cases i with
    | zero =>
      simp only [List.getElem?_cons_zero, Option.some.injEq] at hw
      subst hw
      simp only [List.set_cons_zero, List.map_cons, List.sum_cons]
      omega
    | succ i =>
      have h := ih (by simpa using hw)
      simp only [List.set_cons_succ, List.map_cons, List.sum_cons]
      omega

/-- The shutdown leaves a worker no more to do. -/
theorem load_down_le (world : Endpoint → Encounter) (w : Worker) (down : Bool) :
    w.load world true ≤ w.load world down := by
  cases w <;> cases down <;> simp [Worker.load]

theorem load_finished_le (world : Endpoint → Encounter) (v : Visit) (found : List Peer) (down : Bool) :
    (Worker.finished v found).load world down ≤ 12 + found.length := by
  cases found <;> simp [Worker.finished, Worker.load]

theorem length_advertised (reply : Reply) (nanos : Nat) :
    reply.advertised.length = World.advertisedBy (.ends reply nanos) := by
  cases reply <;> simp [Reply.advertised, World.advertisedBy, Directory.size, AddressMap.size,
    AddressMap.values]

/-- A worker whose load becomes smaller makes the whole load smaller. -/
theorem load_setWorker_lt {i : Nat} {w w' : Worker} (hw : s.workers[i]? = some w)
    (h : w'.load world s.shutdown < w.load world s.shutdown) :
    (s.setWorker i w').load c world < s.load c world := by
  have hsum := sum_set (Worker.load world s.shutdown) w' hw
  simp only [load, setWorker]
  omega

theorem load_checking_le (world : Endpoint → Encounter) (down : Bool) :
    Worker.load world down .checking ≤ 4 := by
  cases down <;> simp [Worker.load]

/-- A worker that takes no peer has less to do after its move, unless it was idle and is not shut down. -/
theorem load_of_pace {w w' : Worker} (hcalm : s.shutdown = false → w ≠ .idle) (h : w.Pace s w') :
    w'.load world s.shutdown < w.load world s.shutdown := by
  cases h with
  | check hdown | exit hdown => simp [Worker.load, hdown]
  | wake =>
    cases hdown : s.shutdown with
    | false => exact absurd rfl (hcalm hdown)
    | true => simp [Worker.load]
  | rest | leave => simp [Worker.load]

/-- A peer is handed to a worker. -/
inductive Takes (s s' : System) : Peer → Prop where
  | intro {address : String} {p : Peer} (hget : s.frontier.waiting.get? address = some p)
    (hflight : s'.frontier.inFlight.contains address = true) : Takes s s' p

/-- A move leaves less to do than there was, but for a peer that it takes. -/
theorem load_of_moved (hcalm : s.shutdown = false → .idle ∉ s.workers) (h : Moved c world s s') :
    s'.load c world < s.load c world ∨ ∃ p, Takes s s' p ∧
      s'.load c world < s.load c world + (12 + World.advertisedBy (world p.endpoint)) := by
  cases h with
  | @take i address p f hw h =>
    obtain ⟨hget, rfl⟩ := Frontier.take_eq_some_iff.1 h
    have hsum := sum_set (Worker.load world s.shutdown) (.holding p) hw
    refine .inr ⟨p, .intro hget (by simp [setWorker]), ?_⟩
    simp only [load, setWorker, Worker.load] at hsum ⊢
    omega
  | @pace i w w' hw h =>
    have hawake : s.shutdown = false → w ≠ .idle := by
      rintro hup rfl
      exact hcalm hup (List.mem_of_getElem? hw)
    exact .inl (load_setWorker_lt hw (load_of_pace hawake h))
  | @begin i p hw =>
    have hlt : Worker.load world s.shutdown (.visiting p) < Worker.load world s.shutdown (.holding p) := by
      simp only [Worker.load]
      omega
    exact .inl (load_setWorker_lt (s := { s with attempts := p.address :: s.attempts }) hw hlt)
  | @finish i p reply nanos v found hw hworld h =>
    have hle := load_finished_le world v found s.shutdown
    rw [h.perm.length_eq, Reply.advertised_eq, length_advertised reply nanos, ← hworld] at hle
    have hlt := Nat.lt_of_le_of_lt hle (Nat.add_lt_add_right (Nat.lt_succ_self 12) _)
    exact .inl (load_setWorker_lt
      (s := { s with closures := if reply.wasReached then p.address :: s.closures else s.closures })
      hw hlt)
  | die hw => exact .inl (load_setWorker_lt hw (Nat.add_pos_left (by decide) _))
  | quit hw h =>
    rcases h with rfl | rfl <;> exact .inl (load_setWorker_lt hw (Nat.add_pos_left (by decide) _))
  | @sendFound i v found hw =>
    left
    have hsum := sum_set (Worker.load world s.shutdown) (.reporting v) hw
    simp only [load, setWorker, Worker.load, List.map_append, List.sum_append, List.map_singleton,
      List.sum_singleton] at hsum ⊢
    omega
  | @sendVisit i v hw =>
    left
    have hsum := sum_set (Worker.load world s.shutdown) .checking hw
    have hnew := load_checking_le world s.shutdown
    have hold : Worker.load world s.shutdown (.reporting v) = 9 := rfl
    simp only [load, setWorker, List.length_append, List.length_singleton]
    omega
  | spawn h =>
    left
    have hnew := Nat.mul_le_mul_left (max c.workers 1) (load_checking_le world s.shutdown)
    simp only [load, h, Supervisor.load, List.map_replicate, List.sum_replicate_nat, List.length_nil]
    omega
  | signal h =>
    left
    have hsum := List.sum_le_sum (l := s.workers) fun w _ => load_down_le world w s.shutdown
    simp only [load, h, Supervisor.load]
    omega
  | @takeFound peers found visit h hfound =>
    left
    cases visit <;> simp only [load, h, hfound, Supervisor.resting, Supervisor.load, List.map_cons,
      List.sum_cons] <;> omega
  | @queue p peers visit h =>
    left
    cases visit <;> simp only [load, h, Supervisor.load, List.length_cons] <;> omega
  | @queued visit h =>
    left
    cases visit <;> simp only [load, h, Supervisor.resting, Supervisor.load, List.length_nil] <;> omega
  | takeVisit h hvisits | drain h hvisits =>
    left
    simp only [load, h, hvisits, Supervisor.load, List.length_cons]
    omega
  | seed h | settle h | record h | goOn h | quiesce h | interrupt h | join h | report h =>
    left
    simp only [load, h, Supervisor.load, List.length_cons]
    omega

/-! ## The rank -/

/-- What was taken stays taken. -/
theorem taken_of_moved (hs : Reachable c world seeds s) (h : Moved c world s s') {a : String}
    (ha : s.Taken a) : s'.Taken a :=
  Nat.lt_of_lt_of_le ha
    ((ledger_moved (tidy_of_reachable hs) h a).attempted_le (balanced_of_reachable hs a))

theorem untaken_le (es : Finset Endpoint) (hs : Reachable c world seeds s) (h : Moved c world s s') :
    s'.untaken world es ≤ s.untaken world es := by
  refine sum_le_sum_of_subset fun e he => ?_
  rw [mem_filter] at he ⊢
  exact ⟨he.1, fun htaken => he.2 (taken_of_moved hs h htaken)⟩

/-- What is left for a peer that is taken is left no more. -/
theorem untaken_of_takes (hs : Reachable c world seeds s) (h : Moved c world s s') {p : Peer}
    (hp : p.endpoint ∈ es) (htakes : Takes s s' p) :
    s'.untaken world es + (12 + World.advertisedBy (world p.endpoint)) ≤ s.untaken world es := by
  obtain ⟨hget, hflight⟩ := htakes
  next address =>
  have haddress : p.endpoint.text = address := (tidy_of_reachable hs).waiting_key address p hget
  have hbefore : ¬ s.Taken p.endpoint.text := by
    have hsingle := (balanced_of_reachable hs p.endpoint.text).single
    have hwaiting : (s.ledger p.endpoint.text).waiting = 1 := by
      simp only [ledger, haddress, AddressMap.contains_of_get? hget, Bool.toNat_true]
    unfold Taken
    omega
  have hafter : s'.Taken p.endpoint.text := by
    simp only [Taken, ledger, haddress, hflight, Bool.toNat_true]
    omega
  have hmem : p.endpoint ∈ es.filter fun e => ¬ s.Taken e.text := mem_filter.2 ⟨hp, hbefore⟩
  rw [untaken, untaken, ← sum_erase_add _ _ hmem]
  refine Nat.add_le_add_right (sum_le_sum_of_subset fun e he => ?_) _
  rw [mem_filter] at he
  rw [mem_erase, mem_filter]
  refine ⟨?_, he.1, fun htaken => he.2 (taken_of_moved hs h htaken)⟩
  rintro rfl
  exact he.2 hafter

/-- Every move leaves less to do, unless it wakes an idle worker for nothing. -/
theorem rank_lt_of_moved (hs : Reachable c world seeds s) (hcalm : s.shutdown = false → .idle ∉ s.workers)
    (hes : ∀ a p, s.frontier.waiting.get? a = some p → p.endpoint ∈ es) (h : Moved c world s s') :
    s'.rank c world es < s.rank c world es := by
  have hle := untaken_le es hs h
  rcases load_of_moved hcalm h with hlt | ⟨p, htakes, hlt⟩
  · exact Nat.add_lt_add_of_lt_of_le hlt hle
  · have hpaid := untaken_of_takes hs h (by cases htakes with | intro hget => exact hes _ _ hget) htakes
    simp only [rank]
    omega

/-! ## After the shutdown -/

/-- Under the shutdown, the moves of a run are bounded by what was left. -/
theorem length_le_rank {as : List Action} (hs : Reachable c world seeds s) (hdown : s.shutdown = true)
    (hes : ∀ a p, s.frontier.waiting.get? a = some p → p.endpoint ∈ es)
    (h : s.run c world as = some s') : as.length + s'.rank c world es ≤ s.rank c world es := by
  induction as generalizing s with
  | nil =>
    cases h
    exact Nat.le_of_eq (Nat.zero_add _)
  | cons a as ih =>
    obtain ⟨s₁, hmove, hrun⟩ := Option.bind_eq_some_iff.1 h
    have hm := moved_of_step hmove
    have hlt := rank_lt_of_moved hs (fun hup => absurd (hdown.symm.trans hup) Bool.noConfusion) hes hm
    have hes₁ : ∀ a p, s₁.frontier.waiting.get? a = some p → p.endpoint ∈ es := by
      intro a p hp
      rcases waiting_of_moved hm hp with hold | ⟨-, hpending⟩
      · exact hes a p hold
      · rw [pending_of_ended (ended_of_shutdown hs hdown)] at hpending
        cases hpending
    have hrest := ih (.step hs hmove) (shutdown_of_moved hm hdown) hes₁ hrun
    rw [List.length_cons]
    omega

/-- Out of the loop, the schedule has a move to make until there is a report. -/
theorem nextAction_of_ended {w : World} {t : Schedule} (l : Limits)
    (ht : Reachable c w.encounter seeds t.system) (hended : t.system.supervisor.ending? ≠ none)
    (hr : t.system.report? = none) : Schedule.nextAction w l t ≠ none := by
  intro hnone
  obtain ⟨hsupervisor, -, hworkers⟩ := Schedule.nextAction_eq_none_iff.1 hnone
  cases hs : t.system.supervisor with
  | seeding | selecting | queueing | receiving | recording | judging =>
    rw [hs] at hended
    exact hended rfl
  | stopping => simp [Schedule.supervisorMove, hs] at hsupervisor
  | draining =>
    simp only [Schedule.supervisorMove, hs] at hsupervisor
    split at hsupervisor <;> cases hsupervisor
  | finished why r =>
    rw [report?, hs] at hr
    cases hr
  | joining why =>
    cases hall : t.system.workers.all (·.isOver) with
    | true => simp [Schedule.supervisorMove, hs, hall] at hsupervisor
    | false =>
      -- a worker that is not over sees the shutdown, or goes on with what it has to send
      obtain ⟨x, hx, hon⟩ := List.all_eq_false.1 hall
      obtain ⟨i, hi⟩ := List.mem_iff_getElem?.1 hx
      have hdown : t.system.shutdown = true := by
        cases hup : t.system.shutdown with
        | true => rfl
        | false =>
          have hstopping : t.system.supervisor = .stopping why :=
            stopping_of_ended ht hup (by rw [hs]; rfl)
          rw [hs] at hstopping
          cases hstopping
      obtain ⟨k, hk⟩ : ∃ k, Schedule.workerMove w t i x = some k :=
        Schedule.exists_workerMove hdown (Bool.eq_false_iff.2 hon) i
      rw [hworkers i x hi] at hk
      cases hk

/-- Out of the loop, some move can be made until there is a report. -/
theorem can_move (hs : Reachable c world seeds s) (hended : s.supervisor.ending? ≠ none)
    (hr : s.report? = none) : ∃ a s', s.step c world a = some s' := by
  obtain ⟨a, ha⟩ := Option.ne_none_iff_exists'.1
    (nextAction_of_ended (w := ⟨world, 0⟩) (t := ⟨s, 0, []⟩) {} hs hended hr)
  obtain ⟨t', hact, -⟩ := Schedule.exists_act (c := c) ha
  obtain ⟨s', hstep, -⟩ := Option.map_eq_some_iff.1 hact
  exact ⟨a, s', hstep⟩

end System

end LevinNet.Crawl
