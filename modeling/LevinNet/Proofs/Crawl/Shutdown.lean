import LevinNet.Proofs.Crawl.Reports
import LevinNet.Proofs.Crawl.Termination

/-
What a crawl still does once its supervisor has left the loop.

   1. The next thing that the supervisor does is to signal the shutdown (`signal_first`). It queues
      nothing, and what workers find stays in the channel (`nothing_queued`).
      So workers take no more peers than were waiting (`length_takes_le`).
   2. A worker may have looked for the shutdown before the signal, and go on after it. So it has leave to
      take one peer and to begin one visit. Each of these uses the leave up, and under the shutdown no
      move gives leave again (`Spends`), so a run has one of each at most (`countP_le_of_run`). Before the
      signal there is no such bound (`bounded_after_loop_unsignalled`).
   3. The report is made when all workers are over (`over_of_report`).
-/
namespace LevinNet.Crawl

def Work.isTake : Work → Bool
  | .take _ => true
  | _ => false

def Work.isBegin : Work → Bool
  | .begin => true
  | _ => false

/-- Whether a move is one of worker `i`, and of this sort. -/
def Action.isBy (i : Nat) (sort : Work → Bool) : Action → Bool
  | .work j k => j == i && sort k
  | .supervise _ => false

def Action.isSupervise : Action → Bool
  | .supervise _ => true
  | .work _ _ => false

/-- Whether a worker takes a peer without looking for the shutdown once more. -/
def Worker.mayTake : Worker → Bool
  | .taking => true
  | _ => false

/-- Whether a worker begins a visit without looking for the shutdown once more. -/
def Worker.mayBegin : Worker → Bool
  | .taking | .holding _ => true
  | _ => false

namespace System

variable {c : Settings} {world : Endpoint → Encounter} {seeds : List Peer} {s s' : System}
  {as : List Action}

/-! ## The supervisor -/

/-- Out of the loop and not yet past the signal, the supervisor is about to give it. -/
theorem stopping_of_ended (h : Reachable c world seeds s) (hup : s.shutdown = false) {why : Ending}
    (hended : s.supervisor.ending? = some why) : s.supervisor = .stopping why := by
  revert hup hended
  refine h.invariant (P := fun s => s.shutdown = false → s.supervisor.ending? = some why →
    s.supervisor = .stopping why) (fun _ hended => by cases hended) ?_
  intro s s' hs hm hup hended
  cases hm with
  | quiesce | interrupt =>
    cases hended
    rfl
  | signal => cases hup
  | join h | report h =>
    -- without the signal, the supervisor has not come here
    rw [h] at hs
    cases hs hup hended
  | drain => exact hs hup hended
  | @takeFound peers found visit h hfound => cases hended
  | @queued visit h => cases visit <;> cases hended
  | seed | spawn | takeVisit | queue | settle | record | goOn => cases hended
  | pace | take | begin | finish | die | sendFound | sendVisit | quit => exact hs hup hended

/-- The first thing that the supervisor does out of the loop is to signal the shutdown. -/
theorem signal_first {why : Ending} (hstopping : s.supervisor = .stopping why)
    (h : s.run c world as = some s') {a : Action} (ha : as.find? Action.isSupervise = some a) :
    a = .supervise .signal := by
  induction as generalizing s with
  | nil => cases ha
  | cons b as ih =>
    obtain ⟨s₁, hmove, hrun⟩ := Option.bind_eq_some_iff.1 h
    cases b with
    | work i k =>
      obtain ⟨w, hw, hwork⟩ := Option.bind_eq_some_iff.1 hmove
      exact ih ((shares_of_work hw hwork).supervisor.trans hstopping) hrun ha
    | supervise m =>
      cases ha
      change s.supervise c m = some s₁ at hmove
      cases m with
      | signal => rfl
      | _ => simp [supervise, hstopping] at hmove

theorem pending_of_ended (hended : s.supervisor.ending? ≠ none) : s.supervisor.pending = [] := by
  cases hs : s.supervisor with
  | seeding | queueing =>
    rw [hs] at hended
    exact absurd rfl hended
  | _ => rfl

theorem queued?_of_ended (hended : s.supervisor.ending? ≠ none) (a : Action) :
    s.queued? a = none := by
  cases a with
  | work i k => rfl
  | supervise m =>
    by_cases hm : m = .seed ∨ m = .queue
    · rw [queued?_of_move hm, pending_of_ended hended]
      rfl
    · cases m <;> first | rfl | exact absurd (by decide) hm

/-- Out of the loop, nothing is taken out of the channel of what was found. -/
theorem found_of_ended (hended : s.supervisor.ending? ≠ none) (h : Moved c world s s') :
    s.found <+: s'.found := by
  cases h with
  | @takeFound peers found visit h hfound =>
    rw [h] at hended
    cases visit <;> exact absurd rfl hended
  | sendFound => exact List.prefix_append _ _
  | _ => exact List.prefix_refl _

theorem ended_of_moved (hended : s.supervisor.ending? ≠ none) (h : Moved c world s s') :
    s'.supervisor.ending? ≠ none := by
  obtain ⟨why, hwhy⟩ := Option.ne_none_iff_exists'.1 hended
  rw [ending_keeps h hwhy]
  nofun

/-- Out of the loop, nothing is queued, nothing comes to wait, and what is found stays in the channel. -/
theorem nothing_queued (hended : s.supervisor.ending? ≠ none) (h : s.run c world as = some s') :
    log queued? c world s as = [] ∧
    (∀ address p, s'.frontier.waiting.get? address = some p →
      s.frontier.waiting.get? address = some p) ∧
    s.found <+: s'.found := by
  induction as generalizing s with
  | nil =>
    cases h
    exact ⟨rfl, fun _ _ hp => hp, List.prefix_refl _⟩
  | cons a as ih =>
    obtain ⟨s₁, hmove, hrun⟩ := Option.bind_eq_some_iff.1 h
    have hm := moved_of_step hmove
    obtain ⟨hlog, hwaiting, hfound⟩ := ih (ended_of_moved hended hm) hrun
    have hnone := queued?_of_ended hended a
    refine ⟨?_, fun address p hp => ?_, (found_of_ended hended hm).trans hfound⟩
    · simp only [log, hnone, hmove, hlog, Option.toList_none, List.append_nil]
    · rcases waiting_of_step hmove (hwaiting address p hp) with hold | hqueued
      · exact hold
      · rw [hnone] at hqueued
        cases hqueued

/-- Out of the loop, a peer that is taken waits no more, and none comes to wait. -/
theorem takes_le_of_step (hended : s.supervisor.ending? ≠ none) {a : Action}
    (h : s.step c world a = some s') :
    s'.frontier.waiting.size + (takes [a]).length ≤ s.frontier.waiting.size := by
  cases a with
  | supervise m =>
    change s.supervise c m = some s' at h
    cases m <;> simp only [supervise] at h
    case seed | queue =>
      split at h <;> cases h
      all_goals
        rw [‹s.supervisor = _›] at hended
        exact absurd rfl hended
    case record | drain =>
      split at h <;> cases h
      exact AddressMap.size_erase_le _ _
    all_goals
      repeat' split at h
      all_goals first | cases h; exact Nat.le_refl _ | cases h
  | work i k =>
    obtain ⟨w, hw, hwork⟩ := Option.bind_eq_some_iff.1 h
    cases k <;> simp only [work] at hwork
    case take address =>
      split at hwork
      · obtain ⟨⟨p, f⟩, htake, rfl⟩ := Option.map_eq_some_iff.1 hwork
        obtain ⟨hget, rfl⟩ := Frontier.take_eq_some_iff.1 htake
        exact AddressMap.size_erase_lt (AddressMap.contains_of_get? hget)
      · cases hwork
    all_goals
      repeat' split at hwork
      all_goals first | cases hwork; exact Nat.le_refl _ | cases hwork

/-- Out of the loop, workers take no more peers than were waiting. -/
theorem length_takes_le (hended : s.supervisor.ending? ≠ none) (h : s.run c world as = some s') :
    (takes as).length ≤ s.frontier.waiting.size := by
  induction as generalizing s with
  | nil => exact Nat.zero_le _
  | cons a as ih =>
    obtain ⟨s₁, hmove, hrun⟩ := Option.bind_eq_some_iff.1 h
    have hfirst := takes_le_of_step hended hmove
    have hothers := ih (ended_of_moved hended (moved_of_step hmove)) hrun
    have hsplit : takes (a :: as) = takes [a] ++ takes as := List.filterMap_append (l := [a])
    rw [hsplit, List.length_append]
    omega

/-! ## The workers -/

/-- Under the shutdown, each move of a sort uses up the leave of its worker, and no move gives leave. -/
def Spends (world : Endpoint → Encounter) (sort : Work → Bool) (leave : Worker → Bool) : Prop :=
  ∀ (s s' : System) (i : Nat) (w : Worker) (k : Work), s.shutdown = true →
    s.work world i w k = some s' → ∃ w', s'.workers = s.workers.set i w' ∧
      (if sort k then 1 else 0) + (leave w').toNat ≤ (leave w).toNat

/-- The moves of workers under the shutdown: from one place, by a move, to another. All but taking a peer
lead to where no visit is begun any more. -/
inductive Downward : Worker → Work → Worker → Prop where
  | take {address : String} {p : Peer} : Downward .taking (.take address) (.holding p)
  | begin {p : Peer} : Downward (.holding p) .begin (.visiting p)
  | other {w w' : Worker} {k : Work} (htake : k.isTake = false) (hbegin : k.isBegin = false)
    (h : w'.mayBegin = false) : Downward w k w'

theorem mayBegin_finished (v : Visit) (found : List Peer) :
    (Worker.finished v found).mayBegin = false := by
  cases found <;> rfl

theorem downward_of_work {i : Nat} {w : Worker} {k : Work} (hdown : s.shutdown = true)
    (h : s.work world i w k = some s') :
    ∃ w', s'.workers = s.workers.set i w' ∧ Downward w k w' := by
  cases k <;> simp only [work] at h
  case take address =>
    split at h
    · obtain ⟨⟨p, f⟩, -, rfl⟩ := Option.map_eq_some_iff.1 h
      exact ⟨_, rfl, .take⟩
    · cases h
  case begin =>
    split at h <;> cases h
    exact ⟨_, rfl, .begin⟩
  case check =>
    split at h <;> cases h
    rw [hdown, if_pos rfl]
    exact ⟨_, rfl, .other rfl rfl rfl⟩
  case finish found =>
    split at h
    · split at h
      · split at h <;> cases h
        exact ⟨_, rfl, .other rfl rfl (mayBegin_finished ..)⟩
      · cases h
    · cases h
  all_goals
    repeat' split at h
    all_goals first | cases h; exact ⟨_, rfl, .other rfl rfl rfl⟩ | cases h

/-- No move under the shutdown leads to where a peer is taken. -/
theorem spends_take : Spends world Work.isTake Worker.mayTake := by
  intro s s' i w k hdown h
  obtain ⟨w', hset, hw'⟩ := downward_of_work hdown h
  refine ⟨w', hset, ?_⟩
  cases hw' with
  | take | begin => exact Nat.le_refl _
  | other htake hbegin hnone =>
    have hleave : w'.mayTake = false := by
      cases w' with
      | taking => cases hnone
      | _ => rfl
    rw [htake, hleave]
    exact Nat.zero_le _

/-- Taking a peer keeps the leave to begin a visit, and beginning the visit uses it up. -/
theorem spends_begin : Spends world Work.isBegin Worker.mayBegin := by
  intro s s' i w k hdown h
  obtain ⟨w', hset, hw'⟩ := downward_of_work hdown h
  refine ⟨w', hset, ?_⟩
  cases hw' with
  | take | begin => exact Nat.le_refl _
  | other htake hbegin hnone =>
    rw [hbegin, hnone]
    exact Nat.zero_le _

/-- Out of the loop, the supervisor leaves the workers where they stand. -/
theorem workers_of_supervise {m : Move} (hended : s.supervisor.ending? ≠ none)
    (h : s.supervise c m = some s') : s'.workers = s.workers := by
  cases m <;> simp only [supervise] at h
  case spawn =>
    split at h
    · next hs =>
      rw [hs] at hended
      exact absurd rfl hended
    · cases h
  all_goals
    repeat' split at h
    all_goals first | cases h; rfl | cases h

variable {sort : Work → Bool} {leave : Worker → Bool}

/-- A move of a sort uses up the leave of its worker, and the leaves of all others stay. -/
theorem spent_of_step (hspends : Spends world sort leave) (hdown : s.shutdown = true)
    (hended : s.supervisor.ending? ≠ none) {a : Action} (h : s.step c world a = some s') (i : Nat) :
    (if a.isBy i sort then 1 else 0) + (s'.workers[i]?.any leave).toNat
      ≤ (s.workers[i]?.any leave).toNat := by
  cases a with
  | supervise m =>
    rw [workers_of_supervise hended h]
    exact Nat.le_of_eq (Nat.zero_add _)
  | work j k =>
    obtain ⟨w, hw, hwork⟩ := Option.bind_eq_some_iff.1 h
    obtain ⟨w', hset, hle⟩ := hspends s s' j w k hdown hwork
    rw [hset]
    by_cases hij : j = i
    · subst hij
      obtain ⟨hj, -⟩ := List.getElem?_eq_some_iff.1 hw
      rw [List.getElem?_set_self hj, hw, Option.any_some, Option.any_some, Action.isBy, beq_self_eq_true,
        Bool.true_and]
      exact hle
    · rw [List.getElem?_set_ne hij, Action.isBy, beq_eq_false_iff_ne.2 hij]
      exact Nat.le_of_eq (Nat.zero_add _)

theorem countP_le_of_run (hspends : Spends world sort leave) (hdown : s.shutdown = true)
    (hended : s.supervisor.ending? ≠ none) (h : s.run c world as = some s') (i : Nat) :
    as.countP (Action.isBy i sort) ≤ 1 := by
  suffices hspent : as.countP (Action.isBy i sort) + (s'.workers[i]?.any leave).toNat
      ≤ (s.workers[i]?.any leave).toNat by
    have := Bool.toNat_le (s.workers[i]?.any leave)
    omega
  induction as generalizing s with
  | nil =>
    cases h
    exact Nat.le_of_eq (Nat.zero_add _)
  | cons a as ih =>
    obtain ⟨s₁, hmove, hrun⟩ := Option.bind_eq_some_iff.1 h
    have hm := moved_of_step hmove
    have hfirst := spent_of_step hspends hdown hended hmove i
    have hothers := ih (shutdown_of_moved hm hdown) (ended_of_moved hended hm) hrun
    rw [List.countP_cons]
    omega

/-! ## The run -/

/-- The moves of a run from its signal on, or all of them when the shutdown is already signalled. -/
def signalled (s : System) (as : List Action) : List Action :=
  if s.shutdown then as else as.dropWhile (· != .supervise .signal)

theorem shutdown_of_signal (h : s.step c world (.supervise .signal) = some s') :
    s'.shutdown = true := by
  simp only [step, supervise] at h
  split at h <;> cases h
  rfl

theorem countP_dropWhile_le (hspends : Spends world sort leave)
    (hended : s.supervisor.ending? ≠ none) (h : s.run c world as = some s') (i : Nat) :
    (as.dropWhile (· != .supervise .signal)).countP (Action.isBy i sort) ≤ 1 := by
  induction as generalizing s with
  | nil => exact Nat.zero_le _
  | cons a as ih =>
    obtain ⟨s₁, hmove, hrun⟩ := Option.bind_eq_some_iff.1 h
    have hended₁ := ended_of_moved hended (moved_of_step hmove)
    by_cases ha : a = .supervise .signal
    · subst ha
      rw [List.dropWhile_cons_of_neg (by simp), List.countP_cons_of_neg Bool.false_ne_true]
      exact countP_le_of_run hspends (shutdown_of_signal hmove) hended₁ hrun i
    · rw [List.dropWhile_cons_of_pos (by simpa using ha)]
      exact ih hended₁ hrun

/-- From the signal on, no worker makes a second move of such a sort. -/
theorem countP_signalled_le (hspends : Spends world sort leave)
    (hended : s.supervisor.ending? ≠ none) (h : s.run c world as = some s') (i : Nat) :
    (s.signalled as).countP (Action.isBy i sort) ≤ 1 := by
  rw [signalled]
  split
  · next hdown => exact countP_le_of_run hspends hdown hended h i
  · exact countP_dropWhile_le hspends hended h i

/-- When the report is made, all workers are over. -/
theorem over_of_report (h : Reachable c world seeds s) {r : Report} (hr : s.report? = some r) :
    ∀ w ∈ s.workers, w.isOver = true := by
  obtain ⟨why, hfinished⟩ := finished_of_report? hr
  exact over_of_joined h (by rw [hfinished]; rfl)

/-- **A crawl that ends does little more.** Take any run, with any number of workers, from when the
supervisor is out of its loop. Nothing is queued in it, so no look-up finds a peer that was not waiting
before, the workers take no more peers than were waiting, and what they found stays in the channel. The
supervisor leaves its loop to signal the shutdown, and makes no other move before. From the signal on,
each worker takes one peer at most and begins one visit at most. And once the report is made, all workers
are over, and none is in a visit. -/
theorem bounded_after_loop (h : Reachable c world seeds s) (hended : s.supervisor.ending? ≠ none)
    (hrun : s.run c world as = some s') :
    (log queued? c world s as = [] ∧
      (∀ address p, s'.frontier.waiting.get? address = some p →
        s.frontier.waiting.get? address = some p) ∧
      (takes as).length ≤ s.frontier.waiting.size ∧ s.found <+: s'.found) ∧
    (s.shutdown = false → ∀ a, as.find? Action.isSupervise = some a → a = .supervise .signal) ∧
    (∀ i, (s.signalled as).countP (Action.isBy i Work.isTake) ≤ 1 ∧
      (s.signalled as).countP (Action.isBy i Work.isBegin) ≤ 1) ∧
    ∀ r, s'.report? = some r →
      (∀ w ∈ s'.workers, w.isOver = true) ∧ ∀ p, .visiting p ∉ s'.workers := by
  obtain ⟨hqueued, hwaiting, hfound⟩ := nothing_queued hended hrun
  refine ⟨⟨hqueued, hwaiting, length_takes_le hended hrun, hfound⟩, fun hup a ha => ?_,
    fun i => ⟨?_, ?_⟩, fun r hr => ?_⟩
  · obtain ⟨why, hwhy⟩ := Option.ne_none_iff_exists'.1 hended
    exact signal_first (stopping_of_ended h hup hwhy) hrun ha
  · exact countP_signalled_le spends_take hended hrun i
  · exact countP_signalled_le spends_begin hended hrun i
  · have hover := over_of_report (reachable_run h hrun) hr
    refine ⟨hover, fun p hp => ?_⟩
    cases hover _ hp

/-- Two peers, of which the first advertises the second. -/
def twoSeeds : List Peer :=
  [{ ip := ⟨1, 1, 1, 1⟩, port := 80 }, { ip := ⟨2, 2, 2, 2⟩, port := 80 }]

/-- Moves up to the deadline, when the supervisor has not looked into its channels, and the second worker
has looked for the shutdown and not taken its peer. -/
def upToDeadline : List Action :=
  [.supervise .seed, .supervise .seed, .supervise .spawn, .work 0 .check,
    .work 0 (.take "1.1.1.1:80"), .work 0 .begin, .work 0 (.finish sampleFound), .work 0 .sendFound,
    .work 0 .sendVisit, .work 1 .check, .supervise .deadline]

/-- Moves from there to the report, in which the second worker takes its peer after the signal. -/
def slipPast : List Action :=
  [.supervise .signal, .work 1 (.take "2.2.2.2:80"), .work 1 .begin, .work 1 .leave, .work 0 .check,
    .supervise .join, .supervise .drain, .supervise .report]

/-- The moves are a run, and in it the second worker takes one peer and begins one visit. The message of
what was found stays in the channel, and the visit that was sent is in the report. -/
theorem bounded_after_loop_slipPast : ∃ s s' r,
    (start twoSeeds).run ⟨2, true⟩ sampleWorld.encounter upToDeadline = some s ∧
    s.supervisor.ending? = some .deadline ∧ s.found.length = 1 ∧
    s.run ⟨2, true⟩ sampleWorld.encounter slipPast = some s' ∧
    s'.report? = some r ∧ r.visits.keys = ["1.1.1.1:80"] ∧
    log queued? ⟨2, true⟩ sampleWorld.encounter s slipPast = [] ∧ s.found <+: s'.found ∧
    slipPast.countP (Action.isBy 1 Work.isTake) = 1 ∧
    (s.signalled slipPast).countP (Action.isBy 1 Work.isTake) ≤ 1 ∧
    ∀ p, .visiting p ∉ s'.workers := by
  have hbefore : ((start twoSeeds).run ⟨2, true⟩ sampleWorld.encounter upToDeadline).any
      (fun s => s.supervisor.ending? == some .deadline && s.found.length == 1 &&
        ((s.run ⟨2, true⟩ sampleWorld.encounter slipPast).bind report?).any
          (·.visits.keys == ["1.1.1.1:80"])) = true := by
    decide +kernel
  obtain ⟨s, hs, hrest⟩ := (Option.any_eq_true _ _).1 hbefore
  obtain ⟨hs', hreport⟩ := Bool.and_eq_true_iff.1 hrest
  obtain ⟨hended, hfound⟩ := Bool.and_eq_true_iff.1 hs'
  obtain ⟨r, hr, hkeys⟩ := (Option.any_eq_true _ _).1 hreport
  obtain ⟨s', hrun, hr⟩ := Option.bind_eq_some_iff.1 hr
  have hwhy := eq_of_beq hended
  obtain ⟨⟨hqueued, -, -, hkept⟩, -, hmost, hover⟩ :=
    bounded_after_loop (reachable_run .start hs) (by rw [hwhy]; nofun) hrun
  exact ⟨s, s', r, hs, hwhy, eq_of_beq hfound, hrun, hr, eq_of_beq hkeys, hqueued, hkept, rfl,
    (hmost 1).1, (hover r hr).2⟩

/-- Three peers that all fail their handshake. -/
def failingSeeds : List Peer :=
  [{ ip := ⟨2, 2, 2, 2⟩, port := 80 }, { ip := ⟨3, 3, 3, 3⟩, port := 80 },
    { ip := ⟨4, 4, 4, 4⟩, port := 80 }]

/-- Moves up to a deadline that comes before the only worker has begun. -/
def upToEarlyDeadline : List Action :=
  List.replicate 3 (.supervise .seed) ++ [.supervise .spawn, .supervise .deadline]

/-- The worker visits all three peers, and the supervisor has not signalled the shutdown yet. -/
def unsignalled : List Action :=
  ["2.2.2.2:80", "3.3.3.3:80", "4.4.4.4:80"].flatMap fun address =>
    [.work 0 .check, .work 0 (.take address), .work 0 .begin, .work 0 (.finish []),
      .work 0 .sendVisit]

/-- Out of the loop and before the signal, a worker may take, and visit, one peer after the other: it
looks for the shutdown in between, which is not signalled. -/
theorem bounded_after_loop_unsignalled : ∃ s s',
    Reachable ⟨1, true⟩ sampleWorld.encounter failingSeeds s ∧
    s.supervisor.ending? = some .deadline ∧
    s.run ⟨1, true⟩ sampleWorld.encounter unsignalled = some s' ∧
    unsignalled.countP (Action.isBy 0 Work.isTake) = 3 ∧
    unsignalled.countP (Action.isBy 0 Work.isBegin) = 3 ∧
    s'.attempts = ["4.4.4.4:80", "3.3.3.3:80", "2.2.2.2:80"] := by
  have hmoves : ((start failingSeeds).run ⟨1, true⟩ sampleWorld.encounter upToEarlyDeadline).any
      (fun s => s.supervisor.ending? == some .deadline &&
        (s.run ⟨1, true⟩ sampleWorld.encounter unsignalled).any
          (·.attempts == ["4.4.4.4:80", "3.3.3.3:80", "2.2.2.2:80"])) = true := by
    decide +kernel
  obtain ⟨s, hs, hrest⟩ := (Option.any_eq_true _ _).1 hmoves
  obtain ⟨hended, hrun⟩ := Bool.and_eq_true_iff.1 hrest
  obtain ⟨s', hrun, hattempts⟩ := (Option.any_eq_true _ _).1 hrun
  exact ⟨s, s', reachable_run .start hs, eq_of_beq hended, hrun, by decide, by decide,
    eq_of_beq hattempts⟩

end System

end LevinNet.Crawl
