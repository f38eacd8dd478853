import LevinNet.Crawl.Schedule

/-
The crawl in virtual time is one run of the system.

   1. The schedule only chooses which move is made next, so what holds of all runs holds of it
      (`reachable_crawl`).
   2. What it chooses can be made (`exists_act`), and it chooses a move of a worker if any worker has one
      (`firstWork_eq_none_iff`).
-/
namespace LevinNet.Crawl

namespace Schedule

variable {c : Settings} {world : World} {l : Limits} {seeds : List Peer} {horizon : Nat}
  {t t' : Schedule} {a : Action} {s : System}

/-- When a move comes up, the clock has moved on at most. -/
theorem upcoming_spec (h : upcoming world l horizon t = some (t', a)) :
    t'.system = t.system ∧ t'.begun = t.begun ∧ t.clock ≤ t'.clock ∧
      nextWithin world l horizon t' = some a := by
  unfold upcoming at h
  split at h
  · next a' ha =>
    cases h
    exact ⟨rfl, rfl, Nat.le_refl _, ha⟩
  · split at h
    · next instant hinstant =>
      simp only at h
      split at h
      · obtain ⟨a', ha, heq⟩ := Option.map_eq_some_iff.1 h
        cases heq
        have hlater := (List.mem_filter.1 (List.min?_mem hinstant)).2
        exact ⟨rfl, rfl, Nat.le_of_lt (of_decide_eq_true hlater), ha⟩
      · cases h
    · cases h

/-- To make the next move is to make a step. -/
theorem step_of_next (h : next c world l horizon t = some t') :
    ∃ a, t.system.step c world.encounter a = some t'.system := by
  obtain ⟨⟨t₁, a⟩, hup, hact⟩ := Option.bind_eq_some_iff.1 h
  obtain ⟨system, hstep, rfl⟩ := Option.map_eq_some_iff.1 hact
  rw [(upcoming_spec hup).1] at hstep
  exact ⟨a, hstep⟩

theorem reachable_run {fuel : Nat} (ht : System.Reachable c world.encounter seeds t.system) :
    System.Reachable c world.encounter seeds (run c world l horizon fuel t) := by
  induction fuel generalizing t with
  | zero => exact ht
  | succ fuel ih =>
    rw [run]
    split
    · next t' h =>
      obtain ⟨a, hstep⟩ := step_of_next h
      exact ih (.step ht hstep)
    · exact ht

/-! ## Moves that are chosen -/

/-- What the supervisor does by itself can be done. -/
theorem exists_supervise {m : Move} (h : supervisorMove s = some m) :
    ∃ s', s.supervise c m = some s' := by
  cases hs : s.supervisor with
  | seeding seeds =>
    cases seeds <;> simp only [supervisorMove, hs] at h <;> cases h <;> simp [System.supervise, hs]
  | selecting =>
    cases hfound : s.found <;> cases hvisits : s.visits <;>
      simp [supervisorMove, hs, hfound, hvisits] at h <;> subst h <;>
      simp [System.supervise, hs, hfound, hvisits]
  | queueing peers visit =>
    simp only [supervisorMove, hs] at h
    cases h
    cases peers <;> cases visit <;> simp [System.supervise, hs]
  | receiving v =>
    cases hfound : s.found <;> simp [supervisorMove, hs, hfound] at h <;> subst h <;>
      simp [System.supervise, hs, hfound]
  | judging =>
    simp only [supervisorMove, hs] at h
    cases h
    simp only [System.supervise, hs]
    split <;> exact ⟨_, rfl⟩
  | joining why =>
    simp only [supervisorMove, hs] at h
    split at h
    · next hover =>
      cases h
      simp only [System.supervise, hs, if_pos hover, Option.some.injEq, exists_eq']
    · cases h
  | draining why =>
    cases hvisits : s.visits <;> simp [supervisorMove, hs, hvisits] at h <;> subst h <;>
      simp [System.supervise, hs, hvisits]
  | recording | stopping =>
    simp only [supervisorMove, hs] at h
    cases h
    simp [System.supervise, hs]
  | finished =>
    simp only [supervisorMove, hs] at h
    cases h

/-- The limits stop a crawl only where they can. -/
theorem exists_limit {clock : Nat} {m : Move} (h : limitMove l clock s = some m) :
    ∃ s', s.supervise c m = some s' := by
  unfold limitMove at h
  split at h
  · next hs =>
    split at h
    · cases h
      simp [System.supervise, hs]
    · split at h <;> cases h
      simp [System.supervise, hs]
  · cases h

theorem exists_act_of_supervisorAction (h : supervisorAction l t = some a) :
    ∃ t', act c world t a = some t' ∧ t'.clock = t.clock := by
  have hstep : ∃ s', t.system.step c world.encounter a = some s' := by
    unfold supervisorAction at h
    split at h
    · next m hm =>
      cases h
      exact exists_supervise hm
    · obtain ⟨m, hm, rfl⟩ := Option.map_eq_some_iff.1 h
      exact exists_limit hm
  obtain ⟨s', hs'⟩ := hstep
  simp only [act, hs', Option.map_some]
  exact ⟨_, rfl, rfl⟩

/-- What a worker is told to do can be done. -/
theorem exists_work {i : Nat} {w : Worker} {k : Work} (h : workerMove world t i w = some k) :
    ∃ s', t.system.work world.encounter i w k = some s' := by
  cases w with
  | taking =>
    simp only [workerMove] at h
    split at h
    · next address others hqueued =>
      cases h
      have hmem : address ∈ t.system.frontier.waiting.keys := by
        rw [Frontier.queued] at hqueued
        rw [hqueued]
        exact List.mem_cons_self
      obtain ⟨p, hp⟩ := AddressMap.exists_of_contains (AddressMap.mem_keys_iff.1 hmem)
      simp [System.work, Frontier.take_eq_some_iff.2 ⟨hp, rfl⟩]
    · next hqueued =>
      split at h <;> cases h
      have hempty : t.system.frontier.waiting.isEmpty = true := by
        simpa [Frontier.queued, AddressMap.keys, AddressMap.isEmpty] using hqueued
      simp [System.work, hempty]
  | visiting p =>
    simp only [workerMove] at h
    split at h
    · next hdown =>
      cases h
      simp [System.work, hdown]
    · split at h
      · cases he : world.encounter p.endpoint with
        | ends reply nanos =>
          simp only [he] at h
          cases h
          simp [System.work, he, Reply.advertised_eq]
        | fatal =>
          simp only [he] at h
          cases h
          simp [System.work, he]
        | never =>
          simp only [he] at h
          cases h
      · cases h
  | holding p =>
    simp only [workerMove] at h
    split at h <;> cases h <;> simp [System.work, *]
  | idle =>
    simp only [workerMove] at h
    split at h <;> cases h
    simp [System.work, *]
  | checking | finding | reporting =>
    cases h
    exact ⟨_, rfl⟩
  | exited | died => cases h

/-- The move that is chosen is one of a worker at its place. -/
theorem firstWork_spec {workers : List Worker} {n i : Nat} {k : Work}
    (h : firstWork world t n workers = some (i, k)) :
    ∃ j w, i = n + j ∧ workers[j]? = some w ∧ workerMove world t i w = some k := by
  induction workers generalizing n with
  | nil => cases h
  | cons w workers ih =>
    rw [firstWork] at h
    split at h
    · next work hwork =>
      cases h
      exact ⟨0, w, rfl, rfl, hwork⟩
    · obtain ⟨j, w', rfl, hw', hmove⟩ := ih h
      exact ⟨j + 1, w', by omega, hw', hmove⟩

/-- No move of a worker is chosen if and only if no worker has one. -/
theorem firstWork_eq_none_iff {workers : List Worker} {n : Nat} :
    firstWork world t n workers = none ↔
      ∀ j w, workers[j]? = some w → workerMove world t (n + j) w = none := by
  induction workers generalizing n with
  | nil => simp [firstWork]
  | cons w workers ih =>
    rw [firstWork]
    cases hmove : workerMove world t n w with
    | some k =>
      constructor
      · nofun
      · intro h
        have hnone := h 0 w rfl
        rw [Nat.add_zero, hmove] at hnone
        cases hnone
    | none =>
      simp only [ih]
      constructor
      · rintro h (_ | j) w' hw'
        · cases hw'
          exact hmove
        · rw [← Nat.succ_add_eq_add_succ]
          exact h j w' hw'
      · intro h j w' hw'
        rw [Nat.succ_add_eq_add_succ]
        exact h (j + 1) w' hw'

/-- Nothing can be done now if and only if the supervisor, the limits and the workers leave it at that. -/
theorem nextAction_eq_none_iff : nextAction world l t = none ↔
    supervisorMove t.system = none ∧ limitMove l t.clock t.system = none ∧
      ∀ i w, t.system.workers[i]? = some w → workerMove world t i w = none := by
  have hworkers : firstWork world t 0 t.system.workers = none ↔ _ := firstWork_eq_none_iff
  simp only [Nat.zero_add] at hworkers
  rw [nextAction, supervisorAction, ← hworkers]
  cases supervisorMove t.system <;> cases limitMove l t.clock t.system <;> simp

/-- Under the shutdown, every worker that is not over has a move to make. -/
theorem exists_workerMove (hdown : t.system.shutdown = true) {w : Worker} (hon : w.isOver = false)
    (i : Nat) : ∃ k, workerMove world t i w = some k := by
  cases w with
  | taking =>
    simp only [workerMove, hdown, if_true]
    split <;> exact ⟨_, rfl⟩
  | exited | died => cases hon
  | _ => simp [workerMove, hdown]

theorem exists_act (h : nextAction world l t = some a) :
    ∃ t', act c world t a = some t' ∧ t'.clock = t.clock := by
  unfold nextAction at h
  split at h
  · next a' haction =>
    cases h
    exact exists_act_of_supervisorAction haction
  · obtain ⟨⟨i, k⟩, hfirst, rfl⟩ := Option.map_eq_some_iff.1 h
    obtain ⟨j, w, hij, hw, hmove⟩ := firstWork_spec hfirst
    rw [Nat.zero_add] at hij
    subst hij
    obtain ⟨s', hs'⟩ := exists_work hmove
    simp only [act, System.step, hw, Option.bind_some, hs', Option.map_some]
    exact ⟨_, rfl, rfl⟩

end Schedule

/-- A scheduled crawl is a run of the system. -/
theorem reachable_crawl (c : Settings) (world : World) (l : Limits) (horizon : Duration)
    (seeds : List Peer) :
    System.Reachable c world.encounter seeds (crawl c world l horizon seeds) :=
  Schedule.reachable_run .start

end LevinNet.Crawl
