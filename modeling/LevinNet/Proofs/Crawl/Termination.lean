import LevinNet.Proofs.Crawl.Places

/-
Why a crawl does not wait in vain, and does not visit for ever.

   1. Whenever the supervisor comes to wait for messages, some address waits or is in flight
      (`Unsettled`): the seeds see to it at first, the judgement after each visit later, and nothing in
      between settles an address (`unsettled_of_waits`).
   2. What is in flight is with a worker or in the channel of visits, for the supervisor has no visit in
      hand while it waits. So there is work left (`hasWork_of_selecting`), and from it the workers can
      bring another visit (`reports_of_selecting`).
   3. And a crawl of finitely many endpoints does so finitely often (`no_missed_termination`).
-/
namespace LevinNet.Crawl

/-- Whether the supervisor waits for messages. -/
def Supervisor.isSelecting : Supervisor → Bool
  | .selecting => true
  | _ => false

/-- The supervisor waits for messages, or queues what was found with no visit in hand. -/
def Supervisor.waits : Supervisor → Bool
  | .selecting | .queueing _ none => true
  | _ => false

namespace System

variable {c : Settings} {world : Endpoint → Encounter} {seeds : List Peer} {s s' : System}

/-! ## Some address waits or is in flight -/

/-- Some address waits or is in flight. -/
def Unsettled (s : System) : Prop :=
  ∃ a, s.frontier.waiting.contains a = true ∨ s.frontier.inFlight.contains a = true

theorem unsettled_of_not_isQuiescent (h : s.frontier.isQuiescent = false) : s.Unsettled := by
  apply Classical.byContradiction
  intro hsettled
  have hquiet : s.frontier.isQuiescent = true := by
    refine Frontier.isQuiescent_iff.2 fun a => ?_
    simpa [Unsettled] using fun h => hsettled ⟨a, h⟩
  rw [hquiet] at h
  cases h

/-- Only recording a visit settles an address. -/
theorem unsettled_of_moved (h : Moved c world s s') (hrecording : ∀ v, s.supervisor ≠ .recording v)
    (hdraining : ∀ why, s.supervisor ≠ .draining why) (hs : s.Unsettled) : s'.Unsettled := by
  have henqueue : ∀ p, ∃ a, (s.frontier.enqueue p).2.waiting.contains a = true ∨
      (s.frontier.enqueue p).2.inFlight.contains a = true := by
    intro p
    obtain ⟨a, ha⟩ := hs
    refine ⟨a, ?_⟩
    cases hknows : s.frontier.knows p.address with
    | true => rwa [Frontier.enqueue_of_knows hknows]
    | false =>
      rw [Frontier.enqueue_of_new hknows]
      rcases ha with ha | ha
      · exact .inl (by simp [ha])
      · exact .inr ha
  cases h with
  | seed h => exact henqueue _
  | queue h => exact henqueue _
  | record h => exact absurd h (hrecording _)
  | drain h => exact absurd h (hdraining _)
  | report h => exact absurd h (hdraining _)
  | @take i address p f hw h =>
    obtain ⟨-, rfl⟩ := Frontier.take_eq_some_iff.1 h
    exact ⟨address, .inr (by simp [setWorker])⟩
  | spawn | takeFound | takeVisit | queued | settle | goOn | quiesce | interrupt | signal | join
  | pace | begin | finish | die | sendFound | sendVisit | quit => exact hs

/-- No visit is begun before the seeds are queued. -/
theorem attempts_of_seeding (h : Reachable c world seeds s) {rest : List Peer}
    (hseeding : s.supervisor = .seeding rest) : s.attempts = [] := by
  induction h generalizing rest with
  | start => rfl
  | @step s s' a hs hstep ih =>
    cases moved_of_step hstep with
    | seed h => exact ih h
    | @begin i p hw =>
      rw [(tidy_of_reachable hs).unspawned rest hseeding] at hw
      cases hw
    | @queued visit h => cases visit <;> cases hseeding
    | spawn | takeFound | takeVisit | queue | settle | record | goOn | quiesce | interrupt | signal
    | join | report => cases hseeding
    | drain | pace | take | finish | die | sendFound | sendVisit | quit => exact ih hseeding

/-- Once the seeds are queued, one of them waits. -/
theorem unsettled_of_seeding (hseeds : seeds ≠ []) (h : Reachable c world seeds s)
    (hseeding : s.supervisor = .seeding []) : s.Unsettled := by
  obtain ⟨p, hp⟩ := List.exists_mem_of_ne_nil seeds hseeds
  rcases (lossless_of_reachable h).seeds p hp with hknown | ⟨rest, hrest, hmem⟩
  · have hattempts := (balanced_of_reachable h p.address).le_attempts
    simp only [ledger, attempts_of_seeding h hseeding, List.count_nil] at hattempts
    refine ⟨p.address, ?_⟩
    rcases knows_iff.1 hknown with hwaiting | hflight | hrecorded
    · exact .inl hwaiting
    · exact .inr hflight
    · rw [hrecorded, Bool.toNat_true] at hattempts
      omega
  · rw [hseeding] at hrest
    cases hrest
    cases hmem

/-- Whenever the supervisor waits, some address waits or is in flight. -/
theorem unsettled_of_waits (hstop : c.stopWhenQuiescent = true) (hseeds : seeds ≠ [])
    (h : Reachable c world seeds s) (hwaits : s.supervisor.waits = true) : s.Unsettled := by
  induction h with
  | start => cases hwaits
  | @step s s' a hs hstep ih =>
    have hm := moved_of_step hstep
    -- the supervisor waited before, and has not recorded a visit since
    have hkept : s.supervisor.waits = true → s'.Unsettled := by
      intro hbefore
      refine unsettled_of_moved hm ?_ ?_ (ih hbefore) <;> intro _ heq <;> rw [heq] at hbefore <;>
        cases hbefore
    cases hm with
    | spawn h =>
      have hunsettled : s.Unsettled := unsettled_of_seeding hseeds hs h
      exact hunsettled
    | goOn h hgo =>
      rw [hstop, Bool.true_and] at hgo
      exact unsettled_of_not_isQuiescent hgo
    | @takeFound peers found visit h hfound =>
      cases visit with
      | none => exact hkept (by rw [h]; rfl)
      | some v => cases hwaits
    | @queue p peers visit h =>
      cases visit with
      | none => exact hkept (by rw [h]; rfl)
      | some v => cases hwaits
    | @queued visit h =>
      cases visit with
      | none => exact hkept (by rw [h]; rfl)
      | some v => cases hwaits
    | seed | takeVisit | settle | record | quiesce | interrupt | signal | join | report => cases hwaits
    | drain | pace | take | begin | finish | die | sendFound | sendVisit | quit => exact hkept hwaits

/-! ## Workers that go on -/

/-- The shutdown is signalled only out of the loop. -/
theorem ended_of_shutdown (h : Reachable c world seeds s) (hdown : s.shutdown = true) :
    s.supervisor.ending? ≠ none := by
  induction h with
  | start => cases hdown
  | @step s s' a hs hstep ih =>
    have hm := moved_of_step hstep
    have hkept : s.shutdown = true → s'.supervisor.ending? ≠ none := by
      intro hbefore
      obtain ⟨why, hwhy⟩ := Option.ne_none_iff_exists'.1 (ih hbefore)
      rw [ending_keeps hm hwhy]
      nofun
    cases hm with
    | signal => nofun
    | _ => exact hkept hdown

theorem not_shutdown_of_selecting (h : Reachable c world seeds s)
    (hselecting : s.supervisor = .selecting) : s.shutdown = false := by
  cases hdown : s.shutdown with
  | false => rfl
  | true => exact absurd (by rw [hselecting]; rfl) (ended_of_shutdown h hdown)

/-- Before the shutdown, workers go on, unless a visit is fatal. -/
theorem not_isOver (hworld : ∀ e, world e ≠ .fatal) (h : Reachable c world seeds s) :
    s.shutdown = false → ∀ w ∈ s.workers, w.isOver = false := by
  refine h.invariant (P := fun s => s.shutdown = false → ∀ w ∈ s.workers, w.isOver = false)
    (fun _ _ hw => absurd hw List.not_mem_nil) ?_
  intro s s' hs hm hup w hw
  have hset : ∀ {i w'}, w ∈ s.workers.set i w' → s.shutdown = false → w'.isOver = false →
      w.isOver = false := by
    intro i w' hmem hup hw'
    rcases List.mem_or_eq_of_mem_set hmem with hold | rfl
    · exact hs hup w hold
    · exact hw'
  cases hm with
  | spawn =>
    rw [List.eq_of_mem_replicate hw]
    rfl
  | pace hw' h =>
    cases h with
    | exit hdown | leave hdown => exact absurd (hdown.symm.trans hup) Bool.noConfusion
    | check | rest | wake => exact hset hw hup rfl
  | @finish i p reply nanos v found hw' hworld' h =>
    exact hset hw hup (by cases found <;> rfl)
  | die hw' hfatal => exact absurd hfatal (hworld _)
  | quit hw' h hdown => exact absurd (hdown.symm.trans hup) Bool.noConfusion
  | signal => cases hup
  | take | begin | sendFound | sendVisit => exact hset hw hup rfl
  | _ => exact hs hup w hw

/-- Once the seeds are queued there are workers. -/
theorem seeding_of_no_workers (h : Reachable c world seeds s) :
    s.workers = [] → ∃ rest, s.supervisor = .seeding rest := by
  refine h.invariant (P := fun s => s.workers = [] → ∃ rest, s.supervisor = .seeding rest)
    (fun _ => ⟨seeds, rfl⟩) ?_
  intro s s' hs hm hnone
  have hset : ∀ {i w w'}, s.workers[i]? = some w → s.workers.set i w' ≠ [] := by
    intro i w w' hw hnil
    rw [(List.set_eq_nil_iff _ _).1 hnil] at hw
    cases hw
  cases hm with
  | seed h => exact ⟨_, rfl⟩
  | spawn h =>
    have hpos : 1 ≤ max c.workers 1 := Nat.le_max_right _ _
    rw [List.replicate_eq_nil_iff] at hnone
    omega
  | @takeFound peers found visit h hfound =>
    obtain ⟨rest, hrest⟩ := hs hnone
    rw [h] at hrest
    cases visit <;> cases hrest
  | takeVisit h | queue h | queued h | settle h | record h | goOn h | quiesce h | interrupt h
  | signal h | join h | report h =>
    obtain ⟨rest, hrest⟩ := hs hnone
    rw [h] at hrest
    cases hrest
  | drain => exact hs hnone
  | pace hw | take hw | begin hw | finish hw | die hw | sendFound hw | sendVisit hw | quit hw =>
    exact absurd hnone (hset hw)

/-! ## Work left -/

/-- Some peer waits, or a worker has one, or a visit is in the channel. -/
def HasWork (s : System) : Prop :=
  (∃ a, s.frontier.waiting.contains a = true) ∨ (∃ w ∈ s.workers, w.peer? ≠ none) ∨ s.visits ≠ []

theorem hasWork_of_selecting (hstop : c.stopWhenQuiescent = true) (hseeds : seeds ≠ [])
    (hworld : ∀ e, world e ≠ .fatal) (h : Reachable c world seeds s)
    (hselecting : s.supervisor = .selecting) : s.HasWork := by
  have hup := not_shutdown_of_selecting h hselecting
  obtain ⟨a, hwaiting | hflight⟩ :=
    unsettled_of_waits hstop hseeds h (by rw [hselecting]; rfl)
  · exact .inl ⟨a, hwaiting⟩
  -- who has the address is no worker that died, and not the supervisor, which has no visit in hand
  have hexact := toNat_inFlight_eq h hup a
  have hdied : s.workers.countP (Worker.diedOf a) = 0 := by
    rw [List.countP_eq_zero]
    intro w hw hdied
    exact absurd (Worker.isOver_of_diedOf hdied) (by rw [not_isOver hworld h hup w hw]; nofun)
  have hhand : s.supervisor.hand = [] := by
    rw [hselecting]
    rfl
  rw [hflight, Bool.toNat_true, hdied, hhand, List.countP_nil] at hexact
  by_cases hholds : 0 < s.workers.countP (Worker.holds a)
  · obtain ⟨w, hw, hpeer⟩ := List.countP_pos_iff.1 hholds
    refine .inr (.inl ⟨w, hw, fun hnone => ?_⟩)
    rw [Worker.holds, hnone] at hpeer
    cases hpeer
  · refine .inr (.inr fun hnil => ?_)
    rw [hnil, List.countP_nil] at hexact
    omega

/-! ## Another visit -/

/-- Workers can bring a visit into the channel. -/
def Reports (c : Settings) (world : Endpoint → Encounter) (s : System) : Prop :=
  ∃ as s', (∀ a ∈ as, ∃ i k, a = .work i k) ∧ s.run c world as = some s' ∧ s'.visits ≠ []

/-- A peer that waits, or that a worker has, never ends its visit. -/
def Hangs (world : Endpoint → Encounter) (s : System) : Prop :=
  ∃ p, ((∃ a, s.frontier.waiting.get? a = some p) ∨ ∃ w ∈ s.workers, w.peer? = some p) ∧
    world p.endpoint = .never

theorem reports_of_work {i : Nat} {w : Worker} {k : Work} (hw : s.workers[i]? = some w)
    (hk : s.work world i w k = some s') (h : s'.Reports c world) : s.Reports c world := by
  obtain ⟨as, s'', has, hrun, hvisits⟩ := h
  refine ⟨.work i k :: as, s'', ?_, ?_, hvisits⟩
  · rintro a (_ | ⟨_, ha⟩)
    · exact ⟨i, k, rfl⟩
    · exact has a ha
  · simp only [run, step, hw, Option.bind_some, hk, hrun]

theorem getElem?_setWorker {i : Nat} {w : Worker} (w' : Worker) (hw : s.workers[i]? = some w) :
    (s.setWorker i w').workers[i]? = some w' := by
  obtain ⟨hi, -⟩ := List.getElem?_eq_some_iff.1 hw
  simp [setWorker, hi]

variable {i : Nat} {p : Peer}

theorem reports_of_reporting {v : Visit} (hw : s.workers[i]? = some (.reporting v)) :
    s.Reports c world := by
  refine reports_of_work (k := .sendVisit) hw rfl ⟨[], _, nofun, rfl, ?_⟩
  simp [setWorker]

theorem reports_of_finished {v : Visit} {found : List Peer}
    (hw : s.workers[i]? = some (.finished v found)) : s.Reports c world := by
  cases found with
  | nil => exact reports_of_reporting hw
  | cons q found =>
    exact reports_of_work (k := .sendFound) hw rfl (reports_of_reporting (getElem?_setWorker _ hw))

theorem reports_of_visiting (hworld : ∀ e, world e ≠ .fatal)
    (hw : s.workers[i]? = some (.visiting p)) :
    world p.endpoint = .never ∨ s.Reports c world := by
  cases he : world p.endpoint with
  | never => exact .inl rfl
  | fatal => exact absurd he (hworld _)
  | ends reply nanos =>
    right
    have hfinish : s.work world i (.visiting p) (.finish (reply.outcome p).2) = some
        ({ s with closures := if reply.wasReached then p.address :: s.closures else s.closures
          }.setWorker i (.finished (reply.outcome p).1 (reply.outcome p).2)) := by
      simp only [work, he, List.Perm.refl, if_true]
    exact reports_of_work hw hfinish (reports_of_finished (getElem?_setWorker _ hw))

theorem reports_of_holding (hworld : ∀ e, world e ≠ .fatal)
    (hw : s.workers[i]? = some (.holding p)) :
    world p.endpoint = .never ∨ s.Reports c world := by
  have hnext := getElem?_setWorker (s := { s with attempts := p.address :: s.attempts })
    (.visiting p) hw
  exact (reports_of_visiting hworld hnext).imp_right (reports_of_work (k := .begin) hw rfl)

theorem reports_of_taking (hworld : ∀ e, world e ≠ .fatal) {a : String}
    (hp : s.frontier.waiting.get? a = some p) (hw : s.workers[i]? = some .taking) :
    world p.endpoint = .never ∨ s.Reports c world := by
  have htake := Frontier.take_eq_some_iff.2 ⟨hp, rfl⟩
  have hnext := getElem?_setWorker (s := { s with frontier := { s.frontier with
    waiting := s.frontier.waiting.erase a, inFlight := s.frontier.inFlight.insert a () } })
    (.holding p) hw
  refine (reports_of_holding hworld hnext).imp_right (reports_of_work (k := .take a) hw ?_)
  simp only [work, htake, Option.map_some]

theorem reports_of_checking (hworld : ∀ e, world e ≠ .fatal) (hup : s.shutdown = false) {a : String}
    (hp : s.frontier.waiting.get? a = some p) (hw : s.workers[i]? = some .checking) :
    world p.endpoint = .never ∨ s.Reports c world := by
  have hnext := getElem?_setWorker .taking hw
  refine (reports_of_taking (s := s.setWorker i .taking) hworld hp hnext).imp_right
    (reports_of_work (k := .check) hw ?_)
  simp only [work, hup, Bool.false_eq_true, if_false]

/-- From any worker that goes on, another visit comes: of the peer that it has, or of one that waits. -/
theorem reports_of_worker (hworld : ∀ e, world e ≠ .fatal) (hup : s.shutdown = false) {w : Worker}
    (hw : s.workers[i]? = some w) (hon : w.isOver = false)
    (hpeer : w.peer? ≠ none ∨ ∃ a, s.frontier.waiting.contains a = true) :
    s.Hangs world ∨ s.Reports c world := by
  have hmem := List.mem_of_getElem? hw
  -- a worker that has no peer goes and takes one
  have hfree : w.peer? = none →
      (∀ {a p}, s.frontier.waiting.get? a = some p → world p.endpoint = .never ∨ s.Reports c world) →
      s.Hangs world ∨ s.Reports c world := by
    intro hnone hreports
    obtain ⟨a, ha⟩ := hpeer.resolve_left (fun h => h hnone)
    obtain ⟨p, hp⟩ := AddressMap.exists_of_contains ha
    exact (hreports hp).imp_left fun hnever => ⟨p, .inl ⟨a, hp⟩, hnever⟩
  cases w with
  | checking => exact hfree rfl fun hp => reports_of_checking hworld hup hp hw
  | taking => exact hfree rfl fun hp => reports_of_taking hworld hp hw
  | idle =>
    refine hfree rfl fun hp => ?_
    have hnext := getElem?_setWorker .checking hw
    exact (reports_of_checking (s := s.setWorker i .checking) hworld hup hp hnext).imp_right
      (reports_of_work (k := .wake) hw rfl)
  | holding p =>
    exact (reports_of_holding hworld hw).imp_left fun hnever => ⟨p, .inr ⟨_, hmem, rfl⟩, hnever⟩
  | visiting p =>
    exact (reports_of_visiting hworld hw).imp_left fun hnever => ⟨p, .inr ⟨_, hmem, rfl⟩, hnever⟩
  | finding v found =>
    exact .inr (reports_of_work (k := .sendFound) hw rfl
      (reports_of_reporting (getElem?_setWorker _ hw)))
  | reporting v => exact .inr (reports_of_reporting hw)
  | exited | died => cases hon

/-- While the supervisor waits, the workers can bring another visit, unless a peer never ends its. -/
theorem reports_of_selecting (hworld : ∀ e, world e ≠ .fatal) (h : Reachable c world seeds s)
    (hselecting : s.supervisor = .selecting) (hwork : s.HasWork) :
    s.Hangs world ∨ s.Reports c world := by
  have hup := not_shutdown_of_selecting h hselecting
  have hon := not_isOver hworld h hup
  rcases hwork with hwaiting | ⟨w, hw, hpeer⟩ | hvisits
  · cases hworkers : s.workers with
    | nil =>
      obtain ⟨rest, hrest⟩ := seeding_of_no_workers h hworkers
      rw [hselecting] at hrest
      cases hrest
    | cons w workers =>
      have hw : s.workers[0]? = some w := by rw [hworkers]; rfl
      exact reports_of_worker hworld hup hw (hon w (List.mem_of_getElem? hw)) (.inr hwaiting)
  · obtain ⟨i, hi⟩ := List.mem_iff_getElem?.1 hw
    exact reports_of_worker hworld hup hi (hon w hw) (.inl hpeer)
  · exact .inr ⟨[], s, nofun, rfl, hvisits⟩

/-- **No missed termination.** Where a crawl is to stop when it is quiescent, has a seed, and no visit is
fatal to a worker, there is work left whenever the supervisor waits for messages; and the workers can
then bring another visit, unless a peer that waits or is being visited never ends its visit. And where
the endpoints that can be discovered are among finitely many, no run takes peers, tells of found peers,
or records visits more often than there are endpoints. -/
theorem no_missed_termination {as : List Action} (h : (start seeds).run c world as = some s) :
    (c.stopWhenQuiescent = true → seeds ≠ [] → (∀ e, world e ≠ .fatal) →
      s.supervisor = .selecting → s.HasWork ∧ (s.Hangs world ∨ s.Reports c world)) ∧
    ∀ es : List Endpoint, (∀ e, Discoverable world seeds e → e ∈ es) →
      (takes as).length ≤ es.length ∧ as.countP Action.tells ≤ es.length ∧
        as.countP Action.records ≤ es.length := by
  have hs := reachable_iff_run.2 ⟨as, h⟩
  constructor
  · intro hstop hseeds hworld hselecting
    have hwork := hasWork_of_selecting hstop hseeds hworld hs hselecting
    exact ⟨hwork, reports_of_selecting hworld hs hselecting hwork⟩
  · intro es hes
    have htakes := (length_le_of_discoverable hs (count_takes_le h)).2 es hes
    have hattempts : s.attempts.length ≤ es.length := by
      refine (length_le_of_discoverable hs fun a => ?_).2 es hes
      exact Nat.le_trans (Nat.le_add_right _ _) (balanced_of_reachable hs a).attempts_le
    exact ⟨htakes, Nat.le_trans (countP_tells_le h) hattempts,
      Nat.le_trans (countP_records_le h) hattempts⟩

/-- What can be discovered in the sample world from its first peer. -/
theorem mem_of_discoverable_sample {e : Endpoint}
    (he : Discoverable sampleWorld.encounter sampleSeeds e) :
    e ∈ [⟨⟨1, 1, 1, 1⟩, 80⟩, ⟨⟨2, 2, 2, 2⟩, 80⟩] := by
  induction he with
  | seed h =>
    rw [List.eq_of_mem_replicate h]
    decide
  | @advertised e d nanos q he hworld hq ih =>
    -- the second peer advertises nothing, for its handshake fails
    rcases List.mem_cons.1 ih with rfl | ih
    · simp only [sampleWorld, if_true, Encounter.ends.injEq, Reply.directory.injEq] at hworld
      obtain ⟨rfl, -⟩ := hworld
      revert q
      decide +kernel
    · rw [List.mem_singleton.1 ih] at hworld
      cases hworld

/-- Moves after which the supervisor waits, with the first peer told of the second. -/
def toldOfSecond : List Action :=
  [.supervise .seed, .supervise .seed, .supervise .spawn, .work 0 .check,
    .work 0 (.take "1.1.1.1:80"), .work 0 .begin, .work 0 (.finish sampleFound), .work 0 .sendFound,
    .supervise .takeFound, .supervise .queue, .supervise .queue, .supervise .queue]

/-- The moves are a run, there is work left, and none of them were too many. -/
theorem no_missed_termination_sample : ∃ s,
    (start sampleSeeds).run ⟨2, true⟩ sampleWorld.encounter toldOfSecond = some s ∧
    s.supervisor = .selecting ∧ s.HasWork ∧
    (s.Hangs sampleWorld.encounter ∨ s.Reports ⟨2, true⟩ sampleWorld.encounter) ∧
    (takes toldOfSecond).length ≤ 2 ∧ toldOfSecond.countP Action.tells ≤ 2 ∧
    toldOfSecond.countP Action.records ≤ 2 := by
  have hrun : ((start sampleSeeds).run ⟨2, true⟩ sampleWorld.encounter toldOfSecond).any
      (fun s => s.supervisor.isSelecting) = true := by
    decide +kernel
  obtain ⟨s, hs, hwaits⟩ := (Option.any_eq_true _ _).1 hrun
  have hselecting : s.supervisor = .selecting := by
    cases hsup : s.supervisor <;> rw [hsup] at hwaits <;> first | rfl | cases hwaits
  obtain ⟨hwork, hmost⟩ := no_missed_termination hs
  have hnofatal : ∀ e, sampleWorld.encounter e ≠ .fatal := by
    intro e h
    simp only [sampleWorld] at h
    split at h <;> cases h
  obtain ⟨hleft, hnext⟩ := hwork rfl (List.cons_ne_nil _ _) hnofatal hselecting
  exact ⟨s, hs, hselecting, hleft, hnext, hmost _ fun _ => mem_of_discoverable_sample⟩

end System

end LevinNet.Crawl
