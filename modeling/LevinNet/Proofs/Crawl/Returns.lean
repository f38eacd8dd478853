import LevinNet.Proofs.Crawl.Rank

/-
A scheduled crawl comes to its report.

   1. Whatever the schedule makes, it makes with less left to do (`rank_lt_of_next`): it lets no worker rest
      before the shutdown, so it wakes none. So a crawl with a move to make until the report has a report
      after `enoughMoves` (`report_of_next`).
   2. Out of the loop a move can be made at once. In the loop, when nothing can be done, the clock moves on
      to what is due, and then a move can be made (`exists_next_of_due`).
   3. A limit is due until it is reached. So a crawl with a deadline, or one that is cancelled, has a report
      by then (`report_of_limit`).
   4. Where every visit ends, and there is work left whenever nothing can be done, a visit is due. So a
      crawl that is to stop when it is quiescent has a report, if only it is watched for long enough
      (`report_of_quiescence`).
-/
namespace LevinNet.Crawl

open Finset

/-- A finite set of endpoints with all that can be discovered from some seeds, in a world that advertises no
more peers than it says. -/
structure World.Covered (w : World) (seeds : List Peer) (es : Finset Endpoint) : Prop where
  discoverable : ∀ e, Discoverable w.encounter seeds e → e ∈ es
  card_le : es.card ≤ seeds.length + w.advertised
  advertised_le : ∑ e ∈ es, World.advertisedBy (w.encounter e) ≤ w.advertised

/-- The peers that an encounter advertises. -/
def World.peersOf : Encounter → List Peer
  | .ends reply _ => reply.advertised
  | _ => []

namespace World

variable {w : World} {listed : List Endpoint}

theorem length_peersOf (e : Encounter) : (peersOf e).length = advertisedBy e := by
  cases e with
  | ends reply nanos => rw [peersOf, System.length_advertised]
  | never | fatal => rfl

/-- What a set of endpoints adds up to is no more than what a list with all of them adds up to. -/
theorem sum_toFinset_le (f : Endpoint → Nat) (es : List Endpoint) :
    ∑ e ∈ es.toFinset, f e ≤ (es.map f).sum := by
  induction es with
  | nil => simp
  | cons e es ih =>
    rw [List.toFinset_cons, List.map_cons, List.sum_cons]
    by_cases he : e ∈ es.toFinset
    · rw [insert_eq_of_mem he]
      omega
    · rw [sum_insert he]
      omega

/-- Where only listed endpoints advertise peers, and the world counts what they advertise, finitely many
endpoints cover it. -/
theorem exists_covered (seeds : List Peer)
    (hcount : w.advertised = (listed.map fun e => advertisedBy (w.encounter e)).sum)
    (hlisted : ∀ e, e ∉ listed → advertisedBy (w.encounter e) = 0) : ∃ es, w.Covered seeds es := by
  let es := seeds.map Peer.endpoint
    ++ listed.flatMap fun e => (peersOf (w.encounter e)).map Peer.endpoint
  refine ⟨es.toFinset, fun e he => List.mem_toFinset.2 ?_, ?_, ?_⟩
  · induction he with
    | @seed p hp => exact List.mem_append_left _ (List.mem_map.2 ⟨p, hp, rfl⟩)
    | @advertised e d nanos q he hworld hq ih =>
      have hq' : q ∈ peersOf (w.encounter e) := by
        rw [hworld]
        exact hq
      have hmem : e ∈ listed := by
        by_contra hnot
        have hnone := hlisted e hnot
        rw [← length_peersOf] at hnone
        exact List.not_mem_nil (List.length_eq_zero_iff.1 hnone ▸ hq')
      exact List.mem_append_right _ (List.mem_flatMap.2 ⟨e, hmem, List.mem_map.2 ⟨q, hq', rfl⟩⟩)
  · refine Nat.le_trans (List.toFinset_card_le es) ?_
    simp only [es, List.length_append, List.length_map, List.length_flatMap, length_peersOf, hcount,
      Nat.le_refl]
  · rw [hcount]
    refine Nat.le_trans (sum_le_sum_of_ne_zero fun e _ hne => ?_) (sum_toFinset_le _ listed)
    by_contra hnot
    exact hne (hlisted e fun hmem => hnot (List.mem_toFinset.2 hmem))

end World

namespace System

variable {c : Settings} {world : Endpoint → Encounter} {seeds : List Peer} {s s' : System}

/-- A worker that takes no peer comes to idle only if it finds nothing waiting. -/
theorem idle_of_work {i : Nat} {w : Worker} {k : Work} (h : s.work world i w k = some s')
    (hk : k ≠ .rest) (hidle : .idle ∈ s'.workers) : .idle ∈ s.workers := by
  have hset : ∀ {w'}, .idle ∈ s.workers.set i w' → w' ≠ .idle → .idle ∈ s.workers := by
    intro w' hmem hne
    exact (List.mem_or_eq_of_mem_set hmem).resolve_right (Ne.symm hne)
  cases k <;> simp only [work] at h
  case rest => exact absurd rfl hk
  case check =>
    split at h <;> cases h
    refine hset hidle ?_
    split <;> exact Worker.noConfusion
  case take =>
    split at h
    · obtain ⟨_, -, rfl⟩ := Option.map_eq_some_iff.1 h
      exact hset hidle Worker.noConfusion
    · cases h
  case finish found =>
    repeat' split at h
    all_goals first | cases h; exact hset hidle (by cases found <;> exact Worker.noConfusion) | cases h
  all_goals
    repeat' split at h
    all_goals first | cases h; exact hset hidle Worker.noConfusion | cases h

theorem idle_of_supervise {m : Move} (h : s.supervise c m = some s') (hidle : .idle ∈ s'.workers) :
    .idle ∈ s.workers := by
  cases m <;> simp only [supervise] at h
  case spawn =>
    split at h <;> cases h
    cases List.eq_of_mem_replicate hidle
  all_goals
    repeat' split at h
    all_goals first | cases h; exact hidle | cases h

/-- After the report no move can be made. -/
theorem step_of_report (hs : Reachable c world seeds s) {r : Report} (hr : s.report? = some r)
    (a : Action) : s.step c world a = none := by
  apply Option.eq_none_iff_forall_ne_some.2
  intro s' hstep
  obtain ⟨why, hfinished⟩ := finished_of_report? hr
  have hover := over_of_report hs hr
  cases a with
  | supervise m => cases m <;> simp [step, supervise, hfinished] at hstep
  | work i k =>
    obtain ⟨w, hw, hwork⟩ := Option.bind_eq_some_iff.1 hstep
    have hisOver := hover w (List.mem_of_getElem? hw)
    cases w with
    | exited | died =>
      cases k <;> simp only [work] at hwork
      case leave => split at hwork <;> cases hwork
      all_goals cases hwork
    | _ => cases hisOver

/-- The supervisor in its loop that can do nothing by itself waits for messages, and there are none. -/
theorem selecting_of_supervisorMove (h : Schedule.supervisorMove s = none)
    (hloop : s.supervisor.ending? = none) :
    s.supervisor = .selecting ∧ s.visits = [] := by
  cases hs : s.supervisor with
  | selecting =>
    refine ⟨rfl, ?_⟩
    simp only [Schedule.supervisorMove, hs] at h
    split at h
    · cases h
    · split at h
      · cases h
      · next hvisits => simpa using hvisits
  | seeding seeds => cases seeds <;> simp [Schedule.supervisorMove, hs] at h
  | receiving v =>
    simp only [Schedule.supervisorMove, hs] at h
    split at h <;> cases h
  | queueing | recording | judging =>
    simp only [Schedule.supervisorMove, hs] at h
    cases h
  | stopping | joining | draining | finished =>
    rw [hs] at hloop
    cases hloop

end System

namespace Schedule

variable {c : Settings} {w : World} {l : Limits} {seeds : List Peer} {horizon : Nat}
  {t t' : Schedule} {a : Action} {es : Finset Endpoint}

/-! ## Moves that come up -/

theorem exists_act_of_nextWithin (h : nextWithin w l horizon t = some a) :
    ∃ t', act c w t a = some t' ∧ t'.clock = t.clock := by
  unfold nextWithin at h
  split at h
  · exact exists_act h
  · exact exists_act_of_supervisorAction h

/-- What can be done now is done now. -/
theorem exists_next_of_now (h : nextWithin w l horizon t ≠ none) :
    ∃ t', next c w l horizon t = some t' ∧ t'.clock = t.clock := by
  obtain ⟨a, ha⟩ := Option.ne_none_iff_exists'.1 h
  obtain ⟨t', hact, hclock⟩ := exists_act_of_nextWithin (c := c) ha
  exact ⟨t', by simp only [next, upcoming, ha, Option.bind_some, hact], hclock⟩

/-- What is due: a visit, or a limit. -/
theorem mem_dues_iff {instant : Nat} : instant ∈ dues w l t ↔ t.clock < instant ∧
    ((∃ i p, t.system.workers[i]? = some (.visiting p) ∧ dueOf w t.begun i p = some instant) ∨
      ∃ d, (l.deadline = some d ∨ l.cancel = some d) ∧ d.nanos = instant) := by
  rw [dues, List.mem_filter, decide_eq_true_eq, and_comm, List.mem_append]
  refine and_congr_right fun _ => or_congr ?_ ?_
  · constructor
    · intro h
      obtain ⟨⟨x, i⟩, hx, hdue⟩ := List.mem_filterMap.1 h
      cases x with
      | visiting p => exact ⟨i, p, List.mk_mem_zipIdx_iff_getElem?.1 hx, hdue⟩
      | _ => cases hdue
    · rintro ⟨i, p, hw, hdue⟩
      exact List.mem_filterMap.2 ⟨(.visiting p, i), List.mk_mem_zipIdx_iff_getElem?.2 hw, hdue⟩
  · simp [List.mem_filterMap, or_and_right, exists_or, eq_comm]

/-- When a visit is due, its worker has a move to make. -/
theorem workerMove_of_due {i instant : Nat} {p : Peer} (hdue : dueOf w t.begun i p = some instant)
    (hle : instant ≤ t.clock) : workerMove w t i (.visiting p) ≠ none := by
  have hany : (dueOf w t.begun i p).any (· ≤ t.clock) = true := by simpa [hdue] using hle
  simp only [workerMove, hany, if_true]
  split
  · exact Option.some_ne_none _
  · cases he : w.encounter p.endpoint with
    | never => simp [dueOf, he] at hdue
    | ends | fatal => exact Option.some_ne_none _

/-- When a limit is reached, it stops a crawl whose supervisor waits. -/
theorem limitMove_of_reached {d : Duration} (hd : l.deadline = some d ∨ l.cancel = some d)
    (hle : d.nanos ≤ t.clock) (hselecting : t.system.supervisor = .selecting) :
    limitMove l t.clock t.system ≠ none := by
  simp only [limitMove, hselecting]
  rcases hd with hd | hd <;> simp only [hd, Option.any_some, decide_eq_true hle, if_true]
  · nofun
  · split <;> nofun

/-- When the supervisor waits and something is due before the horizon, the crawl goes on by then. -/
theorem exists_next_of_due {instant : Nat} (hselecting : t.system.supervisor = .selecting)
    (hdue : instant ∈ dues w l t) (hlate : instant < horizon) :
    ∃ t', next c w l horizon t = some t' ∧ t'.clock ≤ instant := by
  have hlater := (mem_dues_iff.1 hdue).1
  cases hnow : nextWithin w l horizon t with
  | some a =>
    obtain ⟨t', hnext, hclock⟩ := exists_next_of_now (c := c) (by rw [hnow]; nofun)
    exact ⟨t', hnext, by omega⟩
  | none =>
    obtain ⟨first, hfirst⟩ := Option.isSome_iff_exists.1 (List.isSome_min?_of_mem hdue)
    obtain ⟨hmem, hleast⟩ := List.min?_eq_some_iff.1 hfirst
    have hle := hleast instant hdue
    -- at the first instant at which something is due, what is due can be done
    have hmove : nextWithin w l horizon { t with clock := first } ≠ none := by
      rw [nextWithin, if_pos (Nat.lt_of_le_of_lt hle hlate)]
      intro hnone
      obtain ⟨-, hlimit, hworkers⟩ := nextAction_eq_none_iff.1 hnone
      rcases (mem_dues_iff.1 hmem).2 with ⟨i, p, hw, hvisit⟩ | ⟨d, hd, hreached⟩
      · exact workerMove_of_due (t := { t with clock := first }) hvisit (Nat.le_refl first)
          (hworkers i _ hw)
      · exact limitMove_of_reached (t := { t with clock := first }) hd (Nat.le_of_eq hreached)
          hselecting hlimit
    obtain ⟨a, ha⟩ := Option.ne_none_iff_exists'.1 hmove
    obtain ⟨t', hact, hclock⟩ := exists_act_of_nextWithin (c := c) ha
    refine ⟨t', ?_, hclock ▸ hle⟩
    simp only [next, upcoming, hnow, hfirst, if_pos (Nat.le_of_lt (Nat.lt_of_le_of_lt hle hlate)), ha,
      Option.map_some, Option.bind_some, hact]

/-! ## What the schedule keeps -/

/-- What holds of a schedule at any time: it is one run of the system, no worker is idle before the
shutdown, and no visit was begun in the future. -/
structure Kept (c : Settings) (w : World) (seeds : List Peer) (t : Schedule) : Prop where
  reachable : System.Reachable c w.encounter seeds t.system
  calm : t.system.shutdown = false → .idle ∉ t.system.workers
  begun_le : ∀ x ∈ t.begun, x.2 ≤ t.clock

theorem kept_start (c : Settings) (w : World) (seeds : List Peer) :
    Kept c w seeds ⟨.start seeds, 0, []⟩ where
  reachable := .start
  calm := fun _ => List.not_mem_nil
  begun_le := fun _ hx => by cases hx

theorem workerMove_of_nextWithin {i : Nat} {k : Work} (h : nextWithin w l horizon t = some (.work i k)) :
    ∃ x, t.system.workers[i]? = some x ∧ workerMove w t i x = some k := by
  have hsupervisor : supervisorAction l t ≠ some (.work i k) := by
    unfold supervisorAction
    split
    · nofun
    · cases limitMove l t.clock t.system <;> nofun
  unfold nextWithin at h
  split at h
  · unfold nextAction at h
    split at h
    · next haction => exact absurd (haction.trans h) hsupervisor
    · obtain ⟨⟨j, work⟩, hfirst, heq⟩ := Option.map_eq_some_iff.1 h
      cases heq
      obtain ⟨j, x, rfl, hx, hmove⟩ := firstWork_spec hfirst
      rw [Nat.zero_add] at hmove ⊢
      exact ⟨x, hx, hmove⟩
  · exact absurd h hsupervisor

/-- The schedule lets a worker rest only under the shutdown. -/
theorem shutdown_of_rest {i : Nat} {x : Worker} (h : workerMove w t i x = some .rest) :
    t.system.shutdown = true := by
  cases x <;> simp only [workerMove] at h
  all_goals repeat' split at h
  all_goals first | assumption | cases h

theorem kept_next (ht : Kept c w seeds t) (h : next c w l horizon t = some t') : Kept c w seeds t' := by
  obtain ⟨⟨t₁, a⟩, hup, hact⟩ := Option.bind_eq_some_iff.1 h
  obtain ⟨hsystem, hbegun, hclock, ha⟩ := upcoming_spec hup
  obtain ⟨system, hstep, rfl⟩ := Option.map_eq_some_iff.1 hact
  have hs := ht.reachable
  have hcalm := ht.calm
  rw [← hsystem] at hs hcalm
  refine ⟨.step hs hstep, fun hup' hidle => ?_, fun x hx => ?_⟩
  · have hup₁ : t₁.system.shutdown = false := by
      rw [← Bool.not_eq_true] at hup' ⊢
      exact fun hdown => hup' (System.shutdown_of_moved (System.moved_of_step hstep) hdown)
    cases a with
    | supervise m => exact hcalm hup₁ (System.idle_of_supervise hstep hidle)
    | work i k =>
      obtain ⟨y, hy, hmove⟩ := workerMove_of_nextWithin ha
      have hwork : t₁.system.work w.encounter i y k = some system := by
        simpa [System.step, hy] using hstep
      refine hcalm hup₁ (System.idle_of_work hwork ?_ hidle)
      rintro rfl
      rw [shutdown_of_rest hmove] at hup₁
      cases hup₁
  · have hold : ∀ x ∈ t₁.begun, x.2 ≤ t₁.clock := by
      rw [hbegun]
      exact fun x hx => Nat.le_trans (ht.begun_le x hx) hclock
    cases a with
    | supervise m => exact hold x hx
    | work i k =>
      cases k with
      | begin =>
        rcases List.mem_cons.1 hx with rfl | hx
        · exact Nat.le_refl _
        · exact hold x hx
      | _ => exact hold x hx

/-- With all that can be discovered in `es`, what is made next leaves less to do. -/
theorem rank_lt_of_next (hcovered : w.Covered seeds es) (ht : Kept c w seeds t)
    (h : next c w l horizon t = some t') :
    t'.system.rank c w.encounter es < t.system.rank c w.encounter es := by
  obtain ⟨a, hstep⟩ := step_of_next h
  refine System.rank_lt_of_moved ht.reachable ht.calm (fun a p hp => ?_) (System.moved_of_step hstep)
  exact hcovered.discoverable _
    (discoverable_of_heard ((System.traced_of_reachable ht.reachable).waiting a p hp))

/-! ## The report -/

/-- A schedule that keeps what lets it go on until there is a report comes to one, with enough moves. -/
theorem report_of_next {P : Schedule → Prop} (hcovered : w.Covered seeds es)
    (hgoes : ∀ t, Kept c w seeds t → P t → t.system.report? = none →
      ∃ t', next c w l horizon t = some t' ∧ P t')
    {fuel : Nat} (ht : Kept c w seeds t) (hP : P t) (hfuel : t.system.rank c w.encounter es < fuel) :
    ∃ r, (run c w l horizon fuel t).report? = some r := by
  induction fuel generalizing t with
  | zero => exact absurd hfuel (Nat.not_lt_zero _)
  | succ fuel ih =>
    rw [run]
    cases hreport : t.system.report? with
    | none =>
      obtain ⟨t', hnext, hP'⟩ := hgoes t ht hP hreport
      have hlt := rank_lt_of_next hcovered ht hnext
      simp only [hnext]
      exact ih (kept_next ht hnext) hP' (by omega)
    | some r =>
      have hover : next c w l horizon t = none := by
        apply Option.eq_none_iff_forall_ne_some.2
        intro t' hnext
        obtain ⟨a, hstep⟩ := step_of_next hnext
        rw [System.step_of_report ht.reachable hreport a] at hstep
        cases hstep
      simp only [hover]
      exact ⟨r, hreport⟩

/-- Before the horizon, the crawl goes on at once if it is out of its loop, or the supervisor is not waiting
for messages. -/
theorem exists_next_of_busy (ht : System.Reachable c w.encounter seeds t.system)
    (hearly : t.clock < horizon) (hr : t.system.report? = none)
    (hbusy : ¬ (t.system.supervisor = .selecting ∧ nextAction w l t = none)) :
    ∃ t', next c w l horizon t = some t' ∧ t'.clock = t.clock := by
  refine exists_next_of_now ?_
  rw [nextWithin, if_pos hearly]
  intro hnone
  by_cases hloop : t.system.supervisor.ending? = none
  · have hidle := (nextAction_eq_none_iff.1 hnone).1
    exact hbusy ⟨(System.selecting_of_supervisorMove hidle hloop).1, hnone⟩
  · exact System.nextAction_of_ended l ht hloop hr hnone

/-- The crawl goes on until a limit that is reached before the horizon. -/
theorem exists_next_of_limit {d : Duration} (hd : l.deadline = some d ∨ l.cancel = some d)
    (hlate : d.nanos < horizon) (ht : Kept c w seeds t) (hclock : t.clock ≤ d.nanos)
    (hr : t.system.report? = none) :
    ∃ t', next c w l horizon t = some t' ∧ t'.clock ≤ d.nanos := by
  by_cases hbusy : t.system.supervisor = .selecting ∧ nextAction w l t = none
  · obtain ⟨hselecting, hnone⟩ := hbusy
    have hahead : t.clock < d.nanos := by
      refine Nat.lt_of_le_of_ne hclock fun heq => ?_
      exact limitMove_of_reached hd (Nat.le_of_eq heq.symm) hselecting
        (nextAction_eq_none_iff.1 hnone).2.1
    exact exists_next_of_due hselecting (mem_dues_iff.2 ⟨hahead, .inr ⟨d, hd, rfl⟩⟩) hlate
  · have hearly := Nat.lt_of_le_of_lt hclock hlate
    obtain ⟨t', hnext, heq⟩ := exists_next_of_busy (c := c) ht.reachable hearly hr hbusy
    exact ⟨t', hnext, heq ▸ hclock⟩

/-- A worker that has a peer, or for which one waits, and that can do nothing now is in a visit. -/
theorem visiting_of_workerMove {i : Nat} {x : Worker} (hup : t.system.shutdown = false)
    (hon : x.isOver = false) (hidle : x ≠ .idle)
    (hpeer : x.peer? ≠ none ∨ t.system.frontier.queued ≠ []) (h : workerMove w t i x = none) :
    ∃ p, x = .visiting p := by
  cases x with
  | visiting p => exact ⟨p, rfl⟩
  | idle => exact absurd rfl hidle
  | taking =>
    simp only [workerMove, hup] at h
    split at h
    · cases h
    · next hqueued => exact absurd hqueued (hpeer.resolve_left fun hnone => hnone rfl)
  | holding p => simp [workerMove, hup] at h
  | checking | finding | reporting => cases h
  | exited | died => cases hon

/-- Where there is work left and nothing can be done, a worker is in a visit. -/
theorem exists_visiting (hup : t.system.shutdown = false) (hcalm : .idle ∉ t.system.workers)
    (hon : ∀ x ∈ t.system.workers, x.isOver = false) (hworkers : t.system.workers ≠ [])
    (hwork : t.system.HasWork) (hvisits : t.system.visits = [])
    (h : ∀ i x, t.system.workers[i]? = some x → workerMove w t i x = none) :
    ∃ (i : Nat) (p : Peer), t.system.workers[i]? = some (.visiting p) := by
  have hvisiting : ∀ x ∈ t.system.workers, x.peer? ≠ none ∨ t.system.frontier.queued ≠ [] →
      ∃ (i : Nat) (p : Peer), t.system.workers[i]? = some (.visiting p) := by
    intro x hx hpeer
    obtain ⟨i, hi⟩ := List.mem_iff_getElem?.1 hx
    obtain ⟨p, rfl⟩ := visiting_of_workerMove hup (hon x hx) (fun heq => hcalm (heq ▸ hx)) hpeer
      (h i x hi)
    exact ⟨i, p, hi⟩
  rcases hwork with ⟨a, ha⟩ | ⟨x, hx, hpeer⟩ | hleft
  · obtain ⟨x, hx⟩ := List.exists_mem_of_ne_nil _ hworkers
    have hqueued := AddressMap.mem_keys_iff.2 ha
    exact hvisiting x hx (.inr (List.ne_nil_of_mem hqueued))
  · exact hvisiting x hx (.inl hpeer)
  · exact absurd hvisits hleft

/-- How long an encounter lasts, if it ends. -/
def lasting : Encounter → Nat
  | .ends _ nanos => nanos
  | _ => 0

/-- A visit is due after as long as its encounter lasts. -/
theorem exists_dueOf (ht : Kept c w seeds t) {i : Nat} {p : Peer} {reply : Reply} {nanos : Nat}
    (he : w.encounter p.endpoint = .ends reply nanos) :
    ∃ instant, dueOf w t.begun i p = some instant ∧ instant ≤ t.clock + nanos := by
  have hbegun : (t.begun.lookup i).getD 0 ≤ t.clock := by
    cases hlookup : t.begun.lookup i with
    | none => exact Nat.zero_le _
    | some instant =>
      obtain ⟨before, behind, heq, -⟩ := List.lookup_eq_some_iff.1 hlookup
      exact ht.begun_le (i, instant) (by simp [heq])
  exact ⟨_, by simp only [dueOf, he], Nat.add_le_add_right hbegun nanos⟩

/-- Where all visits end, the crawl goes on after the longest visit at the latest. -/
theorem exists_next_of_work (hstop : c.stopWhenQuiescent = true) (hseeds : seeds ≠ [])
    (hends : ∀ e, ∃ reply nanos, w.encounter e = .ends reply nanos) (hcovered : w.Covered seeds es)
    {longest : Nat} (hlongest : ∀ e ∈ es, lasting (w.encounter e) ≤ longest) (ht : Kept c w seeds t)
    (hearly : t.clock + longest < horizon) (hr : t.system.report? = none) :
    ∃ t', next c w l horizon t = some t' ∧ t'.clock ≤ t.clock + longest := by
  by_cases hbusy : t.system.supervisor = .selecting ∧ nextAction w l t = none
  · obtain ⟨hselecting, hnone⟩ := hbusy
    obtain ⟨hidle, -, hworkers⟩ := nextAction_eq_none_iff.1 hnone
    have hworld : ∀ e, w.encounter e ≠ .fatal := by
      intro e hfatal
      obtain ⟨reply, nanos, he⟩ := hends e
      rw [he] at hfatal
      cases hfatal
    have hs := ht.reachable
    have hup := System.not_shutdown_of_selecting hs hselecting
    have hspawned : t.system.workers ≠ [] := by
      intro hnil
      obtain ⟨rest, hrest⟩ := System.seeding_of_no_workers hs hnil
      rw [hselecting] at hrest
      cases hrest
    have hvisits := (System.selecting_of_supervisorMove hidle (by rw [hselecting]; rfl)).2
    obtain ⟨i, p, hw⟩ := exists_visiting hup (ht.calm hup) (System.not_isOver hworld hs hup) hspawned
      (System.hasWork_of_selecting hstop hseeds hworld hs hselecting) hvisits hworkers
    obtain ⟨reply, nanos, he⟩ := hends p.endpoint
    have hheard := (System.traced_of_reachable hs).workers _ (List.mem_of_getElem? hw)
    have hnanos := hlongest _ (hcovered.discoverable _ (discoverable_of_heard hheard))
    rw [he] at hnanos
    obtain ⟨instant, hinstant, hle⟩ := exists_dueOf ht he
    replace hle := Nat.le_trans hle (Nat.add_le_add_left hnanos t.clock)
    have hahead : t.clock < instant :=
      Nat.lt_of_not_le fun hpast => workerMove_of_due hinstant hpast (hworkers i _ hw)
    obtain ⟨t', hnext, hclock⟩ := exists_next_of_due (c := c) hselecting
      (mem_dues_iff.2 ⟨hahead, .inl ⟨i, p, hw, hinstant⟩⟩) (Nat.lt_of_le_of_lt hle hearly)
    exact ⟨t', hnext, Nat.le_trans hclock hle⟩
  · have hearly' := Nat.lt_of_le_of_lt (Nat.le_add_right _ _) hearly
    obtain ⟨t', hnext, heq⟩ := exists_next_of_busy (c := c) ht.reachable hearly' hr hbusy
    exact ⟨t', hnext, by omega⟩

/-- The moves that are left at the start are fewer than those that are allowed. -/
theorem rank_start_lt (c : Settings) (hcovered : w.Covered seeds es) :
    (System.start seeds).rank c w.encounter es < enoughMoves c w seeds := by
  have huntaken : (System.start seeds).untaken w.encounter es
      ≤ es.card * 12 + ∑ e ∈ es, World.advertisedBy (w.encounter e) := by
    refine Nat.le_trans (sum_le_sum_of_subset (filter_subset _ _)) ?_
    rw [sum_add_distrib, sum_const, Nat.nsmul_eq_mul]
  have hcard := hcovered.card_le
  have hadvertised := hcovered.advertised_le
  simp only [System.rank, System.load, System.start, Supervisor.load, List.map_nil, List.sum_nil,
    List.length_nil, enoughMoves] at huntaken ⊢
  omega

end Schedule

variable {c : Settings} {w : World} {l : Limits} {seeds : List Peer} {horizon : Duration}
  {es : Finset Endpoint}

/-- A crawl with a limit before the horizon has a report, whatever the peers do. -/
theorem report_of_limit (hcovered : w.Covered seeds es) {d : Duration}
    (hd : l.deadline = some d ∨ l.cancel = some d) (hlate : d.nanos < horizon.nanos) :
    ∃ r, (crawl c w l horizon seeds).report? = some r := by
  refine Schedule.report_of_next (P := fun t => t.clock ≤ d.nanos) hcovered ?_
    (Schedule.kept_start c w seeds) (Nat.zero_le _) (Schedule.rank_start_lt c hcovered)
  intro t ht hclock hr
  exact Schedule.exists_next_of_limit hd hlate ht hclock hr

/-- A crawl that is to stop when it is quiescent, in a world where all visits end, has a report if the
horizon is far enough. -/
theorem report_of_quiescence (hcovered : w.Covered seeds es) (hstop : c.stopWhenQuiescent = true)
    (hseeds : seeds ≠ []) (hends : ∀ e, ∃ reply nanos, w.encounter e = .ends reply nanos) :
    ∃ enough, ∀ (l : Limits) (horizon : Duration), enough ≤ horizon.nanos →
      ∃ r, (crawl c w l horizon seeds).report? = some r := by
  obtain ⟨longest, hlongest⟩ : ∃ longest, ∀ e ∈ es, Schedule.lasting (w.encounter e) ≤ longest :=
    ⟨_, fun e he => le_sup (f := fun e => Schedule.lasting (w.encounter e)) he⟩
  let left (s : System) : Nat := s.rank c w.encounter es
  refine ⟨longest * (left (.start seeds) + 1) + 1, fun l horizon hfar => ?_⟩
  have hstart : 0 + longest * (left (.start seeds) + 1) < horizon.nanos := by
    rw [Nat.zero_add]
    exact hfar
  -- each move takes as long as the longest visit at most, and uses up one of those that are left
  refine Schedule.report_of_next
    (P := fun t => t.clock + longest * (left t.system + 1) < horizon.nanos) hcovered ?_
    (Schedule.kept_start c w seeds) hstart (Schedule.rank_start_lt c hcovered)
  intro t ht hearly hr
  have hone : longest * 1 ≤ longest * (left t.system + 1) := Nat.mul_le_mul_left _ (Nat.le_add_left _ _)
  have hnear : t.clock + longest < horizon.nanos := by omega
  obtain ⟨t', hnext, hclock⟩ :=
    Schedule.exists_next_of_work (l := l) hstop hseeds hends hcovered hlongest ht hnear hr
  refine ⟨t', hnext, ?_⟩
  have hlt : left t'.system + 1 ≤ left t.system := Schedule.rank_lt_of_next hcovered ht hnext
  have hused := Nat.mul_le_mul_left longest hlt
  rw [Nat.mul_add_one] at hearly
  omega

end LevinNet.Crawl
