import LevinNet.Proofs.Crawl.Logs

/-
What a crawl reports, whatever ended it.

   1. Once the workers are joined they are over, and once the report is made their channel is empty
      (`over_of_joined`, `visits_of_finished`). So all that was sent is in the report.
   2. A visit is `Told` from when its worker has sent what it found, and stays so (`told_of_step`): a
      worker that has told of peers always gets to send its visit. `Reached` are the peers that directories
      of told visits lead to.
   3. So the peers of a run are reached, and its visits are what queued peers replied (`sourced_of_run`),
      and so are those of the report (`report_of_run`).
-/
namespace LevinNet.Crawl

/-- What is recorded of the reply of a peer: of a directory its size and what it says of the node and
its chain, and of anything else the error, with the peer as it was. -/
inductive Tells (p : Peer) : Reply → Visit → Prop where
  | directory (d : Directory) : Tells p (.directory d) ⟨p.withInfo d.node d.chain, d.size, none⟩
  | failed (e : SessionError) : Tells p (.failed e) ⟨p, 0, some e⟩
  | unreached (e : SessionError) : Tells p (.unreached e) ⟨p, 0, some e⟩

theorem tells_of_yields {reply : Reply} {p : Peer} {v : Visit} {found : List Peer}
    (h : reply.Yields p v found) : Tells p reply v := by
  rw [h.visit_eq]
  cases reply with
  | directory d => exact .directory d
  | failed e => exact .failed e
  | unreached e => exact .unreached e

/-- The seeds, and the peers that are advertised by the directory of a peer that was reached, where the
visit to it is one of those `told`. -/
inductive Reached (world : Endpoint → Encounter) (seeds : List Peer) (told : Visit → Prop) :
    Peer → Prop where
  | seed {p : Peer} (h : p ∈ seeds) : Reached world seeds told p
  | advertised {p q : Peer} {d : Directory} {nanos : Nat} {v : Visit}
    (hp : Reached world seeds told p) (hworld : world p.endpoint = .ends (.directory d) nanos)
    (hv : Tells p (.directory d) v) (htold : told v) (hq : q ∈ d.peers.values) :
    Reached world seeds told q

/-- Whether the supervisor has seen that all workers are over. -/
def Supervisor.hasJoined : Supervisor → Bool
  | .draining _ | .finished _ _ => true
  | _ => false

theorem Supervisor.hasJoined_of_isFinished {place : Supervisor} (h : place.isFinished = true) :
    place.hasJoined = true := by
  cases place <;> first | rfl | cases h

variable {c : Settings} {world : Endpoint → Encounter} {seeds : List Peer}

theorem Reached.mono {told told' : Visit → Prop} (htold : ∀ v, told v → told' v) {p : Peer}
    (h : Reached world seeds told p) : Reached world seeds told' p := by
  induction h with
  | seed h => exact .seed h
  | advertised hp hworld hv ht hq ih => exact .advertised ih hworld hv (htold _ ht) hq

namespace System

variable {s s' : System} {a : Action}

/-! ## After the loop -/

theorem finished_of_report? {r : Report} (h : s.report? = some r) :
    ∃ why, s.supervisor = .finished why r := by
  rw [report?] at h
  split at h <;> cases h
  exact ⟨_, ‹_›⟩

/-- Workers that are joined are over. -/
theorem over_of_joined (h : Reachable c world seeds s) (hjoined : s.supervisor.hasJoined = true) :
    ∀ w ∈ s.workers, w.isOver = true := by
  revert hjoined
  refine h.invariant (P := fun s => s.supervisor.hasJoined = true → ∀ w ∈ s.workers, w.isOver = true)
    (fun hjoined => by cases hjoined) ?_
  intro s s' hs hm hjoined
  -- a worker that moves is not over
  have hmover : ∀ {i : Nat} {w : Worker}, s.supervisor.hasJoined = true →
      s.workers[i]? = some w → w.isOver = false → ∀ w ∈ s'.workers, w.isOver = true := by
    intro i w hjoined hw hover
    rw [hs hjoined w (List.mem_of_getElem? hw)] at hover
    cases hover
  cases hm with
  | join h hover => exact List.all_eq_true.1 hover
  | drain h | report h => exact hs (by rw [h]; rfl)
  | @queued visit h => cases visit <;> cases hjoined
  | @takeFound peers found visit h hfound => cases hjoined
  | seed | spawn | takeVisit | queue | settle | record | goOn | quiesce | interrupt | signal =>
    cases hjoined
  | pace hw h => exact hmover hjoined hw (by cases h <;> rfl)
  | take hw | begin hw | finish hw | die hw | sendFound hw | sendVisit hw =>
    exact hmover hjoined hw rfl
  | quit hw h => exact hmover hjoined hw (by rcases h with rfl | rfl <;> rfl)

/-- The report is made once the channel is empty, and nobody is left to send more. -/
theorem visits_of_finished (h : Reachable c world seeds s)
    (hfinished : s.supervisor.isFinished = true) : s.visits = [] := by
  induction h with
  | start => cases hfinished
  | @step s s' a hs hstep ih =>
    cases moved_of_step hstep with
    | report h hvisits => exact hvisits
    | sendVisit hw =>
      have hjoined := Supervisor.hasJoined_of_isFinished hfinished
      have hover := over_of_joined hs hjoined _ (List.mem_of_getElem? hw)
      cases hover
    | drain h =>
      rw [h] at hfinished
      cases hfinished
    | @queued visit h => cases visit <;> cases hfinished
    | @takeFound peers found visit h hfound => cases hfinished
    | seed | spawn | takeVisit | queue | settle | record | goOn | quiesce | interrupt | signal
    | join => cases hfinished
    | pace | take | begin | finish | die | sendFound | quit => exact ih hfinished

/-! ## Visits that are told -/

/-- Whether a visit was sent, or its worker has nothing to do but to send it. -/
def Told (s : System) (v : Visit) : Prop := .reporting v ∈ s.workers ∨ v ∈ s.stored

theorem mem_set_of_ne {workers : List Worker} {i : Nat} {w₀ w : Worker} (w' : Worker)
    (hw : workers[i]? = some w₀) (hne : w ≠ w₀) (h : w ∈ workers) : w ∈ workers.set i w' := by
  obtain ⟨j, hj⟩ := List.mem_iff_getElem?.1 h
  have hij : i ≠ j := by
    rintro rfl
    rw [hw] at hj
    exact hne (Option.some.inj hj).symm
  exact List.mem_iff_getElem?.2 ⟨j, by rw [List.getElem?_set_ne hij, hj]⟩

/-- A worker that reports a visit does nothing before it has sent it. -/
theorem reporting_of_moved (hs : s.Tidy) (h : Moved c world s s') {v : Visit}
    (hv : .reporting v ∈ s.workers) : .reporting v ∈ s'.workers ∨ v ∈ s'.visits := by
  cases h with
  | spawn h =>
    rw [hs.unspawned _ h] at hv
    cases hv
  | @sendVisit i u hw =>
    by_cases huv : v = u
    · exact .inr (by rw [huv]; exact List.mem_append_right _ List.mem_cons_self)
    · exact .inl (mem_set_of_ne _ hw (fun heq => huv (Worker.reporting.inj heq)) hv)
  | pace hw h => exact .inl (mem_set_of_ne _ hw (by cases h <;> exact Worker.noConfusion) hv)
  | take hw | begin hw | finish hw | die hw | sendFound hw =>
    exact .inl (mem_set_of_ne _ hw Worker.noConfusion hv)
  | quit hw h =>
    exact .inl (mem_set_of_ne _ hw (by rcases h with rfl | rfl <;> exact Worker.noConfusion) hv)
  | _ => exact .inl hv

/-- A visit that is told stays told. -/
theorem told_of_step (hs : Reachable c world seeds s) (h : s.step c world a = some s') {v : Visit}
    (hv : s.Told v) : s'.Told v := by
  rcases hv with hv | hv
  · refine (reporting_of_moved (tidy_of_reachable hs) (moved_of_step h) hv).imp_right fun hv => ?_
    exact List.mem_append_right _ hv
  · exact .inr ((stored_of_step hs h).mem_iff.2 (List.mem_append_left _ hv))

/-! ## Where the visits of a run come from -/

/-- The peers of a run are reached, and its visits are what queued peers replied. -/
theorem sourced_of_run {as : List Action} (h : (start seeds).run c world as = some s) :
    s.Sourced world (Reached world seeds s.Told)
      (fun p => p ∈ queued c world seeds as ∧ Reached world seeds s.Told p) := by
  refine run_induct_run (P := fun as s => s.Sourced world (Reached world seeds s.Told)
    (fun p => p ∈ queued c world seeds as ∧ Reached world seeds s.Told p))
    (sourced_start fun p hp => .seed hp) ?_ h
  intro as s a s' hrun ih hstep
  have hs := reachable_iff_run.2 ⟨as, hrun⟩
  have hmono : ∀ p, Reached world seeds s.Told p → Reached world seeds s'.Told p :=
    fun p hp => hp.mono fun v hv => told_of_step hs hstep hv
  rw [queued, log_concat queued? hrun]
  refine sourced_moved ih (moved_of_step hstep) hmono ?_ ?_ ?_
  · rintro p ⟨hp, hreached⟩
    exact ⟨List.mem_append_left _ hp, hmono p hreached⟩
  · -- what a visit found is advertised by its peer, and the visit is told now
    rintro v found ⟨p, reply, nanos, ⟨-, hreached⟩, hworld, ho⟩ hreporting q hq
    have hadvertised := ho.mem_iff.1 hq
    cases reply with
    | directory d =>
      exact .advertised (hmono p hreached) hworld (tells_of_yields ho) (.inl hreporting) hadvertised
    | failed e | unreached e => cases hadvertised
  · intro address p hp
    refine (waiting_of_step hstep hp).imp_right fun hq => ?_
    obtain ⟨hpending, -⟩ := queued?_eq_some hstep hq
    exact ⟨List.mem_append_right _ (by rw [hq]; exact List.mem_singleton_self p),
      hmono p (ih.pending p hpending)⟩

/-! ## Reports -/

/-- **Reports are sound and lose nothing.** Whatever the order of moves, and whatever ended the crawl,
its report has just the visits that workers sent, one for each, under their own addresses. Of each
address one peer was queued at most. Each visit in the report is what the queued peer of its address
replied, and this peer was reached from the seeds, by directories of visits that are in the report. -/
theorem report_of_run {as : List Action} {r : Report} (h : (start seeds).run c world as = some s)
    (hr : s.report? = some r) :
    (sent c world seeds as).Perm r.visits.values ∧
    (∀ address v, r.visits.get? address = some v ↔
      v ∈ sent c world seeds as ∧ v.address = address) ∧
    ((queued c world seeds as).map Peer.address).Nodup ∧
    ∀ v ∈ r.visits.values, ∃ p ∈ queued c world seeds as, p.address = v.address ∧
      Reached world seeds (· ∈ r.visits.values) p ∧
      ∃ reply nanos, world p.endpoint = .ends reply nanos ∧ Tells p reply v := by
  have hs := reachable_iff_run.2 ⟨as, h⟩
  obtain ⟨why, hfinished⟩ := finished_of_report? hr
  have hrecorded : s.recorded = r.visits := by rw [recorded, hfinished]
  have hstored : s.stored = r.visits.values := by
    rw [stored, hrecorded, visits_of_finished hs (by rw [hfinished]; rfl), hfinished]
    simp [Supervisor.hand]
  have hperm := stored_perm_sent h
  rw [hstored] at hperm
  have hkeys := (tidy_of_reachable hs).recorded_key
  rw [hrecorded] at hkeys
  refine ⟨hperm.symm, fun address v => ?_, (nodup_queued h).1, fun v hv => ?_⟩
  · rw [← hperm.mem_iff, AddressMap.mem_values_iff]
    constructor
    · intro hget
      exact ⟨⟨address, hget⟩, hkeys address v hget⟩
    · rintro ⟨⟨key, hget⟩, rfl⟩
      rwa [hkeys key v hget]
  · have htold : ∀ u, s.Told u → u ∈ r.visits.values := by
      rintro u (hreporting | hu)
      · have hover := over_of_joined hs (by rw [hfinished]; rfl) _ hreporting
        cases hover
      · rwa [hstored] at hu
    obtain ⟨key, hget⟩ := AddressMap.mem_values_iff.1 hv
    obtain ⟨found, p, reply, nanos, ⟨hqueued, hreached⟩, hworld, ho⟩ :=
      (sourced_of_run h).recorded key v (by rw [hrecorded]; exact hget)
    refine ⟨p, hqueued, ?_, hreached.mono htold, reply, nanos, hworld, tells_of_yields ho⟩
    rw [Peer.address, Visit.address, Peer.address, ho.endpoint_eq]

/-- Moves up to a report, with the deadline while the first visit is still in the channel, and the peer
that it found never taken. -/
def cutOff : List Action :=
  [.supervise .seed, .supervise .seed, .supervise .spawn, .work 0 .check,
    .work 0 (.take "1.1.1.1:80"), .work 0 .begin, .work 0 (.finish sampleFound), .work 0 .sendFound,
    .supervise .takeFound, .supervise .queue, .supervise .queue, .supervise .queue,
    .work 0 .sendVisit, .supervise .deadline, .supervise .signal, .work 0 .check,
    .supervise .join, .supervise .drain, .supervise .report]

/-- The moves are a run, both peers were queued, and its report has the visit that was sent. -/
theorem report_of_run_cutOff : ∃ s r,
    (start sampleSeeds).run ⟨1, true⟩ sampleWorld.encounter cutOff = some s ∧
    s.report? = some r ∧ r.visits.keys = ["1.1.1.1:80"] ∧
    (queued ⟨1, true⟩ sampleWorld.encounter sampleSeeds cutOff).map Peer.address
      = ["1.1.1.1:80", "2.2.2.2:80"] ∧
    (sent ⟨1, true⟩ sampleWorld.encounter sampleSeeds cutOff).Perm r.visits.values ∧
    ∀ v ∈ r.visits.values, ∃ p ∈ queued ⟨1, true⟩ sampleWorld.encounter sampleSeeds cutOff,
      p.address = v.address ∧
      Reached sampleWorld.encounter sampleSeeds (· ∈ r.visits.values) p := by
  have hrun : (((start sampleSeeds).run ⟨1, true⟩ sampleWorld.encounter cutOff).bind report?).map
      (·.visits.keys) = some ["1.1.1.1:80"] := by
    decide +kernel
  obtain ⟨r, hr, hkeys⟩ := Option.map_eq_some_iff.1 hrun
  obtain ⟨s, hs, hr⟩ := Option.bind_eq_some_iff.1 hr
  obtain ⟨hsent, -, -, hcome⟩ := report_of_run hs hr
  refine ⟨s, r, hs, hr, hkeys, by decide +kernel, hsent, fun v hv => ?_⟩
  obtain ⟨p, hp, haddress, hreached, -⟩ := hcome v hv
  exact ⟨p, hp, haddress, hreached⟩

end System

end LevinNet.Crawl
