import LevinNet.Crawl.Crawler
import LevinNet.Proofs.Crawl.Reports
import LevinNet.Proofs.Crawl.Termination
import LevinNet.Proofs.Dial.Opening
import LevinNet.Proofs.Session.Conservation

/-
Which failures abort a crawl, and which are reported.

   1. A visit fails if no session is opened or the handshake fails, whatever the peer did (`Fails`). It
      comes to an end in each case, so no worker dies of it (`not_died`).
   2. `ended` are the peers whose visits came to their end along a run. If the visit failed, its worker
      has nothing else to do but to send the failure (`told_of_ended`), and all that is sent is in the
      report (`mem_values_of_told`). So the report has the failure (`holdsFailures`).
   3. What aborts a crawl is found while it is prepared, before there is a worker, and a crawl that is
      prepared is never aborted (`only_setup_aborts`).
-/
namespace LevinNet

/-- A failure is recorded as it is, and nothing was found. -/
theorem Reply.outcome_of_error {reply : Reply} {e : SessionError} (h : reply.error? = some e)
    (p : Peer) : reply.outcome p = (.failed p e, []) := by
  cases reply with
  | unreached cause | failed cause =>
    cases h
    rfl
  | directory d => cases h

namespace Crawl.System

variable {c : Settings} {world : Endpoint → Encounter} {seeds : List Peer} {s s' : System}
  {a : Action}

/-! ## Workers -/

/-- No worker dies of a visit unless the visit is fatal. -/
theorem not_died (hworld : ∀ e, world e ≠ .fatal) (h : Reachable c world seeds s) (p : Peer) :
    .died p ∉ s.workers := by
  refine h.invariant (P := fun s => .died p ∉ s.workers) List.not_mem_nil ?_
  intro s s' hs hm hdied
  have hset : ∀ {i : Nat} {w : Worker}, .died p ∈ s.workers.set i w → w ≠ .died p → False := by
    intro i w hmem hne
    rcases List.mem_or_eq_of_mem_set hmem with hold | hnew
    · exact hs hold
    · exact hne hnew.symm
  cases hm with
  | spawn => exact Worker.noConfusion (List.eq_of_mem_replicate hdied)
  | pace hw h => exact hset hdied (by cases h <;> exact Worker.noConfusion)
  | @finish i q reply nanos v found =>
    exact hset hdied (by cases found <;> exact Worker.noConfusion)
  | die hw hfatal => exact hworld _ hfatal
  | take | begin | sendFound | sendVisit | quit => exact hset hdied Worker.noConfusion
  | _ => exact hs hdied

/-! ## Visits that end -/

/-- The peer whose visit a move brings to its end. -/
def ended? (s : System) : Action → Option Peer
  | .work i (.finish _) =>
    match s.workers[i]? with
    | some (.visiting p) => some p
    | _ => none
  | _ => none

/-- The peers whose visits came to their end in a run from the seeds. -/
def ended (c : Settings) (world : Endpoint → Encounter) (seeds : List Peer) (as : List Action) :
    List Peer :=
  log ended? c world (start seeds) as

theorem ended?_eq_some {p : Peer} (h : s.ended? a = some p) :
    ∃ i found, a = .work i (.finish found) ∧ s.workers[i]? = some (.visiting p) := by
  unfold ended? at h
  split at h
  · next i found =>
    split at h
    · next q hw =>
      cases h
      exact ⟨i, _, rfl, hw⟩
    · cases h
  · cases h

/-- A worker whose visit failed is about to send the failure. -/
theorem reporting_of_finish {i : Nat} {p : Peer} {reply : Reply} {nanos : Nat} {e : SessionError}
    (hw : s.workers[i]? = some (.visiting p)) (hworld : world p.endpoint = .ends reply nanos)
    (he : reply.error? = some e) {found : List Peer}
    (h : s.step c world (.work i (.finish found)) = some s') :
    .reporting (.failed p e) ∈ s'.workers := by
  rw [step, hw, Option.bind_some] at h
  simp only [work, hworld, Reply.outcome_of_error he, List.perm_nil] at h
  split at h <;> cases h
  subst_vars
  exact List.mem_of_getElem? (getElem?_setWorker (.reporting (.failed p e)) hw)

/-- A visit that came to its end and failed is told. -/
theorem told_of_ended {as : List Action} (h : (start seeds).run c world as = some s) {p : Peer}
    (hp : p ∈ ended c world seeds as) {reply : Reply} {nanos : Nat} {e : SessionError}
    (hworld : world p.endpoint = .ends reply nanos) (he : reply.error? = some e) :
    s.Told (.failed p e) := by
  revert hp
  refine run_induct_run (P := fun as s => p ∈ ended c world seeds as → s.Told (.failed p e))
    (fun hp => by cases hp) ?_ h
  intro as s a s' hrun ih hstep hp
  rw [ended, log_concat ended? hrun, List.mem_append, Option.mem_toList] at hp
  rcases hp with hp | hp
  · exact told_of_step (reachable_iff_run.2 ⟨as, hrun⟩) hstep (ih hp)
  · obtain ⟨i, found, rfl, hw⟩ := ended?_eq_some hp
    exact .inl (reporting_of_finish hw hworld he hstep)

/-- What is told is in the report. -/
theorem mem_values_of_told {r : Report} (h : Reachable c world seeds s) (hr : s.report? = some r)
    {v : Visit} (hv : s.Told v) : v ∈ r.visits.values := by
  obtain ⟨why, hfinished⟩ := finished_of_report? hr
  have hisFinished : s.supervisor.isFinished = true := by
    rw [hfinished]
    rfl
  rcases hv with hreporting | hstored
  · have hover := over_of_joined h (Supervisor.hasJoined_of_isFinished hisFinished) _ hreporting
    cases hover
  · rw [stored, recorded_of_finished hfinished, visits_of_finished h hisFinished, hfinished] at hstored
    simpa [Supervisor.hand] using hstored

/-- A visit in a report stands under its own address. -/
theorem get?_of_mem_values {r : Report} (h : Reachable c world seeds s) (hr : s.report? = some r)
    {v : Visit} (hv : v ∈ r.visits.values) :
    r.visits.get? v.address = some v ∧ s.recorded.get? v.address = some v := by
  obtain ⟨why, hfinished⟩ := finished_of_report? hr
  have hrecorded := recorded_of_finished hfinished
  obtain ⟨key, hget⟩ := AddressMap.mem_values_iff.1 hv
  have hkey := (tidy_of_reachable h).recorded_key key v (by rw [hrecorded]; exact hget)
  rw [hrecorded, hkey]
  exact ⟨hget, hget⟩

end Crawl.System

namespace Crawler

open Crawl (System)

variable {c : Crawler} {host : Host} {localId localTime : UInt64}

/-! ## Visits from a host -/

/-- A visit to an endpoint fails: no session with it is opened, or the handshake fails. -/
inductive Fails (c : Crawler) (host : Host) (localId localTime : UInt64) (e : Endpoint)
    (cause : SessionError) : Prop where
  | unopened
    (h : (Session.open host c.config (.ofEndpoint e) localId localTime).result = .error cause)
  | handshake {s : Session}
    (hopen : (Session.open host c.config (.ofEndpoint e) localId localTime).result = .ok s)
    (h : (s.handshake c.peerTimeout).1 = .error cause)

/-- A visit is recorded with an error if and only if it fails with it. -/
theorem error?_meet_iff {e : Endpoint} {cause : SessionError} :
    (c.meet host localId localTime e).result.error? = some cause ↔
      c.Fails host localId localTime e cause := by
  have hdecide : c.Fails host localId localTime e cause ↔
      ((Session.open host c.config (.ofEndpoint e) localId localTime).result.bind fun s =>
        (s.handshake c.peerTimeout).1) = .error cause := by
    constructor
    · rintro (h | ⟨hopen, h⟩)
      · rw [h]
        rfl
      · rw [hopen]
        exact h
    · intro h
      cases hopen : (Session.open host c.config (.ofEndpoint e) localId localTime).result with
      | error cause' =>
        rw [hopen] at h
        cases h
        exact .unopened hopen
      | ok s =>
        rw [hopen] at h
        exact .handshake hopen h
  rw [hdecide, meet]
  cases (Session.open host c.config (.ofEndpoint e) localId localTime).result with
  | error cause' => simp [Reply.error?, Except.bind]
  | ok s => cases h : s.handshake c.peerTimeout with
    | mk result s' => cases result <;> simp [Reply.error?, Except.bind, h]

/-- No visit fails for want of memory: the ceiling for payloads is below what can be allocated. -/
theorem not_fails_overflow (e : Endpoint) : ¬ c.Fails host localId localTime e .capacityOverflow := by
  rintro (h | ⟨hopen, h⟩)
  · cases Session.isTransient_of_dial (Session.result_open_eq_error_iff.1 h)
  · obtain ⟨source, -, rfl⟩ := Session.result_open_eq_ok_iff.1 hopen
    have hid : (ChainTip.genesis c.network).topId.length = 32 := by
      cases c.network <;> rfl
    have hopened := Session.open_start c.config (.ofEndpoint e) localId localTime source {}
    have hceiling : FrameReader.maxAllocation < Config.handshakeCeiling :=
      Session.lt_ceiling_of_overflow (by exact ⟨hopened.reader, hopened.writing⟩) rfl hid h
    exact absurd hceiling (by decide)

/-- What a report says of the visits that failed, where `ended` are the peers whose visits came to their
end: each failure is an unreachable entry, and an entry has an error only if the visit failed with it. -/
structure HoldsFailures (c : Crawler) (host : Host) (localId localTime : UInt64) (ended : List Peer)
    (r : Report) : Prop where
  reported : ∀ p ∈ ended, ∀ cause, c.Fails host localId localTime p.endpoint cause →
    r.visits.get? p.address = some (.failed p cause) ∧ .failed p cause ∈ r.unreachable
  error_iff : ∀ v ∈ r.visits.values, ∀ cause,
    v.error = some cause ↔ c.Fails host localId localTime v.peer.endpoint cause

theorem holdsFailures {settings : Crawl.Settings} {peers : List Peer} {as : List Crawl.Action}
    {s : System} {r : Report}
    (h : (System.start peers).run settings (c.encounter host localId localTime) as = some s)
    (hr : s.report? = some r) :
    c.HoldsFailures host localId localTime
      (System.ended settings (c.encounter host localId localTime) peers as) r where
  reported := by
    intro p hp cause hfails
    have htold := System.told_of_ended h hp rfl (error?_meet_iff.2 hfails)
    have hs := System.reachable_iff_run.2 ⟨as, h⟩
    have hmem := System.mem_values_of_told hs hr htold
    exact ⟨(System.get?_of_mem_values hs hr hmem).1, List.mem_filter.2 ⟨hmem, rfl⟩⟩
  error_iff := by
    intro v hv cause
    have hs := System.reachable_iff_run.2 ⟨as, h⟩
    obtain ⟨-, -, reply, nanos, hworld, herror, -⟩ :=
      System.reply_of_recorded hs (System.get?_of_mem_values hs hr hv).2
    cases hworld
    rw [herror, error?_meet_iff]

end Crawler

end LevinNet
