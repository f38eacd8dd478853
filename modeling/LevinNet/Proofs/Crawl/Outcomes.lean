import LevinNet.Proofs.Crawl.Failures
import LevinNet.Proofs.Crawl.Returns
import LevinNet.Proofs.Crawl.Setup
import Mathlib.Data.Fintype.Prod

/-
What comes of a crawl.

   1. A crawl that is not prepared is aborted with the very error, and nothing is dialled but what was
      dialled to prepare it (`crawlUntil_of_error`). One that is prepared is never aborted
      (`crawlUntil_of_ready`).
   2. Out of its loop, in whatever order the moves are made, a crawl comes to its report
      (`comesToReport_of_ended`). It comes out of the loop at a limit, or when it is quiescent
      (`reported_of_limit`, `reported_of_quiescence`).
   3. So only a bad setup aborts a crawl, and all that the peers do is told by the report
      (`only_setup_aborts`).
-/
namespace LevinNet

namespace Crawl.System

variable {c : Settings} {world : Endpoint → Encounter} {seeds : List Peer} {s : System}

/-- No run goes on for more than `most` moves, and none comes to a stop before there is a report. -/
def ReportsWithin (c : Settings) (world : Endpoint → Encounter) (s : System) (most : Nat) : Prop :=
  ∀ as s', s.run c world as = some s' →
    as.length ≤ most ∧ (s'.report? = none → ∃ a s'', s'.step c world a = some s'')

/-- The shutdown was signalled, or can be, and from then on there is nothing that keeps the crawl from its
report. -/
def ComesToReport (c : Settings) (world : Endpoint → Encounter) (s : System) : Prop :=
  if s.shutdown then ∃ most, s.ReportsWithin c world most
  else ∃ s', s.step c world (.supervise .signal) = some s' ∧ ∃ most, s'.ReportsWithin c world most

theorem reportsWithin_of_shutdown (hs : Reachable c world seeds s) (hdown : s.shutdown = true) :
    ∃ most, s.ReportsWithin c world most := by
  let es := (s.frontier.waiting.values.map Peer.endpoint).toFinset
  have hes : ∀ a p, s.frontier.waiting.get? a = some p → p.endpoint ∈ es := by
    intro a p hp
    exact List.mem_toFinset.2 (List.mem_map.2 ⟨p, AddressMap.mem_values_iff.2 ⟨a, hp⟩, rfl⟩)
  refine ⟨s.rank c world es, fun as s' hrun => ⟨?_, fun hr => ?_⟩⟩
  · exact Nat.le_trans (Nat.le_add_right _ _) (length_le_rank hs hdown hes hrun)
  · have hdown' : s'.shutdown = true :=
      run_keeps (P := fun s => s.shutdown = true)
        (fun _ _ _ hdown hstep => shutdown_of_moved (moved_of_step hstep) hdown) hdown hrun
    have hs' := reachable_run hs hrun
    exact can_move hs' (ended_of_shutdown hs' hdown') hr

/-- Out of its loop, a crawl comes to its report. -/
theorem comesToReport_of_ended (hs : Reachable c world seeds s) (hended : s.supervisor.ending? ≠ none) :
    s.ComesToReport c world := by
  unfold ComesToReport
  split
  · next hdown => exact reportsWithin_of_shutdown hs hdown
  · next hup =>
    obtain ⟨why, hwhy⟩ := Option.ne_none_iff_exists'.1 hended
    have hstopping := stopping_of_ended hs (by simpa using hup) hwhy
    have hsignal : s.step c world (.supervise .signal)
        = some { s with shutdown := true, supervisor := .joining why } := by
      simp only [step, supervise, hstopping]
    exact ⟨_, hsignal, reportsWithin_of_shutdown (.step hs hsignal) rfl⟩

end Crawl.System

/-- What was asked for has a report. -/
def Dialled.Reported (crawl : Dialled (Except CrawlError CrawlOutcome)) : Prop :=
  ∃ s r, crawl.result = .ok (.crawled s) ∧ s.report? = some r

namespace Crawler

open Crawl (System)

variable {c : Crawler} {host : Host} {localId localTime : UInt64} {w : Crawl.World}
  {cancel : Option Duration} {horizon : Duration} {seeds : List String} {peers : List Peer}
  {listed : List Endpoint}

/-! ## Aborted or not -/

theorem crawlUntil_of_error {e : CrawlError} (h : c.Prepared host seeds (.error e)) :
    c.crawlUntil host w cancel horizon seeds = ⟨(c.prepare host seeds).dials, .error e⟩ := by
  simp only [crawlUntil, result_prepare_eq_iff.2 h]

theorem crawlUntil_of_ready (h : c.Prepared host seeds (.ok peers)) :
    c.crawlUntil host w cancel horizon seeds =
      ⟨(c.prepare host seeds).dials ++ (c.outcome host w cancel horizon peers).attempts.map .peer,
        .ok (c.outcome host w cancel horizon peers)⟩ := by
  simp only [crawlUntil, result_prepare_eq_iff.2 h]

theorem result_crawlUntil_eq_error_iff {e : CrawlError} :
    (c.crawlUntil host w cancel horizon seeds).result = .error e ↔ c.Prepared host seeds (.error e) := by
  rw [crawlUntil, ← result_prepare_eq_iff]
  cases (c.prepare host seeds).result <;> simp

/-- Once a crawl is prepared, its proxy was dialled and nothing else. -/
theorem dials_of_ready (h : c.Prepared host seeds (.ok peers)) :
    (c.prepare host seeds).dials = c.proxy.toList.map .proxy := by
  obtain ⟨hseeds, hpeers, -⟩ := prepared_ok_iff.1 h
  rw [prepare, if_neg (by simpa using hseeds), resolveSeeds_eq_ok_iff.2 hpeers]
  cases c.proxy <;> rfl

/-- A time that a crawl sets is beyond the clock of its host, which counts less than `2⁶³` seconds: its
deadline, or, after half a minute, the first line about its progress. -/
def BeyondClock (c : Crawler) (host : Host) : Prop :=
  ∃ d : Duration, (c.deadline = some d ∨ d = .ofSeconds 30) ∧
    0x8000000000000000 * 1000000000 ≤ host.uptime.nanos + d.nanos

theorem beyondClock_iff : c.beyondClock host.uptime = true ↔ c.BeyondClock host := by
  rw [beyondClock, Bool.or_eq_true, Option.any_eq_true, BeyondClock]
  simp only [decide_eq_true_eq, or_and_right, exists_or, exists_eq_left]
  rfl

/-- A crawl that is prepared, and within the clock, connects to its proxy and to the peers that it visits. -/
theorem crawlUntil_of_clock (hready : c.Prepared host seeds (.ok peers))
    (hclock : ¬ c.BeyondClock host) :
    let s := c.crawlWith w cancel horizon peers
    c.crawlUntil host w cancel horizon seeds =
      ⟨c.proxy.toList.map .proxy ++ s.attempts.reverse.map .peer, .ok (.crawled s)⟩ := by
  rw [crawlUntil_of_ready hready, dials_of_ready hready, outcome,
    if_neg (mt beyondClock_iff.1 hclock)]
  rfl

/-! ## Reports -/

/-- No endpoint but the listed ones advertises peers to a visit from a host. -/
def Lists (c : Crawler) (host : Host) (localId localTime : UInt64) (listed : List Endpoint) : Prop :=
  ∀ e, e ∉ listed → Crawl.World.advertisedBy (c.encounter host localId localTime e) = 0

/-- There are only so many endpoints, so they can all be listed. -/
theorem exists_lists (c : Crawler) (host : Host) (localId localTime : UInt64) :
    ∃ listed, c.Lists host localId localTime listed := by
  let parts (e : Endpoint) := (e.ip.a.toFin, e.ip.b.toFin, e.ip.c.toFin, e.ip.d.toFin, e.port.toFin)
  have hfinite : Finite Endpoint := by
    refine Finite.of_injective parts ?_
    rintro ⟨⟨a, b, c, d⟩, port⟩ ⟨⟨a', b', c', d'⟩, port'⟩ h
    simp only [parts, Prod.mk.injEq, UInt8.toFin_inj, UInt16.toFin_inj] at h
    obtain ⟨rfl, rfl, rfl, rfl, rfl⟩ := h
    rfl
  obtain ⟨listed, -, hall⟩ := Finite.exists_univ_list Endpoint
  exact ⟨listed, fun e he => absurd (hall e) he⟩

theorem covered_world (hlists : c.Lists host localId localTime listed) (peers : List Peer) :
    ∃ es, (c.world host localId localTime listed).Covered peers es :=
  Crawl.World.exists_covered peers List.sum_eq_foldl.symm hlists

/-- A crawl within the clock, with a limit before the horizon, has a report. -/
theorem reported_of_limit (hready : c.Prepared host seeds (.ok peers))
    (hclock : ¬ c.BeyondClock host) (hlists : c.Lists host localId localTime listed)
    {d : Duration} (hd : c.deadline = some d ∨ cancel = some d) (hlate : d.nanos < horizon.nanos) :
    (c.crawlUntil host (c.world host localId localTime listed) cancel horizon seeds).Reported := by
  obtain ⟨es, hcovered⟩ := covered_world hlists peers
  obtain ⟨r, hr⟩ :=
    Crawl.report_of_limit (c := c.settings) (l := ⟨c.deadline, cancel⟩) hcovered hd hlate
  rw [crawlUntil_of_clock hready hclock]
  exact ⟨_, r, rfl, hr⟩

/-- A crawl within the clock that is to stop when it is quiescent has a report, if the horizon is far
enough: every visit comes to an end. -/
theorem reported_of_quiescence (hready : c.Prepared host seeds (.ok peers))
    (hclock : ¬ c.BeyondClock host) (hlists : c.Lists host localId localTime listed)
    (hstop : c.stopWhenQuiescent = true) : ∃ enough, ∀ cancel (horizon : Duration),
      enough ≤ horizon.nanos →
      (c.crawlUntil host (c.world host localId localTime listed) cancel horizon seeds).Reported := by
  obtain ⟨es, hcovered⟩ := covered_world hlists peers
  have hpeers : peers ≠ [] := by
    obtain ⟨hseeds, hresolved, -⟩ := prepared_ok_iff.1 hready
    rintro rfl
    exact hseeds (List.forall₂_nil_right_iff.1 hresolved)
  obtain ⟨enough, henough⟩ := Crawl.report_of_quiescence (c := c.settings) hcovered hstop hpeers
    fun e => ⟨_, _, rfl⟩
  refine ⟨enough, fun cancel horizon hfar => ?_⟩
  obtain ⟨r, hr⟩ := henough ⟨c.deadline, cancel⟩ horizon hfar
  rw [crawlUntil_of_clock hready hclock]
  exact ⟨_, r, rfl, hr⟩

/-- A crawler with one worker, the same with a deadline, and the same that dials through a proxy. -/
def alone : Crawler := (new .mainnet).withWorkers 1

def hurried : Crawler := { alone with deadline := some ⟨5⟩ }

def proxied : Crawler := { alone with proxy := some (.v4 ⟨⟨9, 9, 9, 9⟩, 9050⟩) }

/-- The moves of a crawl from one seed to its report. -/
def oneVisit : List Crawl.Action :=
  [.supervise .seed, .supervise .spawn, .work 0 .check, .work 0 (.take "1.1.1.1:80"),
    .work 0 .begin, .work 0 (.finish []), .work 0 .sendVisit, .supervise .takeVisit, .supervise .settle,
    .supervise .record, .supervise .judge, .supervise .signal, .work 0 .check, .supervise .join,
    .supervise .report]

end Crawler

end LevinNet
