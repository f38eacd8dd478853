import LevinNet.Proofs.Crawl.Runs

/-
Where the addresses of a crawl are, in every state of every run.

   1. Before the shutdown an address is in flight exactly once for each that has it: a worker, also one
      that died in its visit, a visit in the channel, or the visit in the supervisor's hand
      (`toNat_inFlight_eq`).
   2. A recorded visit stays as it is (`recorded_of_run`).
   3. With the ledgers and the keys, this is what holds of the places of all addresses
      (`places_of_run`). That those who died, and the supervisor's hand, have to be counted is shown by
      two short runs (`stray_of_died_of_hand`).
-/
namespace LevinNet.Crawl

namespace Worker

/-- The peer that a worker has: it visits it, is about to, or has not handed its visit on. -/
def peer? : Worker → Option Peer
  | .holding p | .visiting p => some p
  | .finding v _ | .reporting v => some v.peer
  | _ => none

/-- Whether a worker has the peer of an address. -/
def holds (a : String) (w : Worker) : Bool := w.peer?.any (·.address == a)

/-- Whether a worker died in a visit to an address. -/
def diedOf (a : String) : Worker → Bool
  | .died p => p.address == a
  | _ => false

theorem isOver_of_diedOf {a : String} {w : Worker} (h : w.diedOf a = true) : w.isOver = true := by
  cases w with
  | died p => rfl
  | _ => cases h

theorem isUnbegun_or_isBegun (a : String) (w : Worker) :
    (if w.isUnbegun a then 1 else 0) + (if w.isBegun a then 1 else 0)
      = (if w.holds a then 1 else 0) + (if w.diedOf a then 1 else 0) := by
  cases w <;> simp [isUnbegun, isBegun, holds, diedOf, peer?, Visit.address]

end Worker

namespace System

variable {c : Settings} {world : Endpoint → Encounter} {seeds : List Peer} {s s' : System}

/-! ## In flight -/

theorem countP_holds (a : String) (workers : List Worker) :
    workers.countP (Worker.isUnbegun a) + workers.countP (Worker.isBegun a)
      = workers.countP (Worker.holds a) + workers.countP (Worker.diedOf a) := by
  induction workers with
  | nil => rfl
  | cons w workers ih =>
    have hw := Worker.isUnbegun_or_isBegun a w
    simp only [List.countP_cons]
    omega

/-- Before the shutdown, an address is in flight exactly once for each that has it. -/
theorem toNat_inFlight_eq (h : Reachable c world seeds s) (hup : s.shutdown = false) (a : String) :
    (s.frontier.inFlight.contains a).toNat
      = s.workers.countP (Worker.holds a) + s.workers.countP (Worker.diedOf a)
        + s.visits.countP (·.address == a) + s.supervisor.hand.countP (·.address == a) := by
  have hbalanced := balanced_of_reachable h a
  have hle := hbalanced.held_le
  have hge := hbalanced.le_held (by rw [hup]; nofun)
  have hholds := countP_holds a s.workers
  simp only [ledger] at hle hge
  omega

/-! ## Recorded -/

/-- A recorded visit stays as it is, for the first visit of an address is the one that counts. -/
theorem recorded_keeps {a : String} {v : Visit} (h : Moved c world s s')
    (hv : s.recorded.get? a = some v) : s'.recorded.get? a = some v := by
  have hrecord : ∀ u, s.frontier.visited.get? a = some v →
      (s.frontier.record u).visited.get? a = some v := by
    intro u hget
    rw [Frontier.get?_visited_record, if_neg]
    · exact hget
    · rintro ⟨hnew, rfl⟩
      rw [AddressMap.contains_of_get? hget] at hnew
      cases hnew
  cases h with
  | record h =>
    rw [recorded_eq (by rw [h]; rfl)] at hv
    exact hrecord _ hv
  | drain h hvisits =>
    rw [recorded_eq (by rw [h]; rfl)] at hv
    rw [recorded_eq (by simp only [h]; rfl)]
    exact hrecord _ hv
  | seed h | queue h =>
    rw [recorded_eq (by rw [h]; rfl)] at hv
    rwa [recorded_of_loop rfl, Frontier.visited_enqueue]
  | @takeFound peers found visit h hfound =>
    cases visit <;> simpa [recorded, h, Supervisor.resting] using hv
  | @queued visit h => cases visit <;> simpa [recorded, h, Supervisor.resting] using hv
  | spawn h | takeVisit h | settle h | goOn h | quiesce h | interrupt h | signal h | join h
  | report h => simpa [recorded, h] using hv
  | take hw h =>
    obtain ⟨-, rfl⟩ := Frontier.take_eq_some_iff.1 h
    exact hv
  | pace | begin | finish | die | sendFound | sendVisit | quit => exact hv

theorem recorded_of_run {as : List Action} (h : s.run c world as = some s') {a : String} {v : Visit}
    (hv : s.recorded.get? a = some v) : s'.recorded.get? a = some v :=
  run_keeps (P := fun s => s.recorded.get? a = some v)
    (fun _ _ _ hs hstep => recorded_keeps (moved_of_step hstep) hs) hv h

/-- Once the report is made, nothing is left of the visits in the frontier. -/
theorem visited_of_finished (h : Reachable c world seeds s)
    (hfinished : s.supervisor.isFinished = true) : s.frontier.visited = .empty := by
  revert hfinished
  refine h.invariant (P := fun s => s.supervisor.isFinished = true → s.frontier.visited = .empty)
    nofun ?_
  intro s s' hs hm hfinished
  cases hm with
  | report h => rfl
  | drain h => rw [h] at hfinished; cases hfinished
  | @queued visit h => cases visit <;> cases hfinished
  | seed | spawn | takeFound | takeVisit | queue | settle | record | goOn | quiesce | interrupt
  | signal | join => cases hfinished
  | take hw h =>
    obtain ⟨-, rfl⟩ := Frontier.take_eq_some_iff.1 h
    exact hs hfinished
  | pace | begin | finish | die | sendFound | sendVisit | quit => exact hs hfinished

/-- What the frontier has of the visits is recorded. -/
theorem recorded_of_visited (h : Reachable c world seeds s) {a : String} {v : Visit}
    (hv : s.frontier.visited.get? a = some v) : s.recorded.get? a = some v := by
  cases hfinished : s.supervisor.isFinished with
  | false => rwa [recorded_eq hfinished]
  | true =>
    rw [visited_of_finished h hfinished] at hv
    cases hv

/-! ## All places -/

/-- **The places of a crawl.** In every state of every run, an address waits, is in flight or was
visited, and never two of these. Peers wait and visits are kept under their own addresses. A visit
that is kept stays as it is until it is in the report. Before the shutdown an address is in flight
exactly once for each that has it: a worker, a worker that died of it, a visit in the channel, and the
visit that the supervisor is about to record. And no address is handed to a worker twice. -/
theorem places_of_run {as : List Action} (h : (start seeds).run c world as = some s) :
    (∀ a, (s.frontier.waiting.contains a).toNat + (s.frontier.inFlight.contains a).toNat
      + (s.frontier.visited.contains a).toNat ≤ 1) ∧
    (∀ a p, s.frontier.waiting.get? a = some p → p.address = a) ∧
    (∀ a v, s.frontier.visited.get? a = some v → v.address = a) ∧
    (∀ bs s' a v, s.run c world bs = some s' → s.frontier.visited.get? a = some v →
      (s'.report? = none ∧ s'.frontier.visited.get? a = some v) ∨
      ∃ r, s'.report? = some r ∧ r.visits.get? a = some v) ∧
    (s.shutdown = false → ∀ a, (s.frontier.inFlight.contains a).toNat
      = s.workers.countP (Worker.holds a) + s.workers.countP (Worker.diedOf a)
        + s.visits.countP (·.address == a) + s.supervisor.hand.countP (·.address == a)) ∧
    (takes as).Nodup := by
  have hs := reachable_iff_run.2 ⟨as, h⟩
  have htidy := tidy_of_reachable hs
  refine ⟨fun a => ?_, htidy.waiting_key, fun a v hv => ?_, fun bs s' a v hrun hv => ?_,
    toNat_inFlight_eq hs, ?_⟩
  · have hsingle := (balanced_of_reachable hs a).single
    have hvisited : (s.frontier.visited.contains a).toNat ≤ (s.recorded.contains a).toNat := by
      cases hv : s.frontier.visited.contains a with
      | false => exact Nat.zero_le _
      | true =>
        obtain ⟨v, hv⟩ := AddressMap.exists_of_contains hv
        have hrecorded := AddressMap.contains_of_get? (recorded_of_visited hs hv)
        exact Nat.le_of_eq (congrArg Bool.toNat hrecorded.symm)
    simp only [ledger] at hsingle
    omega
  · exact htidy.recorded_key a v (recorded_of_visited hs hv)
  · have hv' := recorded_of_run hrun (recorded_of_visited hs hv)
    cases hs' : s'.supervisor with
    | finished why r =>
      rw [recorded, hs'] at hv'
      exact .inr ⟨r, by rw [report?, hs'], hv'⟩
    | _ =>
      rw [recorded, hs'] at hv'
      exact .inl ⟨by rw [report?, hs'], hv'⟩
  · exact (length_le_of_discoverable hs (count_takes_le h)).1

/-- Three seeds. -/
def threeSeeds : List Peer :=
  [{ ip := ⟨1, 1, 1, 1⟩, port := 80 }, { ip := ⟨2, 2, 2, 2⟩, port := 80 },
    { ip := ⟨3, 3, 3, 3⟩, port := 80 }]

/-- Moves that put three seeds into three places: one is visited, one in flight, one waits. -/
def threePlaces : List Action :=
  List.replicate 3 (.supervise .seed) ++ [.supervise .spawn,
    .work 0 .check, .work 0 (.take "1.1.1.1:80"), .work 0 .begin, .work 0 (.finish []),
    .work 0 .sendVisit, .supervise .takeVisit, .supervise .settle, .supervise .record,
    .supervise .judge, .work 1 .check, .work 1 (.take "2.2.2.2:80")]

/-- The moves are a run, and the places are as they must be. -/
theorem places_of_run_threePlaces : ∃ s,
    (start threeSeeds).run ⟨2, true⟩ (fun _ => .ends (.failed .timeout) 0) threePlaces = some s ∧
    s.frontier.visited.keys = ["1.1.1.1:80"] ∧ s.frontier.inFlight.keys = ["2.2.2.2:80"] ∧
    s.frontier.waiting.keys = ["3.3.3.3:80"] ∧
    (s.frontier.inFlight.contains "2.2.2.2:80").toNat
      = s.workers.countP (Worker.holds "2.2.2.2:80") + s.workers.countP (Worker.diedOf "2.2.2.2:80")
        + s.visits.countP (·.address == "2.2.2.2:80")
        + s.supervisor.hand.countP (·.address == "2.2.2.2:80") ∧
    (takes threePlaces).Nodup := by
  have hrun : ((start threeSeeds).run ⟨2, true⟩ (fun _ => .ends (.failed .timeout) 0)
      threePlaces).map (fun s => (s.frontier.visited.keys, s.frontier.inFlight.keys,
        s.frontier.waiting.keys, s.shutdown))
      = some (["1.1.1.1:80"], ["2.2.2.2:80"], ["3.3.3.3:80"], false) := by
    decide +kernel
  obtain ⟨s, hs, hplaces⟩ := Option.map_eq_some_iff.1 hrun
  simp only [Prod.mk.injEq] at hplaces
  obtain ⟨hvisited, hflight, hwaiting, hup⟩ := hplaces
  obtain ⟨-, -, -, -, hexact, htakes⟩ := places_of_run hs
  exact ⟨s, hs, hvisited, hflight, hwaiting, hexact hup _, htakes⟩

/-- Before the shutdown, an address is in flight while no worker has it and no visit of it is in the
channel. -/
def Stray (a : String) (s : System) : Prop :=
  s.shutdown = false ∧ s.frontier.inFlight.contains a = true ∧
    s.workers.countP (Worker.holds a) + s.visits.countP (·.address == a) = 0

instance (a : String) (s : System) : Decidable (s.Stray a) :=
  inferInstanceAs (Decidable (_ ∧ _ ∧ _))

/-- A worker takes the one seed and begins to visit it. -/
def beganVisit : List Action :=
  [.supervise .seed, .supervise .spawn, .work 0 .check, .work 0 (.take "1.1.1.1:80"), .work 0 .begin]

/-- An address is stray once a worker died in its visit, and while the supervisor has taken the visit
out of the channel and not recorded it. -/
theorem stray_of_died_of_hand :
    (∃ s, (start (threeSeeds.take 1)).run ⟨1, true⟩ (fun _ => .fatal)
      (beganVisit ++ [.work 0 .die]) = some s ∧ s.Stray "1.1.1.1:80") ∧
    ∃ s, (start (threeSeeds.take 1)).run ⟨1, true⟩ (fun _ => .ends (.failed .timeout) 0)
      (beganVisit ++ [.work 0 (.finish []), .work 0 .sendVisit, .supervise .takeVisit]) = some s ∧
      s.Stray "1.1.1.1:80" := by
  have hlook : ∀ o : Option System, o.any (fun s => decide (s.Stray "1.1.1.1:80")) = true →
      ∃ s, o = some s ∧ s.Stray "1.1.1.1:80" := by
    intro o ho
    obtain ⟨s, hs, hstray⟩ := (Option.any_eq_true _ _).1 ho
    exact ⟨s, hs, of_decide_eq_true hstray⟩
  exact ⟨hlook _ (by decide +kernel), hlook _ (by decide +kernel)⟩

end System

end LevinNet.Crawl
