import LevinNet.Proofs.Crawl.Flow

/-
One address in a crawl, counted. Whatever the workers and the supervisor do, the system is for each
single address a small automaton:

   1. `Ledger` counts where the address stands (waiting, in flight, recorded), who has it (a worker that
      has not begun, or a visit that has begun and is not recorded), and how often it was attempted.
   2. Every move of the system changes the ledger of every address by a step of `Ledger.Step`, or not at
      all (`ledger_moved`).
   3. `Ledger.Balanced` is kept by these steps and holds in every run (`balanced_of_reachable`): the
      address stands in one place at most, in flight means that exactly one has it, and it is attempted
      at most once.
-/
namespace LevinNet.Crawl

/-! ## The ledger of an address -/

/-- Whether a worker has taken an address and not begun to visit it. -/
def Worker.isUnbegun (a : String) : Worker → Bool
  | .holding p => p.address == a
  | _ => false

/-- Whether a worker has begun to visit an address and not reported it. -/
def Worker.isBegun (a : String) : Worker → Bool
  | .visiting p | .died p => p.address == a
  | .finding v _ | .reporting v => v.address == a
  | _ => false

/-- What is counted of one address. -/
@[ext] structure Ledger where
  waiting : Nat
  inFlight : Nat
  recorded : Nat
  /-- Workers that have taken the address and not begun to visit it. -/
  unbegun : Nat
  /-- Visits that were begun and are not recorded. -/
  begun : Nat
  attempts : Nat

namespace Ledger

/-- What a move does to the ledger of one address; `inLoop` says that the supervisor is in its loop,
and `down` that the shutdown is signalled. -/
inductive Step (inLoop down : Prop) (l : Ledger) : Ledger → Prop where
  | same : Step inLoop down l l
  | queue (hloop : inLoop) (h : l.waiting + l.inFlight + l.recorded = 0) :
    Step inLoop down l { l with waiting := 1 }
  | take (h : l.waiting = 1) :
    Step inLoop down l { l with waiting := 0, inFlight := 1, unbegun := l.unbegun + 1 }
  | begin {n : Nat} (h : l.unbegun = n + 1) :
    Step inLoop down l { l with unbegun := n, begun := l.begun + 1, attempts := l.attempts + 1 }
  | record {n : Nat} (h : l.begun = n + 1) :
    Step inLoop down l { l with waiting := 0, inFlight := 0, recorded := 1, begun := n }
  | dropUnbegun {n : Nat} (hdown : down) (h : l.unbegun = n + 1) :
    Step inLoop down l { l with unbegun := n }
  | dropBegun {n : Nat} (hdown : down) (h : l.begun = n + 1) :
    Step inLoop down l { l with begun := n }

/-- What holds of the ledger of every address at any time. -/
structure Balanced (down : Prop) (l : Ledger) : Prop where
  /-- The address stands in one place at most. -/
  single : l.waiting + l.inFlight + l.recorded ≤ 1
  /-- Who has the address has it in flight. -/
  held_le : l.unbegun + l.begun ≤ l.inFlight
  /-- Before the shutdown, an address in flight is not lost. -/
  le_held : ¬ down → l.inFlight ≤ l.unbegun + l.begun
  /-- An address is attempted at most once. -/
  attempts_le : l.attempts + l.unbegun ≤ l.inFlight + l.recorded
  /-- What was begun was attempted. -/
  le_attempts : l.recorded + l.begun ≤ l.attempts

variable {inLoop down : Prop} {l l' : Ledger}

theorem Balanced.step (hl : l.Balanced down) (h : Step inLoop down l l') : l'.Balanced down := by
  obtain ⟨hsingle, hheld, hlost, hle, hge⟩ := hl
  cases h with
  | same => exact ⟨hsingle, hheld, hlost, hle, hge⟩
  | queue hloop hnew => constructor <;> simp only <;> omega
  | take hw => constructor <;> simp only <;> omega
  | begin hu => constructor <;> simp only <;> omega
  | record hb => constructor <;> simp only <;> omega
  -- what is dropped stays in flight, which is against `le_held` only before the shutdown
  | dropUnbegun hdown hu =>
    exact ⟨hsingle, by simp only; omega, fun h => absurd hdown h, by simp only; omega, hge⟩
  | dropBegun hdown hb =>
    exact ⟨hsingle, by simp only; omega, fun h => absurd hdown h, hle, by simp only; omega⟩

theorem Step.of_eq (h : l' = l) : Step inLoop down l l' := by
  rw [h]
  exact .same

/-- A shutdown only weakens what must hold. -/
theorem Balanced.mono {down' : Prop} (hl : l.Balanced down) (h : down → down') : l.Balanced down' :=
  { hl with le_held := fun hdown => hl.le_held fun hd => hdown (h hd) }

/-- An address that stands somewhere is never forgotten. -/
theorem Step.known_of_known (h : Step inLoop down l l')
    (hknown : 0 < l.waiting + l.inFlight + l.recorded) :
    0 < l'.waiting + l'.inFlight + l'.recorded := by
  cases h with
  | same | begin | dropUnbegun | dropBegun => exact hknown
  | queue | take | record => simp only; omega

/-- An address that was handed out is never forgotten. -/
theorem Step.attempted_le (h : Step inLoop down l l') (hl : l.Balanced down) :
    l.inFlight + l.recorded ≤ l'.inFlight + l'.recorded := by
  have hsingle := hl.single
  cases h with
  | same | queue | begin | dropUnbegun | dropBegun => exact Nat.le_refl _
  | take | record => simp only; omega

/-- An address comes to be known by being queued. -/
theorem Step.known_or_queued (h : Step inLoop down l l') (hl : l.Balanced down)
    (hknown : 0 < l'.waiting + l'.inFlight + l'.recorded) :
    0 < l.waiting + l.inFlight + l.recorded ∨ l'.waiting = 1 := by
  have hheld := hl.held_le
  cases h with
  | queue => exact .inr rfl
  | same | begin | dropUnbegun | dropBegun => exact .inl hknown
  | take | record => exact .inl (by omega)

/-- Out of the loop, an address that neither waits nor is in flight stays so. -/
theorem Step.quiet (h : Step inLoop down l l') (hl : l.Balanced down) (hended : ¬ inLoop)
    (hquiet : l.waiting = 0 ∧ l.inFlight = 0) : l'.waiting = 0 ∧ l'.inFlight = 0 := by
  obtain ⟨hwaiting, hflight⟩ := hquiet
  have hheld := hl.held_le
  cases h with
  | queue hloop => exact absurd hloop hended
  | take hw => omega
  | record hb => exact ⟨rfl, rfl⟩
  | same | begin | dropUnbegun | dropBegun => exact ⟨hwaiting, hflight⟩

end Ledger

namespace System

/-- What the system has of one address. -/
def ledger (s : System) (a : String) : Ledger where
  waiting := (s.frontier.waiting.contains a).toNat
  inFlight := (s.frontier.inFlight.contains a).toNat
  recorded := (s.recorded.contains a).toNat
  unbegun := s.workers.countP (Worker.isUnbegun a)
  begun := s.workers.countP (Worker.isBegun a) + s.visits.countP (·.address == a)
    + s.supervisor.hand.countP (·.address == a)
  attempts := s.attempts.count a

/-- Whether an address was ever queued. -/
def Knows (s : System) (a : String) : Prop :=
  0 < (s.ledger a).waiting + (s.ledger a).inFlight + (s.ledger a).recorded

variable {c : Settings} {world : Endpoint → Encounter} {seeds : List Peer} {s s' : System}

/-! ## What a move does to the ledger of an address -/

/-- A worker that is replaced counts no more, and its replacement counts. -/
theorem countP_set (P : Worker → Bool) {workers : List Worker} {i : Nat} {w : Worker} (w' : Worker)
    (hw : workers[i]? = some w) :
    (workers.set i w').countP P + (if P w then 1 else 0)
      = workers.countP P + (if P w' then 1 else 0) := by
  induction workers generalizing i with
  | nil => simp at hw
  | cons x workers ih =>
    cases i with
    | zero =>
      simp only [List.getElem?_cons_zero, Option.some.injEq] at hw
      subst hw
      cases hx : P x <;> cases hw' : P w' <;> simp [hx, hw']
    | succ i =>
      have h := ih (by simpa using hw)
      simp only [List.set_cons_succ, List.countP_cons]
      omega

/-- A move that leaves alone what is counted changes no ledger. -/
theorem ledger_eq {a : String} (hwaiting : s'.frontier.waiting = s.frontier.waiting)
    (hflight : s'.frontier.inFlight = s.frontier.inFlight) (hrecorded : s'.recorded = s.recorded)
    (hworkers : s'.workers = s.workers) (hattempts : s'.attempts = s.attempts)
    (hcount : s'.visits.countP (·.address == a) + s'.supervisor.hand.countP (·.address == a)
      = s.visits.countP (·.address == a) + s.supervisor.hand.countP (·.address == a)) :
    s'.ledger a = s.ledger a := by
  apply Ledger.ext <;> simp only [ledger, hwaiting, hflight, hrecorded, hworkers, hattempts]
  omega

/-- Queueing a peer, with the supervisor in its loop. -/
theorem ledger_enqueue {p : Peer} {a : String} (hloop : s.supervisor.ending? = none)
    (hloop' : s'.supervisor.ending? = none) (hfrontier : s'.frontier = (s.frontier.enqueue p).2)
    (hworkers : s'.workers = s.workers) (hvisits : s'.visits = s.visits)
    (hhand : s'.supervisor.hand = s.supervisor.hand) (hattempts : s'.attempts = s.attempts) :
    Ledger.Step (s.supervisor.ending? = none) (s.shutdown = true) (s.ledger a) (s'.ledger a) := by
  have hr := recorded_of_loop hloop
  have hr' := recorded_of_loop hloop'
  -- only an address that stands nowhere is queued, so it waits once and stands nowhere else
  cases hknows : s.frontier.knows p.address with
  | true =>
    rw [Frontier.enqueue_of_knows hknows] at hfrontier
    have heq : s'.ledger a = s.ledger a := by
      simp only [ledger, hr, hr', hfrontier, hworkers, hvisits, hhand, hattempts]
    rw [heq]
    exact .same
  | false =>
    rw [Frontier.enqueue_of_new hknows] at hfrontier
    by_cases hp : p.address = a
    · have heq : s'.ledger a = { s.ledger a with waiting := 1 } := by
        simp [ledger, hr, hr', hfrontier, hworkers, hvisits, hhand, hattempts, hp]
      rw [heq]
      refine .queue hloop ?_
      simp only [Frontier.knows, hp, Bool.or_eq_false_iff] at hknows
      simp [ledger, hr, hknows]
    · have heq : s'.ledger a = s.ledger a := by
        simp [ledger, hr, hr', hfrontier, hworkers, hvisits, hhand, hattempts, hp]
      rw [heq]
      exact .same

/-- Recording a visit that was in the supervisor's hand or in the channel. -/
theorem ledger_record {v : Visit} {a : String} (hr : s.recorded = s.frontier.visited)
    (hr' : s'.recorded = s'.frontier.visited) (hfrontier : s'.frontier = s.frontier.record v)
    (hworkers : s'.workers = s.workers) (hattempts : s'.attempts = s.attempts)
    (hcount : s.visits.countP (·.address == a) + s.supervisor.hand.countP (·.address == a)
      = s'.visits.countP (·.address == a) + s'.supervisor.hand.countP (·.address == a)
        + (if v.address == a then 1 else 0)) :
    Ledger.Step (s.supervisor.ending? = none) (s.shutdown = true) (s.ledger a) (s'.ledger a) := by
  have hrecorded : s'.recorded.contains a = (decide (v.address = a) || s.recorded.contains a) := by
    rw [hr', hfrontier, hr, Frontier.contains_visited_record]
  -- a visit that is recorded takes its address off every other place
  by_cases hv : v.address = a
  · have hbegun : (s.ledger a).begun = (s'.ledger a).begun + 1 := by
      simp only [hv, BEq.rfl, if_true] at hcount
      simp only [ledger, hworkers]
      omega
    have heq : s'.ledger a = { s.ledger a with
        waiting := 0, inFlight := 0, recorded := 1, begun := (s'.ledger a).begun } := by
      simp [ledger, hrecorded, hfrontier, Frontier.record, hworkers, hattempts, hv]
    rw [heq]
    exact .record hbegun
  · have hbegun : (s'.ledger a).begun = (s.ledger a).begun := by
      have hne : (v.address == a) = false := by simpa using hv
      simp only [hne, Bool.false_eq_true, if_false] at hcount
      simp only [ledger, hworkers]
      omega
    have heq : s'.ledger a = s.ledger a := by
      apply Ledger.ext
      · simp [ledger, hfrontier, Frontier.record, hv]
      · simp [ledger, hfrontier, Frontier.record, hv]
      · simp [ledger, hrecorded, hv]
      · simp [ledger, hworkers]
      · exact hbegun
      · simp [ledger, hattempts]
    rw [heq]
    exact .same

/-- A worker that counts the same before and after changes no ledger. -/
theorem ledger_setWorker {i : Nat} {w w' : Worker} {a : String} (hw : s.workers[i]? = some w)
    (hu : w'.isUnbegun a = w.isUnbegun a) (hb : w'.isBegun a = w.isBegun a) :
    (s.setWorker i w').ledger a = s.ledger a := by
  have hunbegun := countP_set (Worker.isUnbegun a) w' hw
  have hbegun := countP_set (Worker.isBegun a) w' hw
  rw [hu] at hunbegun
  rw [hb] at hbegun
  apply Ledger.ext <;> simp only [ledger, setWorker] <;> first | rfl | omega

theorem isBegun_finished (a : String) (v : Visit) (found : List Peer) :
    (Worker.finished v found).isBegun a = (v.address == a) := by
  cases found <;> rfl

theorem isUnbegun_finished (a : String) (v : Visit) (found : List Peer) :
    (Worker.finished v found).isUnbegun a = false := by
  cases found <;> rfl

/-- A worker takes the peer that waits under an address. -/
theorem ledger_take {i : Nat} {address a : String} {p : Peer} (hs : s.Tidy)
    (hw : s.workers[i]? = some .taking) (hget : s.frontier.waiting.get? address = some p)
    {inLoop down : Prop} :
    Ledger.Step inLoop down (s.ledger a) (({ s with frontier := { s.frontier with
      waiting := s.frontier.waiting.erase address
      inFlight := s.frontier.inFlight.insert address () } }.setWorker i (.holding p)).ledger a) := by
  have hkey := hs.waiting_key _ _ hget
  have hunbegun := countP_set (Worker.isUnbegun a) (.holding p) hw
  have hbegun := countP_set (Worker.isBegun a) (.holding p) hw
  simp only [Worker.isUnbegun, Worker.isBegun, hkey, Bool.false_eq_true, if_false, Nat.add_zero]
    at hunbegun hbegun
  by_cases ha : address = a
  · have hwaiting : (s.ledger a).waiting = 1 := by
      rw [ledger, ← ha, AddressMap.contains_of_get? hget]
      rfl
    have heq : ({ s with frontier := { s.frontier with
          waiting := s.frontier.waiting.erase address
          inFlight := s.frontier.inFlight.insert address () } }.setWorker i (.holding p)).ledger a
        = { s.ledger a with
          waiting := 0, inFlight := 1, unbegun := (s.ledger a).unbegun + 1 } := by
      simp only [ha, BEq.rfl, if_true] at hunbegun
      apply Ledger.ext <;> simp only [ledger, setWorker, recorded, hunbegun, hbegun]
      · simp [ha]
      · simp [ha]
    rw [heq]
    exact .take hwaiting
  · have hne : (address == a) = false := by simpa using ha
    simp only [hne, Bool.false_eq_true, if_false, Nat.add_zero] at hunbegun
    apply Ledger.Step.of_eq
    apply Ledger.ext <;> simp only [ledger, setWorker, recorded, hunbegun, hbegun]
    · simp [ha]
    · simp [ha]

/-- A worker begins to visit the peer that it has taken. -/
theorem ledger_begin {i : Nat} {p : Peer} {a : String} (hw : s.workers[i]? = some (.holding p))
    {inLoop down : Prop} :
    Ledger.Step inLoop down (s.ledger a)
      (({ s with attempts := p.address :: s.attempts }.setWorker i (.visiting p)).ledger a) := by
  have hunbegun := countP_set (Worker.isUnbegun a) (.visiting p) hw
  have hbegun := countP_set (Worker.isBegun a) (.visiting p) hw
  simp only [Worker.isUnbegun, Worker.isBegun, Bool.false_eq_true, if_false, Nat.add_zero]
    at hunbegun hbegun
  by_cases ha : p.address = a
  · simp only [ha, BEq.rfl, if_true] at hunbegun hbegun
    have heq : ({ s with attempts := p.address :: s.attempts }.setWorker i (.visiting p)).ledger a
        = { s.ledger a with
          unbegun := (s.workers.set i (.visiting p)).countP (Worker.isUnbegun a)
          begun := (s.ledger a).begun + 1
          attempts := (s.ledger a).attempts + 1 } := by
      apply Ledger.ext <;> simp only [ledger, setWorker, recorded, hbegun, ha, List.count_cons_self]
      omega
    rw [heq]
    exact .begin hunbegun.symm
  · have hne : (p.address == a) = false := by simpa using ha
    simp only [hne, Bool.false_eq_true, if_false, Nat.add_zero] at hunbegun hbegun
    apply Ledger.Step.of_eq
    apply Ledger.ext <;> simp only [ledger, setWorker, recorded, hunbegun, hbegun,
      List.count_cons_of_ne ha]

/-- A worker hands its visit on to the channel, and has it no more. -/
theorem ledger_sendVisit {i : Nat} {v : Visit} {a : String}
    (hw : s.workers[i]? = some (.reporting v)) :
    ({ s with visits := s.visits ++ [v] }.setWorker i .checking).ledger a = s.ledger a := by
  have hunbegun := countP_set (Worker.isUnbegun a) .checking hw
  have hbegun := countP_set (Worker.isBegun a) .checking hw
  have hv : (Worker.reporting v).isBegun a = (v.address == a) := rfl
  rw [hv] at hbegun
  simp only [Worker.isUnbegun, Worker.isBegun, Bool.false_eq_true, if_false, Nat.add_zero]
    at hunbegun hbegun
  apply Ledger.ext <;> simp only [ledger, setWorker, recorded, hunbegun, List.countP_append,
    List.countP_singleton]
  omega

/-- A worker that sees the shutdown gives its peer up. -/
theorem ledger_quit {i : Nat} {w : Worker} {p : Peer} {a : String} (hw : s.workers[i]? = some w)
    (h : w = .holding p ∨ w = .visiting p) {inLoop down : Prop} (hdown : down) :
    Ledger.Step inLoop down (s.ledger a) ((s.setWorker i .exited).ledger a) := by
  have hunbegun := countP_set (Worker.isUnbegun a) .exited hw
  have hbegun := countP_set (Worker.isBegun a) .exited hw
  by_cases ha : p.address = a
  · rcases h with rfl | rfl
    · simp only [Worker.isUnbegun, Worker.isBegun, ha, BEq.rfl, Bool.false_eq_true, if_true,
        if_false, Nat.add_zero] at hunbegun hbegun
      have heq : (s.setWorker i .exited).ledger a = { s.ledger a with
          unbegun := (s.workers.set i .exited).countP (Worker.isUnbegun a) } := by
        apply Ledger.ext <;> simp only [ledger, setWorker, recorded, hbegun]
      rw [heq]
      exact .dropUnbegun hdown hunbegun.symm
    · simp only [Worker.isUnbegun, Worker.isBegun, ha, BEq.rfl, Bool.false_eq_true, if_true,
        if_false, Nat.add_zero] at hunbegun hbegun
      have heq : (s.setWorker i .exited).ledger a = { s.ledger a with
          begun := ((s.setWorker i .exited).ledger a).begun } := by
        apply Ledger.ext <;> simp only [ledger, setWorker, recorded, hunbegun]
      rw [heq]
      refine .dropBegun hdown ?_
      simp only [ledger, setWorker]
      omega
  · have hne : (p.address == a) = false := by simpa using ha
    rcases h with rfl | rfl
    · exact .of_eq (ledger_setWorker hw hne.symm rfl)
    · exact .of_eq (ledger_setWorker hw rfl hne.symm)

/-- Every move changes the ledger of every address by a step of its own. -/
theorem ledger_moved (hs : s.Tidy) (h : Moved c world s s') (a : String) :
    Ledger.Step (s.supervisor.ending? = none) (s.shutdown = true) (s.ledger a) (s'.ledger a) := by
  cases h with
  | seed h => exact ledger_enqueue (by rw [h]; rfl) rfl rfl rfl rfl (by rw [h]; rfl) rfl
  | @queue p peers visit h =>
    refine ledger_enqueue (by rw [h]; rfl) rfl rfl rfl rfl ?_ rfl
    rw [h]
    cases visit <;> rfl
  | record h =>
    refine ledger_record (recorded_eq (by rw [h]; rfl)) rfl rfl rfl rfl ?_
    simp only [h, Supervisor.hand, List.countP_singleton, List.countP_nil]
    omega
  | drain h hvisits =>
    have hr : s.recorded = s.frontier.visited := recorded_eq (by rw [h]; rfl)
    refine ledger_record hr (recorded_eq (by simp only [h]; rfl)) rfl rfl rfl ?_
    simp only [h, hvisits, Supervisor.hand, List.countP_cons, List.countP_nil]
    omega
  | spawn h =>
    -- there were no workers before, and the new ones have no peer
    apply Ledger.Step.of_eq
    apply Ledger.ext <;>
      simp [ledger, recorded, h, hs.unspawned _ h, Supervisor.hand, List.countP_replicate,
        Worker.isUnbegun, Worker.isBegun]
  | @takeFound peers found visit h hfound =>
    refine .of_eq (ledger_eq rfl rfl ?_ rfl rfl ?_) <;> cases visit <;>
      simp [recorded, h, Supervisor.resting, Supervisor.hand]
  | takeVisit h hvisits =>
    refine .of_eq (ledger_eq rfl rfl (by simp [recorded, h]) rfl rfl ?_)
    simp [h, hvisits, Supervisor.hand, List.countP_cons]
  | @queued visit h =>
    refine .of_eq (ledger_eq rfl rfl ?_ rfl rfl ?_) <;> cases visit <;>
      simp [recorded, h, Supervisor.resting, Supervisor.hand]
  | settle h | goOn h | quiesce h | interrupt h | signal h | join h | report h =>
    exact .of_eq (ledger_eq rfl rfl (by simp [recorded, h]) rfl rfl (by rw [h]; rfl))
  | pace hw h => exact .of_eq (ledger_setWorker hw (by cases h <;> rfl) (by cases h <;> rfl))
  | take hw h =>
    obtain ⟨hget, rfl⟩ := Frontier.take_eq_some_iff.1 h
    exact ledger_take hs hw hget
  | begin hw => exact ledger_begin hw
  | finish hw hworld h =>
    -- the visit has the address of the peer that was visited
    refine .of_eq (ledger_setWorker hw (isUnbegun_finished ..) ?_)
    rw [isBegun_finished, Visit.address, Peer.address, h.endpoint_eq]
    rfl
  | die hw hworld => exact .of_eq (ledger_setWorker hw rfl rfl)
  | sendFound hw => exact .of_eq (ledger_setWorker hw rfl rfl)
  | sendVisit hw => exact .of_eq (ledger_sendVisit hw)
  | quit hw h hdown => exact ledger_quit hw h hdown

/-! ## What holds in every run -/

/-- A shutdown is not taken back. -/
theorem shutdown_of_moved (h : Moved c world s s') (hdown : s.shutdown = true) :
    s'.shutdown = true := by
  cases h with
  | signal => rfl
  | _ => exact hdown

theorem balanced_start (seeds : List Peer) (a : String) {down : Prop} :
    ((System.start seeds).ledger a).Balanced down := by
  constructor <;> simp [ledger, start, recorded, Frontier.empty, Supervisor.hand]

/-- The ledger of every address is balanced in all that a run can reach. -/
theorem balanced_of_reachable (h : Reachable c world seeds s) (a : String) :
    (s.ledger a).Balanced (s.shutdown = true) := by
  have hall : s.Tidy ∧ ∀ a, (s.ledger a).Balanced (s.shutdown = true) := by
    apply h.invariant (P := fun s => s.Tidy ∧ ∀ a, (s.ledger a).Balanced (s.shutdown = true))
    · exact ⟨tidy_start seeds, fun a => balanced_start seeds a⟩
    · rintro s s' ⟨htidy, hbalanced⟩ hm
      refine ⟨tidy_moved htidy hm, fun a => ?_⟩
      exact ((hbalanced a).step (ledger_moved htidy hm a)).mono (shutdown_of_moved hm)
  exact hall.2 a

/-- An address that is known stays known. -/
theorem knows_of_moved (hs : s.Tidy) (h : Moved c world s s') {a : String} (ha : s.Knows a) :
    s'.Knows a :=
  (ledger_moved hs h a).known_of_known ha

theorem knows_iff {a : String} : s.Knows a ↔ s.frontier.waiting.contains a = true ∨
    s.frontier.inFlight.contains a = true ∨ s.recorded.contains a = true := by
  simp only [Knows, ledger]
  cases s.frontier.waiting.contains a <;> cases s.frontier.inFlight.contains a <;>
    cases s.recorded.contains a <;> simp

/-- Nothing waits and nothing is in flight. -/
def Quiet (s : System) : Prop :=
  ∀ a, (s.ledger a).waiting = 0 ∧ (s.ledger a).inFlight = 0

theorem quiet_of_isQuiescent (h : s.frontier.isQuiescent = true) : s.Quiet := by
  intro a
  obtain ⟨hwaiting, hflight⟩ := Frontier.isQuiescent_iff.1 h a
  simp only [ledger, hwaiting, hflight, Bool.toNat_false, and_self]

/-- Once the supervisor has left its loop, nothing comes back to wait or to be in flight. -/
theorem quiet_of_moved (hs : s.Tidy) (hb : ∀ a, (s.ledger a).Balanced (s.shutdown = true))
    (hended : s.supervisor.ending? ≠ none) (hq : s.Quiet) (h : Moved c world s s') : s'.Quiet :=
  fun a => (ledger_moved hs h a).quiet (hb a) hended (hq a)

/-- The supervisor leaves its loop for quiescence only if nothing waits and nothing is in flight. -/
theorem ending_of_moved (h : Moved c world s s')
    (hended : s'.supervisor.ending? = some .quiescent) :
    s.supervisor.ending? = some .quiescent ∨ s'.Quiet := by
  cases h with
  | quiesce h hstop hquiet => exact .inr (quiet_of_isQuiescent hquiet)
  | interrupt h hwhy => exact absurd (Option.some.inj hended) hwhy
  | signal h | join h | report h =>
    left
    rw [h]
    exact hended
  | queued h => next visit => cases visit <;> cases hended
  | seed | spawn | takeFound | takeVisit | queue | settle | record | goOn => cases hended
  | drain | pace | take | begin | finish | die | sendFound | sendVisit | quit => exact .inl hended

/-- A visit in the channel is in flight. -/
theorem inFlight_of_mem_visits {v : Visit} (hb : (s.ledger v.address).Balanced (s.shutdown = true))
    (hv : v ∈ s.visits) : 0 < (s.ledger v.address).inFlight := by
  have hpos : 0 < s.visits.countP (·.address == v.address) :=
    List.countP_pos_iff.2 ⟨v, hv, BEq.rfl⟩
  have hbegun : 0 < (s.ledger v.address).begun := by
    simp only [ledger]
    omega
  have hheld := hb.held_le
  omega

/-- A crawl that ended for quiescence has nothing waiting and nothing in flight. -/
theorem quiet_of_reachable (h : Reachable c world seeds s)
    (hended : s.supervisor.ending? = some .quiescent) : s.Quiet := by
  induction h with
  | start => cases hended
  | @step s s' a hs hstep ih =>
    have hm := moved_of_step hstep
    rcases ending_of_moved hm hended with hbefore | hquiet
    · exact quiet_of_moved (tidy_of_reachable hs) (balanced_of_reachable hs)
        (by rw [hbefore]; nofun) (ih hbefore) hm
    · exact hquiet

end System

end LevinNet.Crawl
