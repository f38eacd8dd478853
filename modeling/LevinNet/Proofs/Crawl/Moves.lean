import LevinNet.Crawl.System

/-
What one step of a crawl can do.

   1. `Moved` lists the moves of the supervisor and of the workers, each with all that it needs to be
      made and all that it changes.
   2. Every step is one of them (`moved_of_step`), and what every move keeps holds of all that a run
      can reach (`Reachable.induct`).
-/
namespace LevinNet.Crawl

/-- The supervisor between two messages, with a visit in hand or without. -/
def Supervisor.resting : Option Visit → Supervisor
  | none => .selecting
  | some v => .receiving v

/-- A move of a worker that has taken no peer. -/
inductive Worker.Pace (s : System) : Worker → Worker → Prop where
  | check (h : s.shutdown = false) : Pace s .checking .taking
  | exit (h : s.shutdown = true) : Pace s .checking .exited
  | rest (h : s.frontier.waiting.isEmpty = true) : Pace s .taking .idle
  | wake : Pace s .idle .checking
  | leave (h : s.shutdown = true) : Pace s .idle .exited

namespace System

/-- One move, by what it needs and what it changes. -/
inductive Moved (c : Settings) (world : Endpoint → Encounter) (s : System) : System → Prop where
  /-- The supervisor queues a seed. -/
  | seed {p : Peer} {seeds : List Peer} (h : s.supervisor = .seeding (p :: seeds)) :
    Moved c world s { s with frontier := (s.frontier.enqueue p).2, supervisor := .seeding seeds }
  | spawn (h : s.supervisor = .seeding []) :
    Moved c world s
      { s with workers := List.replicate (max c.workers 1) .checking, supervisor := .selecting }
  | takeFound {peers : List Peer} {found : List (List Peer)} {visit : Option Visit}
    (h : s.supervisor = .resting visit) (hfound : s.found = peers :: found) :
    Moved c world s { s with found, supervisor := .queueing peers visit }
  | takeVisit {v : Visit} {visits : List Visit} (h : s.supervisor = .selecting)
    (hvisits : s.visits = v :: visits) :
    Moved c world s { s with visits, supervisor := .receiving v }
  /-- The supervisor queues a peer that was found. -/
  | queue {p : Peer} {peers : List Peer} {visit : Option Visit}
    (h : s.supervisor = .queueing (p :: peers) visit) :
    Moved c world s
      { s with frontier := (s.frontier.enqueue p).2, supervisor := .queueing peers visit }
  | queued {visit : Option Visit} (h : s.supervisor = .queueing [] visit) :
    Moved c world s { s with supervisor := .resting visit }
  | settle {v : Visit} (h : s.supervisor = .receiving v) (hfound : s.found = []) :
    Moved c world s { s with supervisor := .recording v }
  | record {v : Visit} (h : s.supervisor = .recording v) :
    Moved c world s { s with frontier := s.frontier.record v, supervisor := .judging }
  | goOn (h : s.supervisor = .judging)
    (hgo : (c.stopWhenQuiescent && s.frontier.isQuiescent) = false) :
    Moved c world s { s with supervisor := .selecting }
  | quiesce (h : s.supervisor = .judging) (hstop : c.stopWhenQuiescent = true)
    (hquiet : s.frontier.isQuiescent = true) :
    Moved c world s { s with supervisor := .stopping .quiescent }
  /-- The deadline, or a cancellation. -/
  | interrupt {why : Ending} (h : s.supervisor = .selecting) (hwhy : why ≠ .quiescent) :
    Moved c world s { s with supervisor := .stopping why }
  | signal {why : Ending} (h : s.supervisor = .stopping why) :
    Moved c world s { s with shutdown := true, supervisor := .joining why }
  | join {why : Ending} (h : s.supervisor = .joining why)
    (hover : s.workers.all (·.isOver) = true) :
    Moved c world s { s with supervisor := .draining why }
  | drain {v : Visit} {visits : List Visit} {why : Ending} (h : s.supervisor = .draining why)
    (hvisits : s.visits = v :: visits) :
    Moved c world s { s with visits, frontier := s.frontier.record v }
  | report {why : Ending} (h : s.supervisor = .draining why) (hvisits : s.visits = []) :
    Moved c world s { s with
      frontier := s.frontier.drain.2
      supervisor := .finished why ⟨s.frontier.visited⟩ }
  /-- A worker moves and has no peer before or after. -/
  | pace {i : Nat} {w w' : Worker} (hw : s.workers[i]? = some w) (h : w.Pace s w') :
    Moved c world s (s.setWorker i w')
  | take {i : Nat} {address : String} {p : Peer} {f : Frontier}
    (hw : s.workers[i]? = some .taking) (h : s.frontier.take address = some (p, f)) :
    Moved c world s ({ s with frontier := f }.setWorker i (.holding p))
  | begin {i : Nat} {p : Peer} (hw : s.workers[i]? = some (.holding p)) :
    Moved c world s ({ s with attempts := p.address :: s.attempts }.setWorker i (.visiting p))
  | finish {i : Nat} {p : Peer} {reply : Reply} {nanos : Nat} {v : Visit} {found : List Peer}
    (hw : s.workers[i]? = some (.visiting p)) (hworld : world p.endpoint = .ends reply nanos)
    (h : reply.Yields p v found) :
    Moved c world s
      ({ s with closures := if reply.wasReached then p.address :: s.closures else s.closures
        }.setWorker i (.finished v found))
  | die {i : Nat} {p : Peer} (hw : s.workers[i]? = some (.visiting p))
    (hworld : world p.endpoint = .fatal) : Moved c world s (s.setWorker i (.died p))
  | sendFound {i : Nat} {v : Visit} {found : List Peer}
    (hw : s.workers[i]? = some (.finding v found)) :
    Moved c world s ({ s with found := s.found ++ [found] }.setWorker i (.reporting v))
  | sendVisit {i : Nat} {v : Visit} (hw : s.workers[i]? = some (.reporting v)) :
    Moved c world s ({ s with visits := s.visits ++ [v] }.setWorker i .checking)
  /-- A worker sees the shutdown and gives its peer up. -/
  | quit {i : Nat} {w : Worker} {p : Peer} (hw : s.workers[i]? = some w)
    (h : w = .holding p ∨ w = .visiting p) (hdown : s.shutdown = true) :
    Moved c world s (s.setWorker i .exited)

variable {c : Settings} {world : Endpoint → Encounter} {seeds : List Peer} {s s' : System}

theorem moved_of_supervise {m : Move} (h : s.supervise c m = some s') : Moved c world s s' := by
  cases m <;> simp only [supervise] at h
  case seed =>
    split at h <;> cases h
    exact .seed ‹_›
  case spawn =>
    split at h <;> cases h
    exact .spawn ‹_›
  case takeFound =>
    split at h <;> cases h
    · have hrest : s.supervisor = .resting none := ‹_›
      exact .takeFound hrest ‹_›
    · next v hfound hsup =>
      have hrest : s.supervisor = .resting (some v) := hsup
      exact .takeFound hrest hfound
  case takeVisit =>
    split at h <;> cases h
    exact .takeVisit ‹_› ‹_›
  case queue =>
    split at h <;> cases h
    · exact .queue ‹_›
    · exact .queued ‹_›
    · exact .queued ‹_›
  case settle =>
    split at h <;> cases h
    exact .settle ‹_› ‹_›
  case record =>
    split at h <;> cases h
    exact .record ‹_›
  case judge =>
    split at h
    · split at h <;> cases h
      · next hjudge =>
        obtain ⟨hstop, hquiet⟩ := Bool.and_eq_true_iff.1 hjudge
        exact .quiesce ‹_› hstop hquiet
      · next hjudge => exact .goOn ‹_› (Bool.eq_false_iff.2 hjudge)
    · cases h
  case deadline =>
    split at h <;> cases h
    exact .interrupt ‹_› nofun
  case cancel =>
    split at h <;> cases h
    exact .interrupt ‹_› nofun
  case signal =>
    split at h <;> cases h
    exact .signal ‹_›
  case join =>
    split at h
    · split at h <;> cases h
      exact .join ‹_› ‹_›
    · cases h
  case drain =>
    split at h <;> cases h
    exact .drain ‹_› ‹_›
  case report =>
    split at h <;> cases h
    exact .report ‹_› ‹_›

theorem moved_of_work {i : Nat} {w : Worker} {k : Work} (hw : s.workers[i]? = some w)
    (h : s.work world i w k = some s') : Moved c world s s' := by
  cases k <;> simp only [work] at h
  case check =>
    split at h <;> cases h
    cases hdown : s.shutdown with
    | false => exact .pace hw (.check hdown)
    | true => exact .pace hw (.exit hdown)
  case take address =>
    split at h
    · obtain ⟨⟨p, f⟩, htake, hs⟩ := Option.map_eq_some_iff.1 h
      cases hs
      exact .take hw htake
    · cases h
  case rest =>
    split at h
    · split at h <;> cases h
      exact .pace hw (.rest ‹_›)
    · cases h
  case wake =>
    split at h <;> cases h
    exact .pace hw .wake
  case begin =>
    split at h <;> cases h
    exact .begin hw
  case finish =>
    split at h
    · next p =>
      split at h
      · next reply nanos hworld =>
        split at h <;> cases h
        next hperm => exact .finish hw hworld ⟨rfl, hperm⟩
      · cases h
    · cases h
  case die =>
    split at h
    · split at h <;> cases h
      exact .die hw ‹_›
    · cases h
  case sendFound =>
    split at h <;> cases h
    exact .sendFound hw
  case sendVisit =>
    split at h <;> cases h
    exact .sendVisit hw
  case leave =>
    split at h
    · next hdown =>
      split at h <;> cases h
      · exact .pace hw (.leave hdown)
      · exact .quit hw (.inl rfl) hdown
      · exact .quit hw (.inr rfl) hdown
    · cases h

/-- Every step is one of the moves. -/
theorem moved_of_step {a : Action} (h : s.step c world a = some s') : Moved c world s s' := by
  cases a with
  | supervise m => exact moved_of_supervise h
  | work i k =>
    obtain ⟨w, hw, hwork⟩ := Option.bind_eq_some_iff.1 h
    exact moved_of_work hw hwork

/-- What holds at the start and is kept by every move holds of all that a run can reach. -/
theorem Reachable.invariant {P : System → Prop} (hstart : P (System.start seeds))
    (hmoved : ∀ s s', P s → Moved c world s s' → P s') (h : Reachable c world seeds s) : P s := by
  induction h with
  | start => exact hstart
  | step _ hstep ih => exact hmoved _ _ ih (moved_of_step hstep)

end System

end LevinNet.Crawl
