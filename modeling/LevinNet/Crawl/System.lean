import LevinNet.Crawl.Frontier

/-
A crawl as a system of moves. A supervisor queues what is found and records visits; workers take
peers, visit them and report over two channels, first what a visit found and then the visit. Every
move of a worker or of the supervisor is one step, and any order of enabled moves is a run, so what
holds of all runs holds whatever the timing. How a peer behaves is given by its endpoint.
-/
namespace LevinNet.Crawl

/-- Where a worker stands. -/
inductive Worker where
  /-- About to look for the shutdown. -/
  | checking
  /-- About to take a peer. -/
  | taking
  /-- Waiting for peers to be queued. -/
  | idle
  /-- Has taken a peer and not begun to visit it. -/
  | holding (p : Peer)
  | visiting (p : Peer)
  /-- The visit is over, and what it found is to be sent. -/
  | finding (v : Visit) (found : List Peer)
  /-- The visit is to be sent. -/
  | reporting (v : Visit)
  | exited
  /-- Died in a visit. -/
  | died (p : Peer)

/-- A worker whose visit is over: what it found is sent first, if there is anything. -/
def Worker.finished (v : Visit) : List Peer → Worker
  | [] => .reporting v
  | found => .finding v found

/-- Whether a worker makes no more moves. -/
def Worker.isOver : Worker → Bool
  | .exited | .died _ => true
  | _ => false

/-- Why a crawl stopped. -/
inductive Ending where
  /-- Nothing waited and nothing was being visited. -/
  | quiescent
  | deadline
  | cancelled
  deriving DecidableEq, Repr

/-- Where the supervisor stands. -/
inductive Supervisor where
  /-- Queues the seeds before there are workers. -/
  | seeding (seeds : List Peer)
  /-- Waits for something to come. -/
  | selecting
  /-- Queues found peers; a visit may be in hand. -/
  | queueing (peers : List Peer) (visit : Option Visit)
  /-- Has a visit in hand, and takes in what is found before it records it. -/
  | receiving (v : Visit)
  /-- About to record a visit. -/
  | recording (v : Visit)
  /-- Has recorded a visit, and judges whether the crawl is quiescent. -/
  | judging
  /-- Has left the loop. -/
  | stopping (why : Ending)
  /-- Has signalled the shutdown, and waits for the workers. -/
  | joining (why : Ending)
  /-- Records the visits that are left in the channel. -/
  | draining (why : Ending)
  | finished (why : Ending) (report : Report)

structure Settings where
  /-- How many workers there are. -/
  workers : Nat
  stopWhenQuiescent : Bool
  deriving DecidableEq, Repr

structure System where
  frontier : Frontier
  workers : List Worker
  /-- What workers found, oldest first. -/
  found : List (List Peer)
  /-- The visits that workers made, oldest first. -/
  visits : List Visit
  shutdown : Bool
  supervisor : Supervisor
  /-- The addresses that visits were begun to, latest first. -/
  attempts : List String
  /-- The addresses of sessions that were closed after their handshake, latest first. -/
  closures : List String

/-- A move of the supervisor. -/
inductive Move where
  | seed
  | spawn
  | takeFound
  | takeVisit
  | queue
  /-- Find that nothing more was found. -/
  | settle
  | record
  | judge
  | deadline
  | cancel
  | signal
  | join
  | drain
  | report
  deriving DecidableEq, Repr

/-- A move of a worker. -/
inductive Work where
  | check
  /-- Take the peer that waits under an address. -/
  | take (address : String)
  /-- Find that nothing waits. -/
  | rest
  | wake
  | begin
  /-- End a visit, with what it found in some order. -/
  | finish (found : List Peer)
  | die
  | sendFound
  | sendVisit
  /-- See the shutdown while waiting or visiting. -/
  | leave
  deriving DecidableEq, Repr

inductive Action where
  | supervise (m : Move)
  | work (worker : Nat) (w : Work)
  deriving DecidableEq, Repr

namespace System

/-- A crawl before its first seed is queued. -/
def start (seeds : List Peer) : System where
  frontier := .empty
  workers := []
  found := []
  visits := []
  shutdown := false
  supervisor := .seeding seeds
  attempts := []
  closures := []

/-- Make a move of the supervisor, if it is one that can be made. -/
def supervise (c : Settings) (s : System) : Move → Option System
  | .seed =>
    match s.supervisor with
    | .seeding (p :: seeds) =>
      some { s with frontier := (s.frontier.enqueue p).2, supervisor := .seeding seeds }
    | _ => none
  | .spawn =>
    match s.supervisor with
    | .seeding [] =>
      some { s with workers := List.replicate (max c.workers 1) .checking, supervisor := .selecting }
    | _ => none
  | .takeFound =>
    match s.found, s.supervisor with
    | peers :: found, .selecting => some { s with found, supervisor := .queueing peers none }
    | peers :: found, .receiving v => some { s with found, supervisor := .queueing peers (some v) }
    | _, _ => none
  | .takeVisit =>
    match s.visits, s.supervisor with
    | v :: visits, .selecting => some { s with visits, supervisor := .receiving v }
    | _, _ => none
  | .queue =>
    match s.supervisor with
    | .queueing (p :: peers) visit =>
      some { s with frontier := (s.frontier.enqueue p).2, supervisor := .queueing peers visit }
    | .queueing [] none => some { s with supervisor := .selecting }
    | .queueing [] (some v) => some { s with supervisor := .receiving v }
    | _ => none
  | .settle =>
    match s.found, s.supervisor with
    | [], .receiving v => some { s with supervisor := .recording v }
    | _, _ => none
  | .record =>
    match s.supervisor with
    | .recording v => some { s with frontier := s.frontier.record v, supervisor := .judging }
    | _ => none
  | .judge =>
    match s.supervisor with
    | .judging =>
      if c.stopWhenQuiescent && s.frontier.isQuiescent then
        some { s with supervisor := .stopping .quiescent }
      else some { s with supervisor := .selecting }
    | _ => none
  | .deadline =>
    match s.supervisor with
    | .selecting => some { s with supervisor := .stopping .deadline }
    | _ => none
  | .cancel =>
    match s.supervisor with
    | .selecting => some { s with supervisor := .stopping .cancelled }
    | _ => none
  | .signal =>
    match s.supervisor with
    | .stopping why => some { s with shutdown := true, supervisor := .joining why }
    | _ => none
  | .join =>
    match s.supervisor with
    | .joining why =>
      if s.workers.all (·.isOver) then some { s with supervisor := .draining why } else none
    | _ => none
  | .drain =>
    match s.visits, s.supervisor with
    | v :: visits, .draining _ => some { s with visits, frontier := s.frontier.record v }
    | _, _ => none
  | .report =>
    match s.visits, s.supervisor with
    | [], .draining why =>
      let (visited, frontier) := s.frontier.drain
      some { s with frontier, supervisor := .finished why ⟨visited⟩ }
    | _, _ => none

/-- Put a worker in its place. -/
def setWorker (s : System) (i : Nat) (w : Worker) : System :=
  { s with workers := s.workers.set i w }

/-- Make a move of a worker that stands at `w`, if it is one that can be made. -/
def work (world : Endpoint → Encounter) (s : System) (i : Nat) (w : Worker) : Work → Option System
  | .check =>
    match w with
    | .checking => some (s.setWorker i (if s.shutdown then .exited else .taking))
    | _ => none
  | .take address =>
    match w with
    | .taking => (s.frontier.take address).map fun (p, frontier) =>
      { s with frontier }.setWorker i (.holding p)
    | _ => none
  | .rest =>
    match w with
    | .taking => if s.frontier.waiting.isEmpty then some (s.setWorker i .idle) else none
    | _ => none
  | .wake =>
    match w with
    | .idle => some (s.setWorker i .checking)
    | _ => none
  | .begin =>
    match w with
    | .holding p => some ({ s with attempts := p.address :: s.attempts }.setWorker i (.visiting p))
    | _ => none
  | .finish found =>
    match w with
    | .visiting p =>
      match world p.endpoint with
      | .ends reply _ =>
        let (v, advertised) := reply.outcome p
        if found.Perm advertised then
          let closures := if reply.wasReached then p.address :: s.closures else s.closures
          some ({ s with closures }.setWorker i (.finished v found))
        else none
      | _ => none
    | _ => none
  | .die =>
    match w with
    | .visiting p =>
      match world p.endpoint with
      | .fatal => some (s.setWorker i (.died p))
      | _ => none
    | _ => none
  | .sendFound =>
    match w with
    | .finding v found => some ({ s with found := s.found ++ [found] }.setWorker i (.reporting v))
    | _ => none
  | .sendVisit =>
    match w with
    | .reporting v => some ({ s with visits := s.visits ++ [v] }.setWorker i .checking)
    | _ => none
  | .leave =>
    if s.shutdown then
      match w with
      | .idle | .holding _ | .visiting _ => some (s.setWorker i .exited)
      | _ => none
    else none

/-- Make a move, if it is one that can be made. -/
def step (c : Settings) (world : Endpoint → Encounter) (s : System) : Action → Option System
  | .supervise m => s.supervise c m
  | .work i w => s.workers[i]?.bind fun worker => s.work world i worker w

/-- The systems that some run leads to from the seeds. -/
inductive Reachable (c : Settings) (world : Endpoint → Encounter) (seeds : List Peer) :
    System → Prop where
  | start : Reachable c world seeds (start seeds)
  | step {s s' : System} {a : Action} :
    Reachable c world seeds s → s.step c world a = some s' → Reachable c world seeds s'

/-- The report, once the crawl is over. -/
def report? (s : System) : Option Report :=
  match s.supervisor with
  | .finished _ r => some r
  | _ => none

end System

end LevinNet.Crawl
