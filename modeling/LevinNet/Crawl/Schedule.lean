import LevinNet.Crawl.System
import LevinNet.Duration

/-
One run of a crawl in virtual time. The clock stands still while any move can be made; when none can,
it moves on to the next instant at which something is due: the end of a visit, the deadline or the
cancellation. At one instant the supervisor moves first, then the deadline and the cancellation, then
the workers in order. A worker that finds nothing waiting stays where it is until there is something.
Every move is a step of the system, so this is one of its runs.
-/
namespace LevinNet.Crawl

/-- How every endpoint behaves. -/
structure World where
  encounter : Endpoint → Encounter
  /-- A number of peers that all directories together do not exceed. -/
  advertised : Nat

namespace World

/-- How many peers an encounter advertises. -/
def advertisedBy : Encounter → Nat
  | .ends (.directory d) _ => d.size
  | _ => 0

/-- A world in which some endpoints are listed, by their text, and all others behave alike. -/
def ofList (listed : AddressMap Encounter) (other : Encounter) : World where
  encounter e := (listed.get? e.text).getD other
  advertised := (listed.values.map advertisedBy).foldl (· + ·) 0

end World

/-- When a crawl is stopped from outside. -/
structure Limits where
  deadline : Option Duration := none
  cancel : Option Duration := none
  deriving DecidableEq, Repr

structure Schedule where
  system : System
  /-- The time since the start, in nanoseconds. -/
  clock : Nat
  /-- The instants at which the workers began their visits. -/
  begun : List (Nat × Nat)

namespace Schedule

/-- The supervisor's next move, if it has one to make by itself. -/
def supervisorMove (s : System) : Option Move :=
  match s.supervisor with
  | .seeding [] => some .spawn
  | .seeding _ => some .seed
  | .selecting =>
    if !s.found.isEmpty then some .takeFound
    else if !s.visits.isEmpty then some .takeVisit
    else none
  | .queueing _ _ => some .queue
  | .receiving _ => if s.found.isEmpty then some .settle else some .takeFound
  | .recording _ => some .record
  | .judging => some .judge
  | .stopping _ => some .signal
  | .joining _ => if s.workers.all (·.isOver) then some .join else none
  | .draining _ => if s.visits.isEmpty then some .report else some .drain
  | .finished _ _ => none

/-- The move that the limits make at an instant. -/
def limitMove (l : Limits) (clock : Nat) (s : System) : Option Move :=
  match s.supervisor with
  | .selecting =>
    if l.deadline.any (·.nanos ≤ clock) then some .deadline
    else if l.cancel.any (·.nanos ≤ clock) then some .cancel
    else none
  | _ => none

/-- The instant at which a worker's visit ends. -/
def dueOf (world : World) (begun : List (Nat × Nat)) (i : Nat) (p : Peer) : Option Nat :=
  let start := (begun.lookup i).getD 0
  match world.encounter p.endpoint with
  | .ends _ nanos => some (start + nanos)
  | .fatal => some start
  | .never => none

/-- The next move of a worker at an instant, if it has one to make. -/
def workerMove (world : World) (t : Schedule) (i : Nat) : Worker → Option Work
  | .checking => some .check
  | .taking =>
    match t.system.frontier.queued with
    | address :: _ => some (.take address)
    | [] => if t.system.shutdown then some .rest else none
  | .idle => if t.system.shutdown then some .leave else none
  | .holding _ => if t.system.shutdown then some .leave else some .begin
  | .visiting p =>
    if t.system.shutdown then some .leave
    else if (dueOf world t.begun i p).any (· ≤ t.clock) then
      match world.encounter p.endpoint with
      | .ends reply _ => some (.finish reply.advertised)
      | .fatal => some .die
      | .never => none
    else none
  | .finding _ _ => some .sendFound
  | .reporting _ => some .sendVisit
  | .exited | .died _ => none

/-- The first worker, from the `i`-th on, that has a move to make. -/
def firstWork (world : World) (t : Schedule) (i : Nat) : List Worker → Option (Nat × Work)
  | [] => none
  | w :: workers =>
    match workerMove world t i w with
    | some work => some (i, work)
    | none => firstWork world t (i + 1) workers

/-- The next move of the supervisor at the present instant, by itself or because of the limits. -/
def supervisorAction (l : Limits) (t : Schedule) : Option Action :=
  match supervisorMove t.system with
  | some m => some (.supervise m)
  | none => (limitMove l t.clock t.system).map .supervise

/-- The next move at the present instant. -/
def nextAction (world : World) (l : Limits) (t : Schedule) : Option Action :=
  match supervisorAction l t with
  | some a => some a
  | none => (firstWork world t 0 t.system.workers).map fun (i, w) => .work i w

/-- The next move at the present instant, in a crawl that is watched up to the instant `horizon`. At that
instant the supervisor still moves, but no worker does. -/
def nextWithin (world : World) (l : Limits) (horizon : Nat) (t : Schedule) : Option Action :=
  if t.clock < horizon then nextAction world l t else supervisorAction l t

/-- The instants after the present one at which something is due. -/
def dues (world : World) (l : Limits) (t : Schedule) : List Nat :=
  let visits := t.system.workers.zipIdx.filterMap fun (w, i) =>
    match w with
    | .visiting p => dueOf world t.begun i p
    | _ => none
  let limits := [l.deadline, l.cancel].filterMap (·.map (·.nanos))
  (visits ++ limits).filter (t.clock < ·)

/-- Make a move and note when a visit begins. -/
def act (c : Settings) (world : World) (t : Schedule) (a : Action) : Option Schedule :=
  (t.system.step c world.encounter a).map fun system =>
    let begun := match a with
      | .work i .begin => (i, t.clock) :: t.begun
      | _ => t.begun
    { t with system, begun }

/-- The next move and the schedule at its instant: the present one if any move can be made, or else the
next one at which something is due. -/
def upcoming (world : World) (l : Limits) (horizon : Nat) (t : Schedule) : Option (Schedule × Action) :=
  match nextWithin world l horizon t with
  | some a => some (t, a)
  | none =>
    match (dues world l t).min? with
    | some instant =>
      let later := { t with clock := instant }
      if instant ≤ horizon then (nextWithin world l horizon later).map (later, ·) else none
    | none => none

/-- Make the next move. -/
def next (c : Settings) (world : World) (l : Limits) (horizon : Nat) (t : Schedule) : Option Schedule :=
  (upcoming world l horizon t).bind fun (t, a) => act c world t a

/-- Go on for as long as there is a move to make, and for at most `fuel` moves. -/
def run (c : Settings) (world : World) (l : Limits) (horizon : Nat) : (fuel : Nat) → Schedule → System
  | 0, t => t.system
  | fuel + 1, t =>
    match next c world l horizon t with
    | some t' => run c world l horizon fuel t'
    | none => t.system

/-- Enough moves for a run: each seed and each advertised peer is queued, visited and recorded at most
once, and each worker starts and exits. -/
def enoughMoves (c : Settings) (world : World) (seeds : List Peer) : Nat :=
  32 * (seeds.length + world.advertised + c.workers + 4)

end Schedule

/-- The crawl from some seeds, as far as it comes by the instant `horizon`. One that then still has workers
is not over: they would have to see the shutdown. -/
def crawl (c : Settings) (world : World) (l : Limits) (horizon : Duration) (seeds : List Peer) : System :=
  Schedule.run c world l horizon.nanos (Schedule.enoughMoves c world seeds)
    ⟨.start seeds, 0, []⟩

end LevinNet.Crawl
