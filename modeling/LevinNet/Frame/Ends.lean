import LevinNet.Frame.Link

/-
The ends of a connection: joined in a link, or split into a half that reads and a half that writes.
Splitting takes no byte, and the half that reads goes on where the link stood. A use is one operation
on the ends; a run of uses collects what its reads return.
-/
namespace LevinNet

/-- A frame reader and the source that it reads from. -/
structure ReadHalf where
  reader : FrameReader
  source : Source
  /-- The time, in nanoseconds. -/
  clock : Nat

/-- Read one frame within a wait; no result if none came in time. -/
def ReadHalf.read (r : ReadHalf) (wait : Duration) : Option (Except FrameError Message) × ReadHalf :=
  let p := r.reader.receive r.source r.clock (r.clock + wait.nanos)
  (p.outcome, ⟨p.reader, p.source, p.clock⟩)

/-- Split a link into its halves. -/
def Link.split (l : Link) : ReadHalf × Sink := (⟨l.reader, l.source, l.clock⟩, l.sink)

/-- The ends of a connection. -/
inductive Ends where
  | joined (l : Link)
  | halves (r : ReadHalf) (sink : Sink)

namespace Ends

/-- One operation on the ends. -/
inductive Use where
  /-- Read one frame, and give the read up at the end of the wait. -/
  | read (wait : Duration)
  | write (m : Message)
  | shutdown
  | split
  /-- Do nothing for a while. -/
  | pass (d : Duration)

/-- The end that reads. -/
def reading : Ends → ReadHalf
  | .joined l => l.split.1
  | .halves r _ => r

/-- Make one use of the ends: what it returns, if it is a read that was not given up, and the ends. -/
def use : Ends → Use → Option (Except FrameError Message) × Ends
  | .joined l, .read wait =>
    let (result, l) := l.read wait
    (result, .joined l)
  | .halves r sink, .read wait =>
    let (result, r) := r.read wait
    (result, .halves r sink)
  | .joined l, .write m => (none, .joined (l.put m).2)
  | .halves r sink, .write m => (none, .halves r (sink.write m.encode).2)
  | .joined l, .shutdown => (none, .joined l.shutdown.2)
  | .halves r sink, .shutdown => (none, .halves r sink.shutdown.2)
  | .joined l, .split => (none, .halves l.split.1 l.split.2)
  | .halves r sink, .split => (none, .halves r sink)
  | .joined l, .pass d => (none, .joined { l with clock := l.clock + d.nanos })
  | .halves r sink, .pass d => (none, .halves { r with clock := r.clock + d.nanos } sink)

/-- Make uses in order, and collect what the reads among them return. -/
def run : Ends → List Use → List (Except FrameError Message) × Ends
  | ends, [] => ([], ends)
  | ends, u :: uses =>
    let (result, ends) := ends.use u
    let (results, ends) := ends.run uses
    (result.toList ++ results, ends)

end Ends

end LevinNet
