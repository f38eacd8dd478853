import LevinNet.Duration
import LevinNet.Frame.Reader
import LevinNet.Wire.Sink

/-
A link: frames read from a source and frames written to a sink, on one clock. A read that is given up
loses nothing; a write that fails has written a part of its frame.
-/
namespace LevinNet

structure Link where
  reader : FrameReader
  source : Source
  sink : Sink
  /-- The time, in nanoseconds. -/
  clock : Nat

namespace Link

/-- A link at the start of a frame in both directions. -/
def start (ceiling : Nat) (source : Source) (sink : Sink) : Link :=
  ⟨.new ceiling, source, sink, 0⟩

/-- Read one frame within a wait; no result if none came in time. -/
def read (l : Link) (wait : Duration) : Option (Except FrameError Message) × Link :=
  let r := l.reader.receive l.source l.clock (l.clock + wait.nanos)
  (r.outcome, { l with reader := r.reader, source := r.source, clock := r.clock })

/-- Write one frame; a failure is the sink's own. -/
def put (l : Link) (m : Message) : Except String Unit × Link :=
  let (result, sink) := l.sink.write m.encode
  (result, { l with sink })

/-- Write one frame; a failure is a frame error. -/
def write (l : Link) (m : Message) : Except FrameError Unit × Link :=
  let (result, l) := l.put m
  (result.mapError .io, l)

/-- Shut the sink down. -/
def shutdown (l : Link) : Except String Unit × Link :=
  let (result, sink) := l.sink.shutdown
  (result, { l with sink })

end Link

end LevinNet
