import LevinNet.Bytes

/-
A sink of bytes that keeps what was written to it. It may have room for a limited number of bytes: a
write beyond them is cut off there and fails, as does every later one.
-/
namespace LevinNet

structure Sink where
  /-- Everything that was written. -/
  written : Bytes := []
  /-- How many more bytes are taken; no number is no limit. -/
  room : Option Nat := none
  /-- How often the sink was shut down. -/
  shutdowns : Nat := 0
  /-- Whether shutting down fails. -/
  failsShutdown : Bool := false
  deriving DecidableEq, Repr

namespace Sink

/-- Write bytes, or fail with a text. -/
def write (s : Sink) (bs : Bytes) : Except String Unit × Sink :=
  match s.room with
  | none => (.ok (), { s with written := s.written ++ bs })
  | some room =>
    let s' := { s with written := s.written ++ bs.take room, room := some (room - bs.length) }
    if bs.length ≤ room then (.ok (), s') else (.error "write limit reached", s')

/-- Shut the sink down, or fail with a text; both count. -/
def shutdown (s : Sink) : Except String Unit × Sink :=
  let s' := { s with shutdowns := s.shutdowns + 1 }
  if s.failsShutdown then (.error "shutdown failed", s') else (.ok (), s')

end Sink

end LevinNet
