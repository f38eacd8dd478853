/-
Spans of time, in nanoseconds, and their short text: the largest of the units `s`, `ms`, `µs` and
`ns` that the span fills, with the fraction that is left and no zeros at its end.
-/
namespace LevinNet

structure Duration where
  nanos : Nat
  deriving DecidableEq, Repr

namespace Duration

def ofMillis (n : Nat) : Duration := ⟨n * 1000000⟩

def ofSeconds (n : Nat) : Duration := ⟨n * 1000000000⟩

/-- `nanos` counted in units of `unit` nanoseconds, a power of ten with `places` zeros. -/
def inUnits (unit places nanos : Nat) : String :=
  let digits := Nat.toDigits 10 (nanos % unit)
  let padded := List.replicate (places - digits.length) '0' ++ digits
  match (padded.reverse.dropWhile (· == '0')).reverse with
  | [] => toString (nanos / unit)
  | fraction => toString (nanos / unit) ++ "." ++ String.ofList fraction

/-- The text of a span. -/
def text (d : Duration) : String :=
  if 1000000000 ≤ d.nanos then inUnits 1000000000 9 d.nanos ++ "s"
  else if 1000000 ≤ d.nanos then inUnits 1000000 6 d.nanos ++ "ms"
  else if 1000 ≤ d.nanos then inUnits 1000 3 d.nanos ++ "µs"
  else toString d.nanos ++ "ns"

end Duration

end LevinNet
