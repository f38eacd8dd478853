import LevinNet.Bytes

/-
A source of bytes with its own timing, and a consumer that is fed from it. A source is a list of
events: bytes that arrive together, a silence, or a failure of one read; after the last event it is
closed or silent for ever. Time is counted in nanoseconds and moves only while a read waits. A silence
counts from the first read that meets it, and a read that gives up leaves the source and the consumer
where they stand, so that a later read goes on from there.
-/
namespace LevinNet

/-- What a consumer makes of some bytes. -/
inductive Fed (σ α : Type) where
  /-- All bytes are taken and more are needed. -/
  | more (state : σ)
  /-- The consumer is done; `rest` was not taken. -/
  | done (value : α) (state : σ) (rest : Bytes)

namespace Source

inductive Event where
  | bytes (bs : Bytes)
  /-- A silence that no read has met yet. -/
  | silence (nanos : Nat)
  /-- A silence that a read has met, and the instant at which it ends. -/
  | silenceUntil (instant : Nat)
  /-- One read fails with this text. -/
  | failure (text : String)
  deriving DecidableEq, Repr

/-- What comes after the last event. -/
inductive Ending where
  | closed
  | silent
  deriving DecidableEq, Repr

end Source

structure Source where
  events : List Source.Event
  ending : Source.Ending
  deriving DecidableEq, Repr

namespace Source

/-- The bytes that events bring. -/
def bytesOf : List Event → Bytes
  | [] => []
  | .bytes bs :: events => bs ++ bytesOf events
  | _ :: events => bytesOf events

/-- All bytes that are still to come, in order. -/
def bytes (s : Source) : Bytes := bytesOf s.events

/-- What a wait on a source comes to. -/
inductive Outcome (α : Type) where
  | got (value : α)
  | closed
  | failed (text : String)
  /-- The limit came first. -/
  | late

/-- A wait on a source: its outcome, and where it leaves consumer, source and clock. -/
structure Pull (σ α : Type) where
  outcome : Outcome α
  state : σ
  events : List Event
  clock : Nat

variable {σ α : Type}

/-- Feed a consumer from a list of events until it is done, the events end, one read fails, or it
would have to wait past the instant `limit`. -/
def pull (feed : σ → Bytes → Fed σ α) (ending : Ending) (limit : Nat) :
    List Event → (clock : Nat) → σ → Pull σ α
  | [], clock, state =>
    match ending with
    | .closed => ⟨.closed, state, [], clock⟩
    | .silent => ⟨.late, state, [], max clock limit⟩
  | .bytes bs :: events, clock, state =>
    match feed state bs with
    | .more state => pull feed ending limit events clock state
    | .done value state rest => ⟨.got value, state, .bytes rest :: events, clock⟩
  | .silence nanos :: events, clock, state =>
    let instant := clock + nanos
    if instant ≤ limit then pull feed ending limit events instant state
    else ⟨.late, state, .silenceUntil instant :: events, max clock limit⟩
  | .silenceUntil instant :: events, clock, state =>
    if instant ≤ limit then pull feed ending limit events (max clock instant) state
    else ⟨.late, state, .silenceUntil instant :: events, max clock limit⟩
  | .failure text :: events, clock, state => ⟨.failed text, state, events, clock⟩

/-- A wait takes no byte that it does not feed. -/
theorem length_bytesOf_pull (feed : σ → Bytes → Fed σ α) (ending : Ending) (limit : Nat)
    (hfeed : ∀ s bs a s' rest, feed s bs = .done a s' rest → rest.length < bs.length)
    (events : List Event) (clock : Nat) (state : σ) {value : α}
    (h : (pull feed ending limit events clock state).outcome = .got value) :
    (bytesOf (pull feed ending limit events clock state).events).length
      < (bytesOf events).length := by
  induction events generalizing clock state with
  | nil => cases ending <;> simp [pull] at h
  | cons event events ih =>
    cases event with
    | bytes bs =>
      simp only [pull] at h ⊢
      split at h
      · next hf =>
        have := ih _ _ h
        simp only [bytesOf, List.length_append]
        omega
      · next hf =>
        have := hfeed _ _ _ _ _ hf
        simp only [bytesOf, List.length_append]
        omega
    | silence nanos =>
      simp only [pull] at h ⊢
      split at h
      · next hle => simpa [hle, bytesOf] using ih _ _ h
      · simp at h
    | silenceUntil instant =>
      simp only [pull] at h ⊢
      split at h
      · next hle => simpa [hle, bytesOf] using ih _ _ h
      · simp at h
    | failure text => simp [pull] at h

/-- A consumer that takes exactly as many bytes as it is short of. -/
def collect (got : Bytes) (n : Nat) (bs : Bytes) : Fed Bytes Bytes :=
  if bs.length < n - got.length then .more (got ++ bs)
  else .done (got ++ bs.take (n - got.length)) [] (bs.drop (n - got.length))

/-- Wait for exactly `n` bytes. -/
def exactly (n limit clock : Nat) (s : Source) : Pull Bytes Bytes :=
  pull (fun got bs => collect got n bs) s.ending limit s.events clock []

end Source

end LevinNet
