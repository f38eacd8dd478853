import LevinNet.Frame.Error
import LevinNet.Frame.Message
import LevinNet.Wire.Source

/-
A frame reader that can be stopped at any byte. It is fed byte strings as they come; each feed
completes the frame under way, or takes all bytes and waits for more. It takes no byte beyond the frame
that it completes, and what it keeps between feeds is all it needs to go on. The bytes of a payload are
allocated when its header is complete; there is memory enough for all that can be addressed.
-/
namespace LevinNet

/-- How far the frame under way has come. -/
inductive FrameReader.Progress where
  /-- Fewer than 33 bytes of a header. -/
  | header (got : Bytes) (short : got.length < Header.size)
  /-- A whole header, and fewer bytes than it announces. -/
  | payload (header : Header) (got : Bytes) (short : got.length < header.length.toNat)
  deriving DecidableEq, Repr

structure FrameReader where
  /-- The longest payload that is taken. -/
  ceiling : Nat
  progress : FrameReader.Progress
  deriving DecidableEq, Repr

namespace FrameReader

/-- The ceiling where nothing else is set. -/
def defaultCeiling : Nat := 100000000

/-- The most bytes that can be allocated at once: lengths are signed words of 64 bits. -/
def maxAllocation : Nat := 0x7fffffffffffffff

/-- The longest payload that a reader with a ceiling takes. -/
def longest (ceiling : Nat) : Nat := min ceiling maxAllocation

/-- A reader at the start of a frame. -/
def new (ceiling : Nat) : FrameReader := ⟨ceiling, .header [] (by decide)⟩

/-- What a feed comes to: a frame or a rejected one, unless more bytes are needed. -/
abbrev Step := Fed FrameReader (Except FrameError Message)

/-- The outcome of a header and a payload that belong together. -/
def assemble (h : Header) (payload : Bytes) : Except FrameError Message :=
  match Message.ofParts? h payload with
  | some m => .ok m
  | none => .error (.io "payload length does not match header")

/-- Feed bytes to a reader that has the header `h` and the payload so far. -/
def feedPayload (ceiling : Nat) (h : Header) (got bs : Bytes) : Step :=
  let missing := h.length.toNat - got.length
  if short : bs.length < missing then
    .more ⟨ceiling, .payload h (got ++ bs) (by simp only [List.length_append]; omega)⟩
  else .done (assemble h (got ++ bs.take missing)) (new ceiling) (bs.drop missing)

/-- Feed bytes to a reader. A rejected header is taken, and nothing behind it. -/
def feed (r : FrameReader) (bs : Bytes) : Step :=
  match r.progress with
  | .payload h got _ => feedPayload r.ceiling h got bs
  | .header got _ =>
    let missing := Header.size - got.length
    if short : bs.length < missing then
      .more ⟨r.ceiling, .header (got ++ bs) (by simp only [List.length_append]; omega)⟩
    else
      let rest := bs.drop missing
      match Header.parse (got ++ bs.take missing) with
      | .error e => .done (.error (.header e)) (new r.ceiling) rest
      | .ok h =>
        if r.ceiling < h.length.toNat then
          .done (.error (.payloadTooLarge h.length.toNat r.ceiling)) (new r.ceiling) rest
        else if maxAllocation < h.length.toNat then
          .done (.error .capacityOverflow) (new r.ceiling) rest
        else feedPayload r.ceiling h [] rest

/-- The error of a source that ends, which depends on what the reader was waiting for. -/
def endError (r : FrameReader) : FrameError :=
  match r.progress with
  | .header _ _ => .io "connection closed while reading header"
  | .payload _ _ _ => .io "connection closed while reading payload"

theorem length_of_feedPayload_done {ceiling : Nat} {h : Header} {got bs : Bytes} {a} {r : FrameReader}
    {rest : Bytes} (hd : feedPayload ceiling h got bs = .done a r rest) :
    rest.length = bs.length - (h.length.toNat - got.length) := by
  unfold feedPayload at hd
  simp only at hd
  split at hd
  · cases hd
  · cases hd; simp

/-- A completed or rejected frame takes at least one byte. -/
theorem length_of_feed_done {r : FrameReader} {bs : Bytes} {a} {r' : FrameReader} {rest : Bytes}
    (h : r.feed bs = .done a r' rest) : rest.length < bs.length := by
  unfold feed at h
  split at h
  · next hd got short _ =>
    have := length_of_feedPayload_done h
    unfold feedPayload at h
    simp only at h
    split at h
    · cases h
    · omega
  · next got short _ =>
    simp only at h
    split at h
    · cases h
    · next hlen =>
      split at h
      · cases h
        simp only [List.length_drop]
        omega
      · repeat' split at h
        · cases h
          simp only [List.length_drop]
          omega
        · cases h
          simp only [List.length_drop]
          omega
        · have := length_of_feedPayload_done h
          simp only [List.length_drop] at this
          omega

/-- What a wait for a frame comes to: a message or an error, or nothing before the limit. -/
structure Received where
  outcome : Option (Except FrameError Message)
  reader : FrameReader
  source : Source
  clock : Nat

/-- Wait for a frame until the instant `limit`. -/
def receive (r : FrameReader) (source : Source) (clock limit : Nat) : Received :=
  let p := Source.pull feed source.ending limit source.events clock r
  let outcome := match p.outcome with
    | .got result => some result
    | .closed => some (.error p.state.endError)
    | .failed text => some (.error (.io text))
    | .late => none
  ⟨outcome, p.state, ⟨p.events, source.ending⟩, p.clock⟩

/-- A message takes at least one byte off the source. -/
theorem length_bytes_receive {r : FrameReader} {source : Source} {clock limit : Nat} {m : Message}
    (h : (r.receive source clock limit).outcome = some (.ok m)) :
    (r.receive source clock limit).source.bytes.length < source.bytes.length := by
  unfold receive at h ⊢
  simp only at h ⊢
  split at h
  · next hp =>
    exact Source.length_bytesOf_pull feed source.ending limit
      (fun _ _ _ _ _ hf => length_of_feed_done hf) source.events clock r hp
  all_goals simp at h

end FrameReader

end LevinNet
