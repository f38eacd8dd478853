import LevinNet.Frame.Reader
import LevinNet.Proofs.Frame.Parsing
import LevinNet.Proofs.Wire.Arrival

/-
The frame reader reads what the parse of the byte stream says.

   1. `Holds` says which bytes of the stream a reader keeps: less than a header, or a header and less
      than the payload that it announces.
   2. Each feed agrees with `Frame.next?` on the bytes that the reader holds and those it is fed
      (`feed_more`, `feed_done`), so that a reader can be stopped at any byte (`resumable`).
   3. A wait for a frame therefore comes to what the bytes come to that arrive in it
      (`receive_of_some`, `receive_of_none`), and what is behind the frame is still to come
      (`arrive_receive_of_some`).
-/
namespace LevinNet

namespace FrameReader

open LevinNet.Frame (next?)

variable {ceiling : Nat}

/-- A reader with this ceiling keeps exactly these bytes of the frame under way. -/
def Holds (ceiling : Nat) (r : FrameReader) (got : Bytes) : Prop :=
  r.ceiling = ceiling ∧
    match r.progress with
    | .header bs _ => got = bs
    | .payload h bs _ => ∃ raw, raw.length = Header.size ∧ Header.parse raw = .ok h ∧
        h.length.toNat ≤ longest ceiling ∧ got = raw ++ bs

theorem holds_new (ceiling : Nat) : Holds ceiling (new ceiling) [] := ⟨rfl, rfl⟩

/-- A reader that keeps nothing is at the start of a frame. -/
theorem eq_new_of_holds {r : FrameReader} (hr : Holds ceiling r []) : r = new ceiling := by
  obtain ⟨ceiling', progress⟩ := r
  obtain ⟨rfl, hgot⟩ := hr
  cases progress with
  | header bs short =>
    cases hgot
    rfl
  | payload h bs short =>
    -- there is a header already, which is not empty
    obtain ⟨raw, hraw, -, -, hnil⟩ := hgot
    obtain ⟨rfl, -⟩ := List.append_eq_nil_iff.1 hnil.symm
    cases hraw

/-- What a reader holds is less than a frame. -/
theorem next?_of_holds {r : FrameReader} {got : Bytes} (hr : Holds ceiling r got) :
    next? ceiling got = none := by
  obtain ⟨ceiling', progress⟩ := r
  obtain ⟨rfl, hgot⟩ := hr
  cases progress with
  | header bs short =>
    cases hgot
    exact Frame.next?_of_short short
  | payload h bs short =>
    obtain ⟨raw, hraw, hp, hc, rfl⟩ := hgot
    obtain ⟨hc, hm⟩ := Nat.le_min.1 hc
    simp only [Frame.next?_behind hraw, hp, Nat.not_lt.2 hc, Nat.not_lt.2 hm, short, if_false, if_true]

/-- The bytes that a reader holds tell what it is waiting for. -/
theorem endError_of_holds {r : FrameReader} {got : Bytes} (hr : Holds ceiling r got) :
    r.endError = .io (if got.length < Header.size then "connection closed while reading header"
      else "connection closed while reading payload") := by
  obtain ⟨ceiling', progress⟩ := r
  obtain ⟨rfl, hgot⟩ := hr
  cases progress with
  | header bs short =>
    cases hgot
    simp only [endError, short, if_true]
  | payload h bs short =>
    obtain ⟨raw, hraw, -, -, rfl⟩ := hgot
    have hlong : ¬ (raw ++ bs).length < Header.size := by
      rw [List.length_append]
      omega
    simp only [endError, hlong, if_false]

/-! ## One feed -/

/-- A feed that is long enough fills up what was missing. -/
theorem length_fill {n : Nat} {got bs : Bytes} (hgot : got.length ≤ n)
    (hlong : ¬ bs.length < n - got.length) : (got ++ bs.take (n - got.length)).length = n := by
  rw [List.length_append, List.length_take]
  omega

/-- A payload of the announced length fits its header. -/
theorem assemble_of_length {h : Header} {payload : Bytes} (hlen : payload.length = h.length.toNat) :
    assemble h payload = .ok ⟨h, payload⟩ := by
  simp only [assemble, Message.ofParts?, hlen, if_true]

theorem feedPayload_more {h : Header} {raw got bs : Bytes} {r : FrameReader}
    (hraw : raw.length = Header.size) (hp : Header.parse raw = .ok h)
    (hc : h.length.toNat ≤ longest ceiling) (hf : feedPayload ceiling h got bs = .more r) :
    Holds ceiling r (raw ++ got ++ bs) := by
  unfold feedPayload at hf
  simp only at hf
  split at hf
  · cases hf
    exact ⟨rfl, raw, hraw, hp, hc, List.append_assoc ..⟩
  · cases hf

theorem feedPayload_done {h : Header} {raw got bs rest : Bytes} {x : Except FrameError Message}
    {r : FrameReader} (hraw : raw.length = Header.size) (hp : Header.parse raw = .ok h)
    (hc : h.length.toNat ≤ longest ceiling) (hgot : got.length ≤ h.length.toNat)
    (hf : feedPayload ceiling h got bs = .done x r rest) :
    next? ceiling (raw ++ got ++ bs) = some (x, rest) ∧ r = new ceiling := by
  unfold feedPayload at hf
  simp only at hf
  split at hf
  · cases hf
  · next hlong =>
    have hlen := length_fill hgot hlong
    have hsplit : raw ++ got ++ bs = raw ++ ((got ++ bs.take (h.length.toNat - got.length))
        ++ bs.drop (h.length.toNat - got.length)) := by
      rw [List.append_assoc, List.append_assoc, List.take_append_drop]
    cases hf
    refine ⟨?_, rfl⟩
    rw [hsplit, Frame.next?_whole hraw hp hc hlen, assemble_of_length hlen]

theorem feed_more {r r' : FrameReader} {got bs : Bytes} (hr : Holds ceiling r got)
    (hf : r.feed bs = .more r') : Holds ceiling r' (got ++ bs) := by
  obtain ⟨ceiling', progress⟩ := r
  obtain ⟨rfl, hgot⟩ := hr
  cases progress with
  | payload h held short =>
    obtain ⟨raw, hraw, hp, hc, rfl⟩ := hgot
    exact feedPayload_more hraw hp hc hf
  | header held short =>
    cases hgot
    unfold feed at hf
    simp only at hf
    split at hf
    · cases hf
      exact ⟨rfl, rfl⟩
    · next hlong =>
      have hraw := length_fill (Nat.le_of_lt short) hlong
      split at hf
      · cases hf
      · next h hp =>
        repeat' split at hf
        · cases hf
        · cases hf
        · next hc hm =>
          -- the bytes behind the header go to a payload that has none yet
          have hlongest := Nat.le_min.2 ⟨Nat.not_lt.1 hc, Nat.not_lt.1 hm⟩
          have hheld := feedPayload_more hraw hp hlongest hf
          rwa [List.append_nil, List.append_assoc, List.take_append_drop] at hheld

theorem feed_done {r r' : FrameReader} {got bs rest : Bytes} {x : Except FrameError Message}
    (hr : Holds ceiling r got) (hf : r.feed bs = .done x r' rest) :
    next? ceiling (got ++ bs) = some (x, rest) ∧ r' = new ceiling := by
  obtain ⟨ceiling', progress⟩ := r
  obtain ⟨rfl, hgot⟩ := hr
  cases progress with
  | payload h held short =>
    obtain ⟨raw, hraw, hp, hc, rfl⟩ := hgot
    exact feedPayload_done hraw hp hc (Nat.le_of_lt short) hf
  | header held short =>
    cases hgot
    unfold feed at hf
    simp only at hf
    split at hf
    · cases hf
    · next hlong =>
      -- the header is whole: 33 bytes are in front, the rest of the feed is behind them
      have hraw := length_fill (Nat.le_of_lt short) hlong
      have hsplit : got ++ bs = (got ++ bs.take (Header.size - got.length))
          ++ bs.drop (Header.size - got.length) := by
        rw [List.append_assoc, List.take_append_drop]
      split at hf
      · next e hp =>
        cases hf
        exact ⟨by rw [hsplit, Frame.next?_behind hraw, hp], rfl⟩
      · next h hp =>
        repeat' split at hf
        · next hc =>
          cases hf
          refine ⟨?_, rfl⟩
          rw [hsplit]
          simp only [Frame.next?_behind hraw, hp, hc, if_true]
        · next hc hm =>
          cases hf
          refine ⟨?_, rfl⟩
          rw [hsplit]
          simp only [Frame.next?_behind hraw, hp, hc, hm, if_true, if_false]
        · next hc hm =>
          have hlongest := Nat.le_min.2 ⟨Nat.not_lt.1 hc, Nat.not_lt.1 hm⟩
          have hdone := feedPayload_done hraw hp hlongest (Nat.zero_le _) hf
          rwa [List.append_nil, ← hsplit] at hdone

/-- A reader can be stopped at any byte. -/
theorem resumable (ceiling : Nat) :
    Source.Resumable feed (Holds ceiling) (next? ceiling) (new ceiling) where
  short := next?_of_holds
  more := feed_more
  done := feed_done
  extend := Frame.next?_append

/-! ## One wait -/

/-- What a wait comes to if less than a frame has arrived behind what was held. -/
def stopped (p : Source.Pull Bytes (Except FrameError Message)) :
    Option (Except FrameError Message) :=
  match p.outcome with
  | .got result => some result
  | .closed => some (.error (.io (if p.state.length < Header.size
      then "connection closed while reading header" else "connection closed while reading payload")))
  | .failed text => some (.error (.io text))
  | .late => none

section

variable {r : FrameReader} {source : Source} {clock limit : Nat} {got : Bytes}
  {a : Source.Pull Bytes (Except FrameError Message)}

/-- A wait in which a frame or a rejection arrives gives it, and leaves every byte behind it. -/
theorem receive_of_some {rest : Bytes} {x : Except FrameError Message} (hr : Holds ceiling r got)
    (ha : Source.arrive _ source.ending limit source.events clock got = a)
    (hnext : next? ceiling a.state = some (x, rest)) :
    let received := r.receive source clock limit
    received.outcome = some x ∧ received.reader = new ceiling ∧
      received.source.bytes = rest ++ Source.bytesOf a.events := by
  subst ha
  obtain ⟨houtcome, hstate, hevents⟩ := Source.pull_of_some (resumable ceiling) hr hnext
  simp only [receive, houtcome, hstate, Source.bytes]
  exact ⟨trivial, trivial, hevents⟩

/-- Behind a frame or a rejection, the rest of the wait is still to come. -/
theorem arrive_receive_of_some {rest : Bytes} {x : Except FrameError Message}
    (hr : Holds ceiling r got)
    (ha : Source.arrive _ source.ending limit source.events clock got = a)
    (hnext : next? ceiling a.state = some (x, rest)) :
    let received := r.receive source clock limit
    Source.arrive _ received.source.ending limit received.source.events received.clock []
      = { a with state := rest } := by
  subst ha
  exact Source.arrive_pull_of_some (resumable ceiling) hr hnext

/-- A wait in which less than a frame arrives ends as the source does, and loses nothing. -/
theorem receive_of_none (hr : Holds ceiling r got)
    (ha : Source.arrive _ source.ending limit source.events clock got = a)
    (hnext : next? ceiling a.state = none) :
    let received := r.receive source clock limit
    received.outcome = stopped a ∧ Holds ceiling received.reader a.state ∧
      received.source = ⟨a.events, source.ending⟩ := by
  subst ha
  obtain ⟨houtcome, hholds, hevents, -⟩ := Source.pull_of_none (resumable ceiling) hr hnext
  refine ⟨?_, hholds, congrArg (Source.mk · source.ending) hevents⟩
  have hend := endError_of_holds hholds
  cases hout : (Source.arrive (Except FrameError Message) source.ending limit source.events clock
    got).outcome <;> simp only [receive, houtcome.trans hout, hend, stopped, hout]

end

end FrameReader

end LevinNet
