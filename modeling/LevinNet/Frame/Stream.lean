import LevinNet.Frame.Reader

/-
What a whole byte string means as a sequence of frames, said without a reader: 33 bytes are a header;
a bad signature, or a length above the ceiling or beyond what can be allocated, is an error that takes
those bytes only; else the announced number of bytes is the payload. What is left at the end is less
than a frame.
-/
namespace LevinNet

/-- The front of a byte string, read as a frame. -/
inductive Frame.Front where
  /-- The string is less than a frame. -/
  | incomplete
  | frame (m : Message) (rest : Bytes)
  | rejected (e : FrameError) (rest : Bytes)

namespace Frame

/-- Read the front of a byte string. -/
def front (ceiling : Nat) (bs : Bytes) : Front :=
  if bs.length < Header.size then .incomplete
  else
    let rest := bs.drop Header.size
    match Header.parse (bs.take Header.size) with
    | .error e => .rejected (.header e) rest
    | .ok h =>
      if ceiling < h.length.toNat then .rejected (.payloadTooLarge h.length.toNat ceiling) rest
      else if FrameReader.maxAllocation < h.length.toNat then .rejected .capacityOverflow rest
      else if rest.length < h.length.toNat then .incomplete
      else .frame ⟨h, rest.take h.length.toNat⟩ (rest.drop h.length.toNat)

theorem length_of_front_frame {ceiling : Nat} {bs : Bytes} {m : Message} {rest : Bytes}
    (h : front ceiling bs = .frame m rest) : rest.length < bs.length := by
  unfold front at h
  split at h
  · cases h
  · next hlen =>
    simp only at h
    split at h
    · cases h
    · repeat' split at h
      all_goals try cases h
      simp only [List.length_drop, Header.size] at *
      omega

theorem length_of_front_rejected {ceiling : Nat} {bs : Bytes} {e : FrameError} {rest : Bytes}
    (h : front ceiling bs = .rejected e rest) : rest.length < bs.length := by
  unfold front at h
  split at h
  · cases h
  · next hlen =>
    simp only at h
    split at h
    · cases h
      simp only [List.length_drop, Header.size] at *
      omega
    · repeat' split at h
      all_goals cases h
      all_goals
        simp only [List.length_drop, Header.size] at *
        omega

/-- All frames and rejections of a byte string, in order, and what is left over. -/
def parse (ceiling : Nat) (bs : Bytes) : List (Except FrameError Message) × Bytes :=
  match h : front ceiling bs with
  | .incomplete => ([], bs)
  | .frame m rest =>
    have := length_of_front_frame h
    let (outcomes, left) := parse ceiling rest
    (.ok m :: outcomes, left)
  | .rejected e rest =>
    have := length_of_front_rejected h
    let (outcomes, left) := parse ceiling rest
    (.error e :: outcomes, left)
termination_by bs.length

end Frame

end LevinNet
