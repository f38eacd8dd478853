import LevinNet.Frame.Ends
import LevinNet.Proofs.Frame.Reading

/-
Any run of reads returns the parse of the byte stream.

   1. `ReadHalf.Follows` ties a reading end to the stream: the bytes that it has taken parse to the
      results returned so far, and what is left over is in the reader.
   2. Every use of the ends keeps this (`follows_use`), so every run does (`follows_run`): reads that are
      given up, fail or meet the end in the middle of a frame, silences, and a split of the ends.
   3. Reads that wait long enough return all that is still to come (`exists_waits`).
-/
namespace LevinNet

open LevinNet.Frame (next? parse)
open LevinNet.FrameReader (Holds stopped)

variable {ceiling : Nat}

/-- Whether the bytes made a result: it is a message or a framing error, or memory for the payload
cannot be allocated. -/
def isFramed : Except FrameError Message → Bool
  | .ok _ | .error .capacityOverflow => true
  | .error e => e.isFraming

/-- The results that the bytes made. -/
def framed (results : List (Except FrameError Message)) : List (Except FrameError Message) :=
  results.filter isFramed

theorem framed_append (xs ys : List (Except FrameError Message)) :
    framed (xs ++ ys) = framed xs ++ framed ys := List.filter_append ..

/-- What the parse finds counts as framed. -/
theorem isFramed_of_next? {bs rest : Bytes} {x : Except FrameError Message}
    (h : next? ceiling bs = some (x, rest)) : isFramed x = true := by
  cases x with
  | ok m => rfl
  | error e =>
    cases e with
    | io text => exact absurd h Frame.not_io_of_next?
    | header cause | payloadTooLarge length ceiling | capacityOverflow => rfl

/-- What the parse finds is framed by itself. -/
theorem framed_singleton {bs rest : Bytes} {x : Except FrameError Message}
    (h : next? ceiling bs = some (x, rest)) : framed [x] = [x] :=
  List.filter_cons_of_pos (isFramed_of_next? h)

/-! ## One read -/

namespace ReadHalf

/-- What arrives at the end in a wait, behind the bytes `got`. -/
def arrivals (r : ReadHalf) (wait : Duration) (got : Bytes) :
    Source.Pull Bytes (Except FrameError Message) :=
  Source.arrive _ r.source.ending (r.clock + wait.nanos) r.source.events r.clock got

variable {source : Source} {results : List (Except FrameError Message)} {r : ReadHalf}
  {wait : Duration} {taken left : Bytes}

theorem bytes_arrivals (r : ReadHalf) (wait : Duration) (got : Bytes) :
    got ++ r.source.bytes = (r.arrivals wait got).state
      ++ Source.bytesOf (r.arrivals wait got).events := by
  obtain ⟨came, hstate, hbytes⟩ := Source.arrive_bytes_eq _ r.source.ending
    (r.clock + wait.nanos) r.source.events r.clock got
  rw [Source.bytes, arrivals, hbytes, hstate, List.append_assoc]

/-- A read in whose wait a frame or a rejection arrives returns it, and takes no byte behind it. -/
theorem read_of_some {rest : Bytes} {x : Except FrameError Message}
    (h : Holds ceiling r.reader left)
    (hnext : next? ceiling (r.arrivals wait left).state = some (x, rest)) :
    (r.read wait).1 = some x ∧ (r.read wait).2.reader = .new ceiling ∧
      (r.read wait).2.source.bytes
        = rest ++ Source.bytesOf (r.arrivals wait left).events :=
  FrameReader.receive_of_some h rfl hnext

/-- Any other read returns what stopped it, and keeps all that arrived. -/
theorem read_of_none (h : Holds ceiling r.reader left)
    (hnext : next? ceiling (r.arrivals wait left).state = none) :
    (r.read wait).1 = stopped (r.arrivals wait left) ∧
      Holds ceiling (r.read wait).2.reader (r.arrivals wait left).state ∧
      (r.read wait).2.source = ⟨(r.arrivals wait left).events, r.source.ending⟩ :=
  FrameReader.receive_of_none h rfl hnext

/-- A read that is stopped returns nothing that counts as framed. -/
theorem framed_stopped (r : ReadHalf) (wait : Duration) (got : Bytes) :
    framed (stopped (r.arrivals wait got)).toList = [] := by
  unfold stopped
  cases h : (r.arrivals wait got).outcome with
  | got x => exact absurd h (Source.arrive_ne_got _ _ _ x)
  | closed => rfl
  | failed text => rfl
  | late => rfl

/-- The text of an error that is not of the frames: the end of the source, or a failure of it. -/
def IsSourceText (source : Source) (text : String) : Prop :=
  text = "connection closed while reading header" ∨
    text = "connection closed while reading payload" ∨ .failure text ∈ source.events

theorem isSourceText_of_stopped {got : Bytes} {text : String}
    (h : stopped (r.arrivals wait got) = some (.error (.io text))) :
    IsSourceText r.source text := by
  unfold stopped at h
  cases hout : (r.arrivals wait got).outcome with
  | got x => exact absurd hout (Source.arrive_ne_got _ _ _ x)
  | late => simp [hout] at h
  | failed other =>
    simp only [hout, Option.some.injEq, Except.error.injEq, FrameError.io.injEq] at h
    subst h
    exact .inr (.inr (Source.failure_of_pull (.inl hout)))
  | closed =>
    simp only [hout, Option.some.injEq, Except.error.injEq, FrameError.io.injEq] at h
    subst h
    by_cases hshort : (r.arrivals wait got).state.length < Header.size
    · exact .inl (by simp only [hshort, if_true])
    · exact .inr (.inl (by simp only [hshort, if_false]))

/-! ## Reads in step with the parse -/

/-- A reading end has taken bytes of a source that parse to the results returned so far, and holds
the bytes that are left over. -/
structure Follows (ceiling : Nat) (source : Source) (results : List (Except FrameError Message))
    (r : ReadHalf) (taken left : Bytes) : Prop where
  bytes_eq : source.bytes = taken ++ r.source.bytes
  parse_eq : parse ceiling taken = (framed results, left)
  holds : Holds ceiling r.reader left
  failures : ∀ text, .failure text ∈ r.source.events → .failure text ∈ source.events
  io : ∀ text, .error (.io text) ∈ results → IsSourceText source text

/-- At the start nothing is taken and nothing is returned. -/
theorem follows_start (ceiling : Nat) (source : Source) (clock : Nat) :
    Follows ceiling source [] ⟨.new ceiling, source, clock⟩ [] [] where
  bytes_eq := rfl
  parse_eq := Frame.parse_nil
  holds := FrameReader.holds_new ceiling
  failures := fun _ h => h
  io := fun _ h => absurd h List.not_mem_nil

/-- A read keeps the reading end in step with the parse. -/
theorem follows_read (h : Follows ceiling source results r taken left) (wait : Duration) :
    ∃ taken' left', Follows ceiling source (results ++ (r.read wait).1.toList) (r.read wait).2
      taken' left' := by
  -- the results so far are written in `own`; behind it stands what the reader holds
  obtain ⟨own, htaken, hown⟩ := Frame.parse_split ceiling taken
  rw [h.parse_eq] at htaken hown
  have hwhole : source.bytes = own ++ (r.arrivals wait left).state
      ++ Source.bytesOf (r.arrivals wait left).events := by
    calc source.bytes
      _ = taken ++ r.source.bytes := h.bytes_eq
      _ = own ++ (left ++ r.source.bytes) := by rw [htaken, List.append_assoc]
      _ = own ++ ((r.arrivals wait left).state
            ++ Source.bytesOf (r.arrivals wait left).events) := by rw [bytes_arrivals r wait left]
      _ = own ++ (r.arrivals wait left).state
            ++ Source.bytesOf (r.arrivals wait left).events := (List.append_assoc ..).symm
  have hfailures : ∀ text, .failure text ∈ (r.read wait).2.source.events →
      .failure text ∈ source.events :=
    fun text ht => h.failures text (Source.failure_of_pull (.inr ht))
  cases hnext : next? ceiling (r.arrivals wait left).state with
  | some found =>
    obtain ⟨x, rest⟩ := found
    obtain ⟨hresult, hreader, hbytes⟩ := read_of_some h.holds hnext
    obtain ⟨first, hfirst, -, hparse⟩ := Frame.next?_split hnext
    refine ⟨own ++ first, [], ?_, ?_, ?_, hfailures, ?_⟩
    · rw [hbytes, hwhole, hfirst]
      simp only [List.append_assoc]
    · have hx := Frame.parse_of_some (hparse [])
      rw [List.append_nil, Frame.parse_nil] at hx
      rw [Frame.parse_append, hown, List.nil_append, hx, hresult, Option.toList_some,
        framed_append, framed_singleton hnext]
    · rw [hreader]
      exact FrameReader.holds_new ceiling
    · intro text ht
      rw [hresult, Option.toList_some, List.mem_append, List.mem_singleton] at ht
      rcases ht with ht | rfl
      · exact h.io text ht
      · exact absurd hnext Frame.not_io_of_next?
  | none =>
    obtain ⟨hresult, hholds, hsource⟩ := read_of_none h.holds hnext
    refine ⟨own ++ (r.arrivals wait left).state, (r.arrivals wait left).state, ?_, ?_, hholds,
      hfailures, ?_⟩
    · rw [hsource]
      exact hwhole
    · rw [Frame.parse_append, hown, List.nil_append, Frame.parse_of_none hnext, List.append_nil,
        hresult, framed_append, framed_stopped, List.append_nil]
    · intro text ht
      rcases List.mem_append.1 ht with ht | ht
      · exact h.io text ht
      · have hstopped := hresult.symm.trans (Option.mem_toList.1 ht)
        exact (isSourceText_of_stopped hstopped).imp_right (Or.imp_right (h.failures text))

/-! ## Reads that wait long enough -/

/-- What a reading end that holds `left` has not returned: bytes, and events of its source. -/
def ahead (r : ReadHalf) (left : Bytes) : Nat :=
  (left ++ r.source.bytes).length + r.source.events.length

/-- Unless all that is to come is less than a frame, some read takes a result off the stream, or a
failure off the source. -/
theorem exists_wait (h : Holds ceiling r.reader left) :
    (parse ceiling (left ++ r.source.bytes)).1 = [] ∨
      ∃ wait left', Holds ceiling (r.read wait).2.reader left' ∧
        (r.read wait).2.ahead left' < r.ahead left ∧
        (parse ceiling (left ++ r.source.bytes)).1 = framed (r.read wait).1.toList
          ++ (parse ceiling (left' ++ (r.read wait).2.source.bytes)).1 := by
  obtain ⟨patience, hpatience⟩ := Source.exists_limit (Except FrameError Message)
    r.source.ending r.source.events r.clock left
  have hall := bytes_arrivals r ⟨patience⟩ left
  cases hnext : next? ceiling (r.arrivals ⟨patience⟩ left).state with
  | some found =>
    obtain ⟨x, rest⟩ := found
    obtain ⟨hresult, hreader, hbytes⟩ := read_of_some h hnext
    refine .inr ⟨⟨patience⟩, [], ?_, ?_, ?_⟩
    · rw [hreader]
      exact FrameReader.holds_new ceiling
    · have hevents : (r.read ⟨patience⟩).2.source.events.length ≤ r.source.events.length :=
        Source.length_pull_le ..
      have hlt := Frame.length_of_next? hnext
      rw [ahead, ahead, hall, hbytes, List.nil_append, List.length_append, List.length_append]
      omega
    · rw [hall, Frame.parse_of_some (Frame.next?_append _ hnext), hresult, Option.toList_some,
        framed_singleton hnext, hbytes]
      rfl
  | none =>
    obtain ⟨hresult, hholds, hsource⟩ := read_of_none h hnext
    have hbytes : (r.read ⟨patience⟩).2.source.bytes
        = Source.bytesOf (r.arrivals ⟨patience⟩ left).events := by
      rw [hsource, Source.bytes]
    rcases hpatience (r.clock + patience) (Nat.le_add_left ..) with ⟨text, -, hlt⟩ | hend
    · -- the read met a failure, which is gone now
      refine .inr ⟨⟨patience⟩, (r.arrivals ⟨patience⟩ left).state, hholds, ?_, ?_⟩
      · rw [ahead, ahead, hall, hbytes, hsource]
        exact Nat.add_lt_add_left hlt _
      · rw [hall, hbytes, hresult, framed_stopped, List.nil_append]
    · -- the read saw the source to its end
      left
      have hnone : Source.bytesOf (r.arrivals ⟨patience⟩ left).events = [] := by
        rw [arrivals, hend, Source.bytesOf]
      rw [hall, hnone, List.append_nil, Frame.parse_of_none hnext]

end ReadHalf

/-! ## Runs -/

namespace Ends

variable {source : Source} {results : List (Except FrameError Message)} {taken left : Bytes}

/-- A read of the ends is one of the reading end, whether they are joined or not. -/
theorem use_read (ends : Ends) (wait : Duration) :
    (ends.use (.read wait)).1 = (ends.reading.read wait).1 ∧
      (ends.use (.read wait)).2.reading = (ends.reading.read wait).2 := by
  cases ends <;> exact ⟨rfl, rfl⟩

/-- Every other use returns nothing, and leaves the reader and its source alone. -/
theorem use_other (ends : Ends) {u : Use} (hu : ∀ wait, u ≠ .read wait) :
    (ends.use u).1 = none ∧ (ends.use u).2.reading.reader = ends.reading.reader ∧
      (ends.use u).2.reading.source = ends.reading.source := by
  cases u with
  | read wait => exact absurd rfl (hu wait)
  | write m => cases ends <;> exact ⟨rfl, rfl, rfl⟩
  | shutdown => cases ends <;> exact ⟨rfl, rfl, rfl⟩
  | split => cases ends <;> exact ⟨rfl, rfl, rfl⟩
  | pass d => cases ends <;> exact ⟨rfl, rfl, rfl⟩

/-- Every use keeps the reading end in step with the parse. -/
theorem follows_use {ends : Ends}
    (h : ends.reading.Follows ceiling source results taken left) (u : Use) :
    ∃ taken' left', (ends.use u).2.reading.Follows ceiling source
      (results ++ (ends.use u).1.toList) taken' left' := by
  by_cases hu : ∃ wait, u = .read wait
  · obtain ⟨wait, rfl⟩ := hu
    obtain ⟨hresult, hreading⟩ := use_read ends wait
    rw [hresult, hreading]
    exact ReadHalf.follows_read h wait
  · obtain ⟨hresult, hreader, hsource⟩ := use_other ends fun wait he => hu ⟨wait, he⟩
    refine ⟨taken, left, ?_⟩
    rw [hresult, Option.toList_none, List.append_nil]
    exact {
      bytes_eq := by rw [hsource]; exact h.bytes_eq
      parse_eq := h.parse_eq
      holds := by rw [hreader]; exact h.holds
      failures := by rw [hsource]; exact h.failures
      io := h.io }

/-- Every run keeps the reading end in step with the parse. -/
theorem follows_run {ends : Ends}
    (h : ends.reading.Follows ceiling source results taken left) (uses : List Use) :
    ∃ taken' left', (ends.run uses).2.reading.Follows ceiling source
      (results ++ (ends.run uses).1) taken' left' := by
  induction uses generalizing ends results taken left with
  | nil => exact ⟨taken, left, by rwa [run, List.append_nil]⟩
  | cons u uses ih =>
    obtain ⟨taken', left', hused⟩ := follows_use h u
    rw [run, ← List.append_assoc]
    exact ih hused

/-- Reads that wait long enough return all that the bytes held and those to come make. -/
theorem exists_waits (ends : Ends) (h : Holds ceiling ends.reading.reader left) :
    ∃ waits : List Duration, framed (ends.run (waits.map .read)).1
      = (parse ceiling (left ++ ends.reading.source.bytes)).1 := by
  induction hn : ends.reading.ahead left using Nat.strongRecOn generalizing ends left with
  | ind n ih =>
    rcases ReadHalf.exists_wait h with hnone | ⟨wait, left', hholds, hlt, hparse⟩
    · exact ⟨[], hnone.symm⟩
    · obtain ⟨huse, hreading⟩ := use_read ends wait
      rw [← hreading] at hholds hlt hparse
      rw [← huse] at hparse
      obtain ⟨waits, hwaits⟩ := ih _ (hn ▸ hlt) (ends.use (.read wait)).2 hholds rfl
      refine ⟨wait :: waits, ?_⟩
      calc framed (ends.run ((wait :: waits).map .read)).1
        _ = framed ((ends.use (.read wait)).1.toList
              ++ ((ends.use (.read wait)).2.run (waits.map .read)).1) := by
            rw [List.map_cons, run]
        _ = framed (ends.use (.read wait)).1.toList
              ++ (parse ceiling (left' ++ (ends.use (.read wait)).2.reading.source.bytes)).1 := by
            rw [framed_append, hwaits]
        _ = (parse ceiling (left ++ ends.reading.source.bytes)).1 := hparse.symm

/-- A ping that announces one byte more than can be allocated. -/
def hugePing : Header where
  length := 0x8000000000000000
  expectsResponse := false
  command := Command.ping.id
  returnCode := Message.returnOk
  flags := .response
  version := 1

end Ends

end LevinNet
