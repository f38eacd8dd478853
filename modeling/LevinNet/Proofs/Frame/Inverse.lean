import LevinNet.Proofs.Frame.Reads
import LevinNet.Proofs.Frame.Written
import LevinNet.Proofs.Storage.RoundTrip
import Mathlib.Data.List.Forall2

/-
Writing frames and parsing them undo each other.

   1. Every message that is made announces its payload (`announced_of_made`), and so does every message
      that is parsed (`announced_of_parse`).
   2. The header of 33 bytes is written as these bytes, but that the byte which says whether a response
      is expected becomes zero or one (`encode_of_parse`). So the message of a frame is written as the
      frame with this byte made `plain` (`encode_of_next?`), and a string of frames frame by frame
      (`frames_of_parse`).
   3. Reads that wait long enough return all results of a source, and the rest is left over
      (`read_to_end`). With the laws of written frames, built messages come through a connection as
      they are, and nothing is left over (`frames_inverse`).
-/
namespace LevinNet

namespace Message

/-- The messages that are made of what they are to say. -/
inductive Made : Message → Prop where
  | request (c : Command) (expectsResponse : Bool) : Made (.request c expectsResponse)
  | namedRequest (c : Command) (expectsResponse : Bool) : Made (.namedRequest c expectsResponse)
  | storageRequest {c : Command} {expectsResponse : Bool} {root : Storage.Section} {m : Message}
    (h : storageRequest c expectsResponse root = .ok m) : Made m
  | storageResponse {command : UInt32} {code : Int32} {root : Storage.Section} {m : Message}
    (h : storageResponse command code root = .ok m) : Made m
  | ofParts {header : Header} {payload : Bytes} {m : Message}
    (h : ofParts? header payload = some m) : Made m

/-- The messages that can be built: those of which the payload can be allocated. -/
structure Built (m : Message) : Prop where
  made : m.Made
  allocated : m.payload.length ≤ FrameReader.maxAllocation

/-- A message announces its payload, which is no longer than a length can be. -/
theorem announced_of_made {m : Message} (h : m.Made) (hlength : m.payload.length < UInt64.size) :
    m.header.length.toNat = m.payload.length := by
  cases h with
  | request c expectsResponse => rfl
  | namedRequest c expectsResponse => exact UInt64.toNat_ofNat_of_lt' hlength
  | storageRequest h =>
    obtain ⟨payload, -, h⟩ := Storage.bind_eq_ok.1 h
    cases h
    exact UInt64.toNat_ofNat_of_lt' hlength
  | storageResponse h =>
    obtain ⟨payload, -, h⟩ := Storage.bind_eq_ok.1 h
    cases h
    exact UInt64.toNat_ofNat_of_lt' hlength
  | ofParts h =>
    rw [ofParts?] at h
    split at h
    · next hannounced =>
      cases h
      exact hannounced
    · cases h

end Message

/-! ## One header -/

namespace Header

/-- The bytes of a header or a frame with the byte that says whether a response is expected made zero
or one. -/
def plain (raw : Bytes) : Bytes := raw.modify 16 fun b => if b = 0 then 0 else 1

/-- The bytes of a field are those of its number. -/
theorem ofNat_field {bs : Bytes} {offset width : Nat} (h : offset + width ≤ bs.length) :
    Bytes.ofNat width (field bs offset width) = (bs.drop offset).take width := by
  have hlength : ((bs.drop offset).take width).length = width := by
    rw [List.length_take, List.length_drop]
    omega
  have hbytes := Bytes.ofNat_toNat ((bs.drop offset).take width)
  rwa [hlength] at hbytes

theorem field_lt {bs : Bytes} {offset width : Nat} (h : offset + width ≤ bs.length) :
    field bs offset width < Bytes.bound width := by
  have hlt := Bytes.toNat_lt ((bs.drop offset).take width)
  rwa [List.length_take, List.length_drop, Nat.min_eq_left (by omega)] at hlt

/-- The bytes from one offset on are those of a field and those behind it. -/
theorem drop_eq_field (bs : Bytes) (offset width : Nat) :
    bs.drop offset = (bs.drop offset).take width ++ bs.drop (offset + width) := by
  rw [← List.drop_drop, List.take_append_drop]

/-- Behind sixteen bytes stands the byte that says whether a response is expected. -/
theorem exists_flag {raw : Bytes} (h : 16 < raw.length) : ∃ b, raw.drop 16 = b :: raw.drop 17 :=
  ⟨raw[16], List.drop_eq_getElem_cons h⟩

theorem plain_eq {raw : Bytes} {b : UInt8} (h : raw.drop 16 = b :: raw.drop 17) :
    plain raw = raw.take 16 ++ (if b = 0 then 0 else 1) :: raw.drop 17 := by
  rw [plain, List.modify_eq_take_drop, h]
  rfl

/-- A header is written as the bytes that it was parsed of, made plain. -/
theorem encode_of_parse {raw : Bytes} {h : Header} (hraw : raw.length = size)
    (hp : parse raw = .ok h) : h.encode = plain raw := by
  have hlong : raw.length = 33 := hraw
  obtain ⟨b, hflag⟩ : ∃ b, raw.drop 16 = b :: raw.drop 17 := exists_flag (by omega)
  have hexpects : field raw 16 1 = b.toNat := by
    rw [field, hflag]
    simp [Bytes.toNat]
  rw [parse] at hp
  split at hp
  · cases hp
  · next hsignature =>
    cases hp
    -- each number fits its bytes, so it is written as the bytes that it was read of
    have hword (offset : Nat) (hle : offset + 8 ≤ raw.length) :
        Bytes.ofNat 8 (UInt64.ofNat (field raw offset 8)).toNat = (raw.drop offset).take 8 := by
      rw [UInt64.toNat_ofNat_of_lt' (field_lt hle), ofNat_field hle]
    have hhalf (offset : Nat) (hle : offset + 4 ≤ raw.length) :
        Bytes.ofNat 4 (UInt32.ofNat (field raw offset 4)).toNat = (raw.drop offset).take 4 := by
      rw [UInt32.toNat_ofNat_of_lt' (field_lt hle), ofNat_field hle]
    have hbyte : (if b.toNat != 0 then 1 else 0 : UInt8) = if b = 0 then 0 else 1 := by
      by_cases hb : b = 0
      · simp [hb]
      · have hne : b.toNat ≠ 0 := fun h => hb (UInt8.toNat_inj.1 h)
        simp [hb, hne]
    have hsame : Bytes.ofNat 8 signature.toNat = (raw.drop 0).take 8 := by
      rw [← Classical.not_not.1 hsignature]
      exact hword 0 (by omega)
    have hfront : (raw.drop 0).take 8 ++ (raw.drop 8).take 8 = raw.take 16 := List.take_add.symm
    have hbehind : (raw.drop 17).take 4 ++ ((raw.drop 21).take 4 ++ ((raw.drop 25).take 4
        ++ (raw.drop 29).take 4)) = raw.drop 17 := by
      have hlast : (raw.drop 29).take 4 = raw.drop 29 :=
        List.take_of_length_le (by rw [List.length_drop]; omega)
      rw [hlast, ← drop_eq_field raw 25 4, ← drop_eq_field raw 21 4, ← drop_eq_field raw 17 4]
    rw [plain_eq hflag, ← hfront, ← hbehind]
    simp only [encode, hexpects, hbyte, hsame, UInt32.toUInt32_toInt32,
      hword 8 (by omega), hhalf 17 (by omega), hhalf 21 (by omega), hhalf 25 (by omega),
      hhalf 29 (by omega), List.append_assoc, List.cons_append, List.nil_append]

theorem plain_append {raw : Bytes} (h : raw.length = size) (bs : Bytes) :
    plain (raw ++ bs) = plain raw ++ bs := by
  have hlong : raw.length = 33 := h
  obtain ⟨b, hflag⟩ : ∃ b, raw.drop 16 = b :: raw.drop 17 := exists_flag (by omega)
  have hdrop (n : Nat) (hn : n ≤ 33) : (raw ++ bs).drop n = raw.drop n ++ bs :=
    List.drop_append_of_le_length (by omega)
  have htake : (raw ++ bs).take 16 = raw.take 16 := List.take_append_of_le_length (by omega)
  have hflag' : (raw ++ bs).drop 16 = b :: (raw ++ bs).drop 17 := by
    rw [hdrop 16 (by omega), hdrop 17 (by omega), hflag, List.cons_append]
  rw [plain_eq hflag, plain_eq hflag', htake, hdrop 17 (by omega), List.append_assoc,
    List.cons_append]

end Header

namespace Frame

variable {ceiling : Nat}

/-! ## Frames -/

/-- The bytes of one message are a frame of it. -/
structure Spells (ceiling : Nat) (raw : Bytes) (m : Message) : Prop where
  parsed : next? ceiling raw = some (.ok m, [])
  encode_eq : m.encode = Header.plain raw
  announced : m.header.length.toNat = m.payload.length

/-- The message in front of a string has a frame of its own. -/
theorem spells_of_next? {bs rest : Bytes} {m : Message} (h : next? ceiling bs = some (.ok m, rest)) :
    ∃ raw, bs = raw ++ rest ∧ Spells ceiling raw m := by
  obtain ⟨raw, hraw, ⟨e, -, hx, -⟩ | ⟨header, -, -, hx, -⟩ | ⟨header, -, -, -, hx, -⟩ |
    ⟨header, payload, hp, hc, hlen, hx, rfl⟩⟩ := next?_cases h
  · cases hx
  · cases hx
  · cases hx
  · cases hx
    refine ⟨raw ++ payload, (List.append_assoc ..).symm, ?_, ?_, hlen.symm⟩
    · have hwhole := next?_whole hraw hp hc hlen []
      rwa [List.append_nil] at hwhole
    · rw [Message.encode, Header.encode_of_parse hraw hp, Header.plain_append hraw]

/-- A string that parses to messages, with nothing left over, is one frame of each behind the other. -/
theorem frames_of_parse {ms : List Message} {bs : Bytes} (h : parse ceiling bs = (ms.map .ok, [])) :
    ∃ frames : List Bytes, bs = frames.flatten ∧ List.Forall₂ (Spells ceiling) frames ms := by
  induction ms generalizing bs with
  | nil =>
    have hnone := next?_of_parse_nil (congrArg Prod.fst h)
    rw [parse_of_none hnone] at h
    exact ⟨[], congrArg Prod.snd h, .nil⟩
  | cons m ms ih =>
    obtain ⟨rest, hnext⟩ := next?_of_parse_cons (congrArg Prod.fst h)
    obtain ⟨raw, rfl, hspells⟩ := spells_of_next? hnext
    rw [parse_of_some hnext] at h
    obtain ⟨hresults, hleft⟩ := Prod.mk.inj h
    obtain ⟨frames, rfl, hframes⟩ := ih (Prod.ext (List.cons.inj hresults).2 hleft)
    exact ⟨raw :: frames, rfl, .cons hspells hframes⟩

/-- Messages are written as their frames, made plain. -/
theorem encodeAll_of_spells {frames : List Bytes} {ms : List Message}
    (h : List.Forall₂ (Spells ceiling) frames ms) :
    Message.encodeAll ms = (frames.map Header.plain).flatten := by
  induction h with
  | nil => rfl
  | @cons raw m frames ms hspells _ ih =>
    rw [Message.encodeAll] at ih
    rw [Message.encodeAll, List.flatMap_cons, ih, hspells.encode_eq, List.map_cons, List.flatten_cons]

/-- A message that is parsed announces its payload. -/
theorem announced_of_parse {bs : Bytes} {m : Message} (h : .ok m ∈ (parse ceiling bs).1) :
    m.header.length.toNat = m.payload.length := by
  obtain ⟨bs, rest, hnext⟩ := next?_of_mem_parse h
  obtain ⟨raw, -, hspells⟩ := spells_of_next? hnext
  exact hspells.announced

/-- A built message that is short enough fits a reader. -/
theorem fits_of_built {ceiling : UInt64} {m : Message} (h : m.Built)
    (hshort : m.payload.length ≤ ceiling.toNat) : m.Fits ceiling.toNat where
  announced := (Message.announced_of_made h.made (Nat.lt_of_le_of_lt hshort ceiling.toNat_lt)).symm
  short := Nat.le_min.2 ⟨hshort, h.allocated⟩

end Frame

/-! ## Through a connection -/

namespace Ends

open LevinNet.Frame (parse)
open LevinNet.FrameReader (Holds)

/-- Reads that wait long enough return all that a source brings, and what is left over is kept. -/
theorem read_to_end (ceiling : Nat) (source : Source) (sink : Sink) :
    ∃ waits : List Duration,
      let run := (Ends.joined (.start ceiling source sink)).run (waits.map .read)
      framed run.1 = (parse ceiling source.bytes).1 ∧
      ∃ left, Holds ceiling run.2.reading.reader left ∧
        left ++ run.2.reading.source.bytes = (parse ceiling source.bytes).2 := by
  have hstart : (Ends.joined (.start ceiling source sink)).reading.Follows ceiling source [] [] [] :=
    ReadHalf.follows_start ceiling source 0
  obtain ⟨waits, hwaits⟩ := exists_waits _ hstart.holds
  obtain ⟨taken, left, h⟩ := follows_run hstart (waits.map .read)
  refine ⟨waits, hwaits, left, h.holds, ?_⟩
  change framed _ = (parse ceiling source.bytes).1 at hwaits
  rw [List.nil_append] at h
  generalize (Ends.joined (.start ceiling source sink)).run (waits.map .read) = run at h hwaits
  have hparse : parse ceiling source.bytes = (framed run.1
      ++ (parse ceiling (left ++ run.2.reading.source.bytes)).1,
        (parse ceiling (left ++ run.2.reading.source.bytes)).2) := by
    rw [h.bytes_eq, Frame.parse_append, h.parse_eq]
  -- all results were returned, so what is left over makes none
  rw [hparse] at hwaits ⊢
  have hnone := Frame.next?_of_parse_nil (List.self_eq_append_right.1 hwaits)
  rw [Frame.parse_of_none hnone]

/-- The end that writes. -/
def writing : Ends → Sink
  | .joined l => l.sink
  | .halves _ sink => sink

/-- A sink that takes all writes has the written messages one behind the other. -/
theorem written_run (ends : Ends) (hroom : ends.writing.room = none) (ms : List Message) :
    (ends.run (ms.map .write)).2.writing.written = ends.writing.written ++ Message.encodeAll ms := by
  induction ms generalizing ends with
  | nil => exact (List.append_nil _).symm
  | cons m ms ih =>
    have hwrite : (ends.use (.write m)).2.writing
        = { ends.writing with written := ends.writing.written ++ m.encode } := by
      cases ends with
      | joined l | halves r sink =>
        simp only [writing] at hroom
        simp only [use, Link.put, Sink.write, writing, hroom]
    rw [List.map_cons, run, ih _ (by rw [hwrite]; exact hroom), hwrite, List.append_assoc]
    rfl

/-- Built messages that are written to a sink are read from every source that brings its bytes. -/
theorem read_written {ceiling : UInt64} {ms : List Message}
    (h : ∀ m ∈ ms, m.Built ∧ m.payload.length ≤ ceiling.toNat) {ends : Ends} {source : Source}
    (hroom : ends.writing.room = none) (hempty : ends.writing.written = [])
    (hbytes : source.bytes = (ends.run (ms.map .write)).2.writing.written) (sink : Sink) :
    ∃ waits : List Duration,
      let run := (Ends.joined (.start ceiling.toNat source sink)).run (waits.map .read)
      framed run.1 = ms.map .ok ∧ Holds ceiling.toNat run.2.reading.reader [] ∧
        run.2.reading.source.bytes = [] := by
  have hparse := Frame.parse_encodeAll (fun m hm => Frame.fits_of_built (h m hm).1 (h m hm).2) []
  rw [List.append_nil, Frame.parse_nil, List.append_nil] at hparse
  rw [written_run ends hroom, hempty, List.nil_append] at hbytes
  obtain ⟨waits, hresults, left, hholds, hleft⟩ := read_to_end ceiling.toNat source sink
  rw [hbytes, hparse] at hresults hleft
  obtain ⟨rfl, hrest⟩ := List.append_eq_nil_iff.1 hleft
  exact ⟨waits, hresults, hholds, hrest⟩

/-- If all that was read are messages, and the reader is at the start of a frame, then the bytes taken
are a frame of each message, one behind the other. -/
theorem frames_of_read {ceiling : Nat} {source : Source} {sink : Sink} {uses : List Use}
    {ms : List Message} (hms : framed ((Ends.joined (.start ceiling source sink)).run uses).1 = ms.map .ok)
    (hreader : ((Ends.joined (.start ceiling source sink)).run uses).2.reading.reader = .new ceiling) :
    ∃ frames : List Bytes, List.Forall₂ (Frame.Spells ceiling) frames ms ∧ source.bytes = frames.flatten
      ++ ((Ends.joined (.start ceiling source sink)).run uses).2.reading.source.bytes := by
  have hstart : (Ends.joined (.start ceiling source sink)).reading.Follows ceiling source [] [] [] :=
    ReadHalf.follows_start ceiling source 0
  obtain ⟨taken, left, h⟩ := follows_run hstart uses
  have hholds := h.holds
  rw [hreader] at hholds
  obtain rfl : left = [] := hholds.2
  have hparse := h.parse_eq
  rw [List.nil_append, hms] at hparse
  obtain ⟨frames, rfl, hframes⟩ := Frame.frames_of_parse hparse
  exact ⟨frames, hframes, h.bytes_eq⟩

end Ends

namespace Frame

/-- **Writing frames and parsing them are inverse.** For every reader's ceiling:

1. built messages within it, written one behind the other, are parsed to just these messages, and nothing
   is left over; and so they come through a connection, in whatever parts its source brings them;
2. what is parsed to messages with nothing left over, and what was taken when all that was read are
   messages, is a frame of each of them, and they are written as these frames made plain;
3. messages that are made and parsed ones announce the length of their payload. -/
theorem frames_inverse (ceiling : UInt64) :
    (∀ ms : List Message, (∀ m ∈ ms, m.Built ∧ m.payload.length ≤ ceiling.toNat) →
      parse ceiling.toNat (Message.encodeAll ms) = (ms.map .ok, []) ∧
      ∀ (ends : Ends) (source : Source) (sink : Sink), ends.writing.room = none →
        ends.writing.written = [] →
        source.bytes = (ends.run (ms.map .write)).2.writing.written →
        ∃ waits : List Duration,
          let run := (Ends.joined (.start ceiling.toNat source sink)).run (waits.map .read)
          framed run.1 = ms.map .ok ∧ FrameReader.Holds ceiling.toNat run.2.reading.reader [] ∧
            run.2.reading.source.bytes = []) ∧
    (∀ (bs : Bytes) (ms : List Message), parse ceiling.toNat bs = (ms.map .ok, []) →
      ∃ frames : List Bytes, List.Forall₂ (Spells ceiling.toNat) frames ms ∧ bs = frames.flatten ∧
        Message.encodeAll ms = (frames.map Header.plain).flatten) ∧
    (∀ (source : Source) (sink : Sink) (uses : List Ends.Use) (ms : List Message),
      let run := (Ends.joined (.start ceiling.toNat source sink)).run uses
      framed run.1 = ms.map .ok → run.2.reading.reader = .new ceiling.toNat →
      ∃ frames : List Bytes, List.Forall₂ (Spells ceiling.toNat) frames ms ∧
        source.bytes = frames.flatten ++ run.2.reading.source.bytes ∧
        Message.encodeAll ms = (frames.map Header.plain).flatten) ∧
    (∀ m : Message, m.Made → m.payload.length < UInt64.size →
      m.header.length.toNat = m.payload.length) ∧
    ∀ (bs : Bytes) (m : Message), .ok m ∈ (parse ceiling.toNat bs).1 →
      m.header.length.toNat = m.payload.length := by
  refine ⟨fun ms hms => ⟨?_, ?_⟩, ?_, ?_, ?_, ?_⟩
  · have hparse := parse_encodeAll (fun m hm => fits_of_built (hms m hm).1 (hms m hm).2) []
    rwa [List.append_nil, parse_nil, List.append_nil] at hparse
  · intro ends source sink hroom hempty hbytes
    exact Ends.read_written hms hroom hempty hbytes sink
  · intro bs ms h
    obtain ⟨frames, hbs, hframes⟩ := frames_of_parse h
    exact ⟨frames, hframes, hbs, encodeAll_of_spells hframes⟩
  · intro source sink uses ms run hms hreader
    obtain ⟨frames, hframes, hbytes⟩ := Ends.frames_of_read hms hreader
    exact ⟨frames, hframes, hbytes, encodeAll_of_spells hframes⟩
  · intro m hm hlength
    exact Message.announced_of_made hm hlength
  · intro bs m hm
    exact announced_of_parse hm

/-- A message without a payload and one with. -/
def twoRequests : List Message := [.request .ping true, .namedRequest .stat false]

/-- A frame of a request whose byte that expects a response is neither zero nor one. -/
def oddFlag : Bytes := (Message.request .ping true).encode.set 16 7

/-- A source that brings a string in two parts, and the second one late. -/
def broken (bs : Bytes) : Source := ⟨[.bytes (bs.take 40), .silence 10, .bytes (bs.drop 40)], .closed⟩

/-- Two requests come through a source that breaks the second header; the odd frame is a ping, which is
written with a one. -/
theorem frames_inverse_oddFlag :
    (parse 262144 (Message.encodeAll twoRequests) = (twoRequests.map .ok, []) ∧
      ∃ waits : List Duration, framed ((Ends.joined (.start 262144
        (broken (Message.encodeAll twoRequests)) {})).run (waits.map .read)).1 = twoRequests.map .ok) ∧
    (parse 262144 oddFlag = ([.ok (.request .ping true)], []) ∧
      Message.encodeAll [.request .ping true] = Header.plain oddFlag ∧ Header.plain oddFlag ≠ oddFlag) ∧
    (∃ frames : List Bytes, (broken (oddFlag ++ [1])).bytes = frames.flatten ++ [1] ∧
      Message.encodeAll [.request .ping true] = (frames.map Header.plain).flatten) ∧
    (Message.namedRequest .stat false).header.length.toNat = 4 ∧
    (Message.request .ping true).header.length.toNat = 0 := by
  obtain ⟨hwritten, hparsed, hread, hbuilt, hannounced⟩ := frames_inverse 262144
  have hfits : ∀ m ∈ twoRequests, m.Built ∧ m.payload.length ≤ (262144 : UInt64).toNat := by
    intro m hm
    rw [twoRequests, List.mem_cons, List.mem_singleton] at hm
    obtain rfl | rfl := hm
    · exact ⟨⟨.request .ping true, by decide⟩, by decide⟩
    · exact ⟨⟨.namedRequest .stat false, by decide⟩, by decide⟩
  have hodd : next? 262144 oddFlag = some (.ok (.request .ping true), []) := rfl
  have hparse : parse 262144 oddFlag = ([Message.request .ping true].map .ok, []) := by
    rw [parse_of_some hodd, parse_nil]
    rfl
  refine ⟨⟨(hwritten _ hfits).1, ?_⟩, ⟨hparse, ?_, by decide⟩, ?_, ?_, ?_⟩
  · obtain ⟨waits, hresults, -⟩ := (hwritten _ hfits).2 (.joined (.start 262144 (broken []) {}))
      (broken (Message.encodeAll twoRequests)) {} rfl rfl (by rfl)
    exact ⟨waits, hresults⟩
  · obtain ⟨frames, hframes, hbytes, hplain⟩ := hparsed oddFlag _ hparse
    obtain ⟨frame, -, -, ⟨⟩, rfl⟩ := List.forall₂_cons_right_iff.1 hframes
    rw [hplain, hbytes]
    simp
  · obtain ⟨frames, -, hbytes, hplain⟩ := hread (broken (oddFlag ++ [1])) {} [.read ⟨5⟩]
      [.request .ping true] rfl rfl
    exact ⟨frames, hbytes, hplain⟩
  · exact hbuilt _ (.namedRequest .stat false) (by decide)
  · refine hannounced oddFlag _ ?_
    change _ ∈ (parse 262144 oddFlag).1
    rw [hparse]
    exact List.mem_singleton_self _

end Frame

end LevinNet
