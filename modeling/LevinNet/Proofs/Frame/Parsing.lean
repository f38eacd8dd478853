import LevinNet.Frame.Stream

/-
How a byte string falls into frames.

   1. `next?` is the front of a string as one result, a message or a rejection, and what is behind it.
      It looks at no byte behind the frame (`next?_append`), and it takes at least one
      (`length_of_next?`).
   2. `parse` takes such results as long as there are any (`parse_of_none`, `parse_of_some`). A string
      may be parsed in parts: what the first part leaves over goes in front of the second
      (`parse_append`). Each result has bytes of its own, the last one too (`parse_concat`), and a rejected
      frame has its header only (`length_of_rejected`).
-/
namespace LevinNet

namespace Frame

open FrameReader (longest maxAllocation)

variable {ceiling : Nat}

/-! ## One frame -/

/-- The first result of a byte string and the bytes behind it, if the string is long enough. -/
def next? (ceiling : Nat) (bs : Bytes) : Option (Except FrameError Message × Bytes) :=
  match front ceiling bs with
  | .incomplete => none
  | .frame m rest => some (.ok m, rest)
  | .rejected e rest => some (.error e, rest)

theorem next?_of_short {bs : Bytes} (h : bs.length < Header.size) : next? ceiling bs = none := by
  simp only [next?, front, h, if_true]

/-- The 33 bytes in front decide how many more belong to the result. -/
theorem next?_behind {raw : Bytes} (hraw : raw.length = Header.size) (bs : Bytes) :
    next? ceiling (raw ++ bs) = match Header.parse raw with
      | .error e => some (.error (.header e), bs)
      | .ok h =>
        if ceiling < h.length.toNat then some (.error (.payloadTooLarge h.length.toNat ceiling), bs)
        else if maxAllocation < h.length.toNat then some (.error .capacityOverflow, bs)
        else if bs.length < h.length.toNat then none
        else some (.ok ⟨h, bs.take h.length.toNat⟩, bs.drop h.length.toNat) := by
  have hlong : ¬ (raw ++ bs).length < Header.size := by
    rw [List.length_append]
    omega
  simp only [next?, front, hlong, if_false, List.take_left' hraw, List.drop_left' hraw]
  cases Header.parse raw with
  | error e => rfl
  | ok h =>
    by_cases hc : ceiling < h.length.toNat
    · simp only [hc, if_true]
    · by_cases hm : maxAllocation < h.length.toNat
      · simp only [hc, hm, if_true, if_false]
      · by_cases hb : bs.length < h.length.toNat <;> simp only [hc, hm, hb, if_true, if_false]

/-- A string is shorter than a header or begins with one. -/
theorem short_or_header (bs : Bytes) :
    bs.length < Header.size ∨ ∃ raw rest, bs = raw ++ rest ∧ raw.length = Header.size := by
  by_cases h : bs.length < Header.size
  · exact .inl h
  · refine .inr ⟨bs.take Header.size, bs.drop Header.size, ?_, ?_⟩
    · exact (List.take_append_drop Header.size bs).symm
    · rw [List.length_take]
      omega

/-- What a result can be: a header that does not parse, one that announces too much for the reader or for
its memory, or a message with the payload that its header announces. -/
theorem next?_cases {bs rest : Bytes} {x : Except FrameError Message}
    (h : next? ceiling bs = some (x, rest)) :
    ∃ raw, raw.length = Header.size ∧
      ((∃ e, Header.parse raw = .error e ∧ x = .error (.header e) ∧ bs = raw ++ rest) ∨
        (∃ h, Header.parse raw = .ok h ∧ ceiling < h.length.toNat ∧
          x = .error (.payloadTooLarge h.length.toNat ceiling) ∧ bs = raw ++ rest) ∨
        (∃ h, Header.parse raw = .ok h ∧ h.length.toNat ≤ ceiling ∧ maxAllocation < h.length.toNat ∧
          x = .error .capacityOverflow ∧ bs = raw ++ rest) ∨
        ∃ h payload, Header.parse raw = .ok h ∧ h.length.toNat ≤ longest ceiling ∧
          payload.length = h.length.toNat ∧ x = .ok ⟨h, payload⟩ ∧ bs = raw ++ (payload ++ rest)) := by
  rcases short_or_header bs with hshort | ⟨raw, tail, rfl, hraw⟩
  · rw [next?_of_short hshort] at h
    cases h
  · rw [next?_behind hraw] at h
    refine ⟨raw, hraw, ?_⟩
    cases hp : Header.parse raw with
    | error e =>
      simp only [hp, Option.some.injEq, Prod.mk.injEq] at h
      obtain ⟨rfl, rfl⟩ := h
      exact .inl ⟨e, rfl, rfl, rfl⟩
    | ok header =>
      simp only [hp] at h
      by_cases hc : ceiling < header.length.toNat
      · simp only [hc, if_true, Option.some.injEq, Prod.mk.injEq] at h
        obtain ⟨rfl, rfl⟩ := h
        exact .inr (.inl ⟨header, rfl, hc, rfl, rfl⟩)
      · by_cases hm : maxAllocation < header.length.toNat
        · simp only [hc, hm, if_true, if_false, Option.some.injEq, Prod.mk.injEq] at h
          obtain ⟨rfl, rfl⟩ := h
          exact .inr (.inr (.inl ⟨header, rfl, Nat.not_lt.1 hc, hm, rfl, rfl⟩))
        · by_cases hb : tail.length < header.length.toNat
          · simp [hc, hm, hb] at h
          · simp only [hc, hm, hb, if_false, Option.some.injEq, Prod.mk.injEq] at h
            obtain ⟨rfl, rfl⟩ := h
            refine .inr (.inr (.inr ⟨header, tail.take header.length.toNat, rfl, ?_, ?_, rfl, ?_⟩))
            · exact Nat.le_min.2 ⟨Nat.not_lt.1 hc, Nat.not_lt.1 hm⟩
            · rw [List.length_take]
              omega
            · rw [List.take_append_drop]

theorem next?_whole {raw payload : Bytes} {h : Header} (hraw : raw.length = Header.size)
    (hp : Header.parse raw = .ok h) (hc : h.length.toNat ≤ longest ceiling)
    (hlen : payload.length = h.length.toNat) (rest : Bytes) :
    next? ceiling (raw ++ (payload ++ rest)) = some (.ok ⟨h, payload⟩, rest) := by
  have henough : ¬ (payload ++ rest).length < h.length.toNat := by
    rw [List.length_append]
    omega
  obtain ⟨hc, hm⟩ := Nat.le_min.1 hc
  simp only [next?_behind hraw, hp, Nat.not_lt.2 hc, Nat.not_lt.2 hm, henough, if_false,
    List.take_left' hlen, List.drop_left' hlen]

/-- A result is written in bytes of its own: at least a header, and nothing of what is behind. -/
theorem next?_split {bs rest : Bytes} {x : Except FrameError Message}
    (h : next? ceiling bs = some (x, rest)) :
    ∃ own, bs = own ++ rest ∧ Header.size ≤ own.length ∧
      ∀ behind, next? ceiling (own ++ behind) = some (x, behind) := by
  obtain ⟨raw, hraw, ⟨e, hp, rfl, rfl⟩ | ⟨header, hp, hc, rfl, rfl⟩ |
    ⟨header, hp, hc, hm, rfl, rfl⟩ | ⟨header, payload, hp, hc, hlen, rfl, rfl⟩⟩ := next?_cases h
  · exact ⟨raw, rfl, by omega, fun behind => by rw [next?_behind hraw, hp]⟩
  · exact ⟨raw, rfl, by omega, fun behind => by simp only [next?_behind hraw, hp, hc, if_true]⟩
  · refine ⟨raw, rfl, by omega, fun behind => ?_⟩
    simp only [next?_behind hraw, hp, Nat.not_lt.2 hc, hm, if_true, if_false]
  · refine ⟨raw ++ payload, (List.append_assoc ..).symm, ?_, fun behind => ?_⟩
    · rw [List.length_append]
      omega
    · rw [List.append_assoc, next?_whole hraw hp hc hlen]

/-- What is behind a result does not change it. -/
theorem next?_append {bs rest : Bytes} {x : Except FrameError Message} (behind : Bytes)
    (h : next? ceiling bs = some (x, rest)) :
    next? ceiling (bs ++ behind) = some (x, rest ++ behind) := by
  obtain ⟨own, rfl, -, hown⟩ := next?_split h
  rw [List.append_assoc, hown]

theorem length_of_next? {bs rest : Bytes} {x : Except FrameError Message}
    (h : next? ceiling bs = some (x, rest)) : rest.length < bs.length := by
  obtain ⟨own, rfl, hsize, -⟩ := next?_split h
  rw [List.length_append]
  simp only [Header.size] at hsize
  omega

/-- A result is made of the bytes, and never an error of the source. -/
theorem not_io_of_next? {bs rest : Bytes} {text : String} :
    next? ceiling bs ≠ some (.error (.io text), rest) := by
  intro h
  obtain ⟨raw, -, ⟨e, -, hx, -⟩ | ⟨header, -, -, hx, -⟩ | ⟨header, -, -, -, hx, -⟩ |
    ⟨header, payload, -, -, -, hx, -⟩⟩ := next?_cases h <;> cases hx

/-- Within a ceiling that can be allocated, no payload is too long to be. -/
theorem lt_of_next?_overflow {bs rest : Bytes}
    (h : next? ceiling bs = some (.error .capacityOverflow, rest)) : maxAllocation < ceiling := by
  obtain ⟨raw, -, ⟨e, -, hx, -⟩ | ⟨header, -, -, hx, -⟩ | ⟨header, -, hc, hm, -, -⟩ |
    ⟨header, payload, -, -, -, hx, -⟩⟩ := next?_cases h
  · cases hx
  · cases hx
  · exact Nat.lt_of_lt_of_le hm hc
  · cases hx

/-! ## All frames -/

theorem parse_of_none {bs : Bytes} (h : next? ceiling bs = none) :
    parse ceiling bs = ([], bs) := by
  unfold next? at h
  unfold parse
  split
  · rfl
  · next hf => simp [hf] at h
  · next hf => simp [hf] at h

theorem parse_nil : parse ceiling [] = ([], []) :=
  parse_of_none (next?_of_short (by decide))

theorem parse_of_some {bs rest : Bytes} {x : Except FrameError Message}
    (h : next? ceiling bs = some (x, rest)) :
    parse ceiling bs = (x :: (parse ceiling rest).1, (parse ceiling rest).2) := by
  unfold next? at h
  rw [parse]
  split
  · next hf => simp [hf] at h
  · next hf =>
    simp only [hf, Option.some.injEq, Prod.mk.injEq] at h
    obtain ⟨rfl, rfl⟩ := h
    rfl
  · next hf =>
    simp only [hf, Option.some.injEq, Prod.mk.injEq] at h
    obtain ⟨rfl, rfl⟩ := h
    rfl

/-- A string with no results is less than a frame. -/
theorem next?_of_parse_nil {bs : Bytes} (h : (parse ceiling bs).1 = []) :
    next? ceiling bs = none := by
  cases hnext : next? ceiling bs with
  | none => rfl
  | some found =>
    rw [parse_of_some hnext] at h
    cases h

/-- The first result of a string is its front. -/
theorem next?_of_parse_cons {bs : Bytes} {x : Except FrameError Message}
    {xs : List (Except FrameError Message)} (h : (parse ceiling bs).1 = x :: xs) :
    ∃ rest, next? ceiling bs = some (x, rest) := by
  cases hnext : next? ceiling bs with
  | none =>
    rw [parse_of_none hnext] at h
    cases h
  | some found =>
    rw [parse_of_some hnext] at h
    obtain ⟨rfl, -⟩ := List.cons.inj h
    exact ⟨found.2, rfl⟩

/-- Every result of a string is the front of some string. -/
theorem next?_of_mem_parse {bs : Bytes} {x : Except FrameError Message}
    (h : x ∈ (parse ceiling bs).1) : ∃ bs rest, next? ceiling bs = some (x, rest) := by
  generalize hresults : (parse ceiling bs).1 = results at h
  induction results generalizing bs with
  | nil => cases h
  | cons y results ih =>
    obtain ⟨rest, hnext⟩ := next?_of_parse_cons hresults
    rw [parse_of_some hnext] at hresults
    rcases List.mem_cons.1 h with rfl | hlater
    · exact ⟨bs, rest, hnext⟩
    · exact ih (List.cons.inj hresults).2 hlater

/-- Parsing in parts: what the first part leaves over stands in front of the second. -/
theorem parse_append (bs more : Bytes) :
    parse ceiling (bs ++ more)
      = ((parse ceiling bs).1 ++ (parse ceiling ((parse ceiling bs).2 ++ more)).1,
        (parse ceiling ((parse ceiling bs).2 ++ more)).2) := by
  induction hn : bs.length using Nat.strongRecOn generalizing bs with
  | ind n ih =>
    cases hnext : next? ceiling bs with
    | none => simp [parse_of_none hnext]
    | some found =>
      obtain ⟨x, rest⟩ := found
      have hlt := length_of_next? hnext
      rw [parse_of_some hnext, parse_of_some (next?_append more hnext),
        ih rest.length (by omega) rest rfl]
      rfl

/-- The results of a string are written in the bytes before those that are left over. -/
theorem parse_split (ceiling : Nat) (bs : Bytes) :
    ∃ own, bs = own ++ (parse ceiling bs).2 ∧ parse ceiling own = ((parse ceiling bs).1, []) := by
  induction hn : bs.length using Nat.strongRecOn generalizing bs with
  | ind n ih =>
    cases hnext : next? ceiling bs with
    | none => exact ⟨[], by rw [parse_of_none hnext]; rfl, by rw [parse_of_none hnext, parse_nil]⟩
    | some found =>
      obtain ⟨x, rest⟩ := found
      have hlt := length_of_next? hnext
      obtain ⟨own, hrest, hown⟩ := ih rest.length (by omega) rest rfl
      obtain ⟨first, hbs, -, hfirst⟩ := next?_split hnext
      rw [parse_of_some hnext]
      refine ⟨first ++ own, ?_, ?_⟩
      · rw [List.append_assoc, ← hrest, hbs]
      · rw [parse_of_some (hfirst own), hown]

/-- The last result of a string is written in bytes of its own, behind those of the results before. -/
theorem parse_concat {bs : Bytes} {xs : List (Except FrameError Message)}
    {x : Except FrameError Message} (h : parse ceiling bs = (xs ++ [x], [])) :
    ∃ front own, bs = front ++ own ∧ parse ceiling front = (xs, []) ∧
      parse ceiling own = ([x], []) := by
  induction xs generalizing bs with
  | nil => exact ⟨[], bs, rfl, parse_nil, h⟩
  | cons y xs ih =>
    obtain ⟨rest, hnext⟩ := next?_of_parse_cons (congrArg Prod.fst h)
    obtain ⟨first, rfl, -, hfirst⟩ := next?_split hnext
    rw [parse_of_some hnext, Prod.mk.injEq, List.cons_append, List.cons.injEq] at h
    obtain ⟨front, own, rfl, hfront, hown⟩ := ih (Prod.ext h.1.2 h.2)
    refine ⟨first ++ front, own, (List.append_assoc ..).symm, ?_, hown⟩
    rw [parse_of_some (hfirst front), hfront]

/-- Nothing is taken of a rejected frame but its header. -/
theorem length_of_rejected {bs : Bytes} {e : FrameError} (h : parse ceiling bs = ([.error e], [])) :
    bs.length = Header.size := by
  obtain ⟨rest, hnext⟩ := next?_of_parse_cons (congrArg Prod.fst h)
  rw [parse_of_some hnext, Prod.mk.injEq, List.cons.injEq] at h
  have hnone := parse_of_none (next?_of_parse_nil h.1.2)
  obtain rfl : rest = [] := (congrArg Prod.snd hnone).symm.trans h.2
  obtain ⟨raw, hraw, ⟨cause, -, -, rfl⟩ | ⟨header, -, -, -, rfl⟩ | ⟨header, -, -, -, -, rfl⟩ |
    ⟨header, payload, -, -, -, hx, -⟩⟩ := next?_cases hnext
  · rwa [List.append_nil]
  · rwa [List.append_nil]
  · rwa [List.append_nil]
  · cases hx

end Frame

end LevinNet
