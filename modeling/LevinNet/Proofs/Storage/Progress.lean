import LevinNet.Proofs.Storage.Metering
import LevinNet.Proofs.Storage.VarintCodec

/-
Reading makes progress, and what is read is bounded by the bytes that it is read from.

   1. `Value.nodes` counts the values in a tree, at any depth. A form of a tree has a byte at least for
      each of them (`nodes_le_of_form`): a member pays for itself with its tag, its number or its count.
   2. `Kind.least` is a value of each kind whose form is as short as `Kind.minSize` says (`form_least`).
      An array of such values, or a section of bools without names, is as short as its count allows.
   3. What is read is a form of what comes out of it, so it has all these bytes (`took_of_section`,
      `took_of_array`); and a form that is not too deep is read, so none of the bounds can be raised
      (`exists_least_section`, `exists_least_array`).
   4. The steps of the reader are those of its metered twin (`reading_progresses`, the whole).
-/
namespace LevinNet.Storage

/-! ## The values in a tree -/

mutual

/-- How many values stand in a value, at any depth, itself included. -/
def Value.nodes : Value → Nat
  | .object entries => entriesNodes entries + 1
  | .array _ items => itemsNodes items + 1
  | _ => 1

/-- How many values stand in some entries. -/
def entriesNodes : Section → Nat
  | [] => 0
  | (_, v) :: entries => v.nodes + entriesNodes entries

/-- How many values stand in some elements. -/
def itemsNodes : List Value → Nat
  | [] => 0
  | v :: items => v.nodes + itemsNodes items

end

mutual

/-- A form has a byte at least for each value in it. -/
theorem nodes_le_of_form : ∀ (v : Value) (bs : Bytes), v.Form bs → v.nodes ≤ bs.length
  | .object entries, bs, h => by
    cases h with
    | object hc hes =>
      have := Varint.length_pos_of_form hc
      have := nodes_le_of_entries entries _ hes
      rw [Value.nodes, List.length_append]
      omega
  | .array k items, bs, h => by
    cases h with
    | array hc his =>
      have := Varint.length_pos_of_form hc
      have := nodes_le_of_items k items _ his
      rw [Value.nodes, List.length_append]
      omega
  | .int64 _, bs, h | .int32 _, bs, h | .int16 _, bs, h | .int8 _, bs, h | .uint64 _, bs, h
  | .uint32 _, bs, h | .uint16 _, bs, h | .uint8 _, bs, h | .double _, bs, h | .string _, bs, h
  | .bool _, bs, h => length_pos_of_form h

theorem nodes_le_of_entries : ∀ (entries : Section) (bs : Bytes), EntriesForm entries bs →
    entriesNodes entries ≤ bs.length
  | [], _, _ => Nat.zero_le _
  | (name, v) :: entries, bs, h => by
    cases h with
    | cons _ hv hes =>
      have := nodes_le_of_form v _ hv
      have := nodes_le_of_entries entries _ hes
      simp only [entriesNodes, List.length_cons, List.length_append]
      omega

theorem nodes_le_of_items : ∀ (k : Kind) (items : List Value) (bs : Bytes), ItemsForm k items bs →
    itemsNodes items ≤ bs.length
  | _, [], _, _ => Nat.zero_le _
  | k, v :: items, bs, h => by
    cases h with
    | cons _ hv his =>
      have := nodes_le_of_form v _ hv
      have := nodes_le_of_items v.kind items _ his
      simp only [itemsNodes, List.length_append]
      omega
    | tagged _ hv his =>
      have := nodes_le_of_form v _ hv
      have := nodes_le_of_items .array items _ his
      simp only [itemsNodes, List.length_cons, List.length_append]
      omega

end

/-! ## The least forms -/

/-- A value of a kind that is as short as its kind allows. -/
def Kind.least : Kind → Value
  | .int64 => .int64 0
  | .int32 => .int32 0
  | .int16 => .int16 0
  | .int8 => .int8 0
  | .uint64 => .uint64 0
  | .uint32 => .uint32 0
  | .uint16 => .uint16 0
  | .uint8 => .uint8 0
  | .double => .double ⟨0⟩
  | .string => .string []
  | .bool => .bool false
  | .object => .object []
  | .array => .array .uint8 []

theorem kind_least (k : Kind) : k.least.kind = k := by
  cases k <;> rfl

theorem depth_least (k : Kind) : k.least.depth ≤ 1 := by
  cases k <;> decide

/-- The least value takes the bytes that its kind says, but for the tag of an array. -/
theorem form_least (k : Kind) : ∃ bs, k.least.Form bs ∧
    bs.length + (if k = .array then 1 else 0) = k.minSize := by
  have hzero : Varint.Form 0 [0] := .one (by decide)
  cases k with
  | int64 => exact ⟨_, .int64 0, by simp [Kind.minSize]⟩
  | int32 => exact ⟨_, .int32 0, by simp [Kind.minSize]⟩
  | int16 => exact ⟨_, .int16 0, by simp [Kind.minSize]⟩
  | int8 => exact ⟨_, .int8 0, by simp [Kind.minSize]⟩
  | uint64 => exact ⟨_, .uint64 0, by simp [Kind.minSize]⟩
  | uint32 => exact ⟨_, .uint32 0, by simp [Kind.minSize]⟩
  | uint16 => exact ⟨_, .uint16 0, by simp [Kind.minSize]⟩
  | uint8 => exact ⟨_, .uint8 0, by simp [Kind.minSize]⟩
  | double => exact ⟨_, .double ⟨0⟩, by simp [Kind.minSize]⟩
  | string =>
    have hform : (Value.string []).Form ([0] ++ []) := .string hzero
    exact ⟨_, hform, rfl⟩
  | bool => exact ⟨_, .bool 0, rfl⟩
  | object =>
    have hform : (Value.object []).Form ([0] ++ []) := .object hzero .nil
    exact ⟨_, hform, rfl⟩
  | array =>
    have hform : (Value.array .uint8 []).Form ([0] ++ []) := .array hzero .nil
    exact ⟨_, hform, rfl⟩

theorem itemsForm_least (k : Kind) (n : Nat) :
    ∃ bs, ItemsForm k (List.replicate n k.least) bs ∧ bs.length = n * k.minSize := by
  obtain ⟨body, hbody, hlen⟩ := form_least k
  have hk := kind_least k
  induction n with
  | zero => exact ⟨[], .nil, by simp⟩
  | succ n ih =>
    obtain ⟨others, hothers, hlens⟩ := ih
    rw [List.replicate_succ, Nat.succ_mul]
    by_cases harray : k = .array
    · subst harray
      rw [if_pos rfl] at hlen
      refine ⟨_, .tagged hk hbody hothers, ?_⟩
      simp only [List.length_cons, List.length_append]
      omega
    · rw [if_neg harray] at hlen
      generalize k.least = v at hk hbody hothers ⊢
      subst hk
      refine ⟨_, .cons harray hbody hothers, ?_⟩
      rw [List.length_append]
      omega

/-- An entry without a name and with a bool takes three bytes. -/
theorem entriesForm_least (n : Nat) :
    ∃ bs, EntriesForm (List.replicate n ("", .bool false)) bs ∧ bs.length = 3 * n := by
  induction n with
  | zero => exact ⟨[], .nil, rfl⟩
  | succ n ih =>
    obtain ⟨others, hothers, hlens⟩ := ih
    have hempty : (Utf8.encode "").length = 0 := rfl
    have hshort : (Utf8.encode "").length ≤ 255 := by rw [hempty]; decide
    rw [List.replicate_succ]
    refine ⟨_, .cons hshort (.bool 0) hothers, ?_⟩
    simp only [List.length_cons, List.length_append, hlens, hempty, List.length_nil]
    omega

theorem itemsDepth_replicate (v : Value) (n : Nat) :
    Value.itemsDepth (List.replicate n v) ≤ v.depth := by
  induction n with
  | zero => exact Nat.zero_le _
  | succ n ih =>
    rw [List.replicate_succ, Value.itemsDepth]
    exact Nat.max_le.2 ⟨Nat.le_refl _, ih⟩

theorem entriesDepth_replicate (name : String) (v : Value) (n : Nat) :
    Value.entriesDepth (List.replicate n (name, v)) ≤ v.depth := by
  induction n with
  | zero => exact Nat.zero_le _
  | succ n ih =>
    rw [List.replicate_succ, Value.entriesDepth]
    exact Nat.max_le.2 ⟨Nat.le_refl _, ih⟩

namespace Read

/-! ## What is taken -/

/-- A count in front of some members takes a byte at least, and as many as are written for it. -/
theorem counted_least {n least : Nat} {count body : Bytes} (hc : Varint.Form n count)
    (hbody : least ≤ body.length) :
    1 + least ≤ (count ++ body).length ∧
      ∀ width, Varint.encodedLength n = .ok width → width + least ≤ (count ++ body).length := by
  rw [List.length_append]
  constructor
  · exact Nat.add_le_add (Varint.length_pos_of_form hc) hbody
  · intro width hwidth
    exact Nat.add_le_add (Varint.length_le_of_form hc hwidth) hbody

theorem took_of_section {s : Section} {c c' : Cursor} (h : Read.section c = .ok s c') :
    ∃ taken, Took c c' taken ∧ 1 + 3 * s.length ≤ taken.length ∧
      (∀ width, Varint.encodedLength s.length = .ok width → width + 3 * s.length ≤ taken.length) ∧
      (Value.object s).nodes ≤ taken.length := by
  obtain ⟨taken, ht, hform, -⟩ := (form_of_within _).1 s c c' h
  have hnodes := nodes_le_of_form _ _ hform
  cases hform with
  | object hc hes =>
    have hbody := length_of_entries hes
    rw [Nat.mul_comm] at hbody
    obtain ⟨hleast, hwidth⟩ := counted_least hc hbody
    exact ⟨_, ht, hleast, hwidth, hnodes⟩

theorem took_of_array {levels : Nat} {k : Kind} {v : Value} {c c' : Cursor}
    (h : arrayWithin levels k c = .ok v c') :
    ∃ items taken, v = .array k items ∧ Took c c' taken ∧
      1 + items.length * k.minSize ≤ taken.length ∧
      (∀ width, Varint.encodedLength items.length = .ok width →
        width + items.length * k.minSize ≤ taken.length) ∧
      v.nodes ≤ taken.length := by
  obtain ⟨⟨taken, ht, hform, -⟩, items, rfl⟩ := (form_of_within levels).2 k v c c' h
  have hnodes := nodes_le_of_form _ _ hform
  cases hform with
  | array hc his =>
    obtain ⟨hleast, hwidth⟩ := counted_least hc (minSize_le_of_items his)
    exact ⟨items, _, rfl, ht, hleast, hwidth, hnodes⟩

/-! ## The least that is taken -/

theorem exists_least_section {n width : Nat} (hwidth : Varint.encodedLength n = .ok width) :
    ∃ (s : Section) (bs : Bytes), s.length = n ∧ bs.length = width + 3 * n ∧
      ∀ rest, Read.section (Cursor.ofBytes (bs ++ rest)) = .ok s ⟨rest, bs.length, 0⟩ := by
  obtain ⟨count, hcount, hlen⟩ := Varint.exists_form_of_length hwidth
  obtain ⟨body, hbody, hlens⟩ := entriesForm_least n
  have hsize : (List.replicate n ("", Value.bool false)).length = n := List.length_replicate
  refine ⟨_, count ++ body, hsize, by rw [List.length_append, hlen, hlens], fun rest => ?_⟩
  have hform : (Value.object (List.replicate n ("", .bool false))).Form (count ++ body) :=
    .object (by rwa [hsize]) hbody
  have hdepth := entriesDepth_replicate "" (.bool false) n
  apply (gives_section hform rest).1
  exact Nat.le_trans (Nat.succ_le_succ hdepth) (by decide)

theorem exists_least_array (k : Kind) {n width : Nat}
    (hwidth : Varint.encodedLength n = .ok width) :
    ∃ (items : List Value) (bs : Bytes), items.length = n ∧ bs.length = width + n * k.minSize ∧
      ∀ levels, 2 ≤ levels → Gives (arrayWithin levels k) bs (.ok (.array k items)) := by
  obtain ⟨count, hcount, hlen⟩ := Varint.exists_form_of_length hwidth
  obtain ⟨body, hbody, hlens⟩ := itemsForm_least k n
  have hsize : (List.replicate n k.least).length = n := List.length_replicate
  refine ⟨_, count ++ body, hsize, by rw [List.length_append, hlen, hlens], fun levels hlevels => ?_⟩
  have hform : (Value.array k (List.replicate n k.least)).Form (count ++ body) :=
    .array (by rwa [hsize]) hbody
  have hdepth : (Value.array k (List.replicate n k.least)).depth ≤ levels := by
    have := itemsDepth_replicate k.least n
    have := depth_least k
    rw [Value.depth]
    omega
  have hgives := (gives_within levels).2 k _ _ hform
  rwa [upTo_of_le hdepth] at hgives

/-! ## The whole -/

/-- What is read of a blob has no more values than bytes behind the preamble. -/
theorem nodes_le_of_decode {b : Bytes} {root : Section} (h : Storage.decode b = .ok root) :
    preamble.length + (Value.object root).nodes ≤ b.length := by
  obtain ⟨c, hblob⟩ := blob_of_decode h
  obtain ⟨body, rfl, hread⟩ := section_of_blob hblob
  obtain ⟨taken, ht, -, -, hnodes⟩ := took_of_section hread
  have hrest : body = taken ++ c.rest := ht.rest
  rw [hrest, List.length_append, List.length_append]
  omega

/-- **Reading makes progress.** A section that is read took a byte at least for its count and three for
each entry, and an array of a kind a byte for its count and the least size of the kind for each element.
These are the least numbers: of every kind and for every number of elements there is an array that takes
no more, but that the count itself is longer than a byte if the number is over 63. So a tree that is
read holds at most as many values, at any depth, as bytes were taken for it. And whatever the input is,
the reader comes to an end: it takes at most four steps for each byte that is left, and two more. -/
theorem reading_progresses :
    (∀ (s : Section) (c c' : Cursor), Read.section c = .ok s c' →
      ∃ taken, Took c c' taken ∧ 1 + 3 * s.length ≤ taken.length ∧
        (∀ width, Varint.encodedLength s.length = .ok width → width + 3 * s.length ≤ taken.length) ∧
        (Value.object s).nodes ≤ taken.length) ∧
    (∀ (levels : Nat) (k : Kind) (v : Value) (c c' : Cursor), arrayWithin levels k c = .ok v c' →
      ∃ items taken, v = .array k items ∧ Took c c' taken ∧
        1 + items.length * k.minSize ≤ taken.length ∧
        (∀ width, Varint.encodedLength items.length = .ok width →
          width + items.length * k.minSize ≤ taken.length) ∧
        v.nodes ≤ taken.length) ∧
    (∀ n width, Varint.encodedLength n = .ok width → (n ≤ 63 ↔ width = 1) ∧
      (∃ (s : Section) (bs : Bytes), s.length = n ∧ bs.length = width + 3 * n ∧
        ∀ rest, Read.section (Cursor.ofBytes (bs ++ rest)) = .ok s ⟨rest, bs.length, 0⟩) ∧
      ∀ k : Kind, ∃ (items : List Value) (bs : Bytes), items.length = n ∧
        bs.length = width + n * k.minSize ∧
        ∀ levels, 2 ≤ levels → Gives (arrayWithin levels k) bs (.ok (.array k items))) ∧
    (∀ b root, Storage.decode b = .ok root →
      preamble.length + (Value.object root).nodes ≤ b.length) ∧
    (Metered.section.read = Read.section ∧
      ∀ c, Metered.section.steps c ≤ 4 * c.remaining + 2) ∧
    ∀ levels k, (Metered.arrayWithin levels k).read = arrayWithin levels k ∧
      ∀ c, (Metered.arrayWithin levels k).steps c ≤ 4 * c.remaining + 2 := by
  refine ⟨fun s c c' => took_of_section, fun levels k v c c' => took_of_array, ?_,
    fun b root => nodes_le_of_decode, ⟨Metered.read_section, ?_⟩, ?_⟩
  · intro n width hwidth
    refine ⟨?_, exists_least_section hwidth, fun k => exists_least_array k hwidth⟩
    exact Varint.le_maxOneByte_iff hwidth
  · intro c
    exact (Metered.costs_within _).1.steps_le c
  · intro levels k
    exact ⟨(Metered.read_within levels).2 k, ((Metered.costs_within levels).2 k).steps_le⟩

/-- A section whose one entry has no name and holds an array of one array of nothing: three values in six
bytes. And a count of a thousand million entries, with nothing behind it, costs no more than the four
bytes that it is written in. -/
theorem reading_progresses_nested :
    (∃ (s : Section) (taken : Bytes),
      Read.section (Cursor.ofBytes [4, 0, 0x8d, 4, 0x88, 0]) = .ok s ⟨[], 6, 0⟩ ∧
      Took (Cursor.ofBytes [4, 0, 0x8d, 4, 0x88, 0]) ⟨[], 6, 0⟩ taken ∧
      s.length = 1 ∧ 1 + 3 * 1 ≤ taken.length ∧
      (Value.object s).nodes = 3 ∧ 3 ≤ taken.length) ∧
    (∃ (s : Section) (bs : Bytes), s.length = 63 ∧ bs.length = 190 ∧
      ∀ rest, Read.section (Cursor.ofBytes (bs ++ rest)) = .ok s ⟨rest, bs.length, 0⟩) ∧
    Metered.section.steps (Cursor.ofBytes [0xfe, 0xff, 0xff, 0xff]) ≤ 18 := by
  refine ⟨?_, ?_, ?_⟩
  · have hread : Read.section (Cursor.ofBytes [4, 0, 0x8d, 4, 0x88, 0]) =
        .ok [("", .array .array [.array .uint8 []])] ⟨[], 6, 0⟩ := rfl
    obtain ⟨taken, ht, hentries, -, hnodes⟩ := reading_progresses.1 _ _ _ hread
    exact ⟨_, taken, hread, ht, rfl, hentries, rfl, hnodes⟩
  · exact (reading_progresses.2.2.1 63 1 rfl).2.1
  · exact reading_progresses.2.2.2.2.1.2 _

end Read

end LevinNet.Storage
