import LevinNet.Proofs.Storage.RoundTrip

/-
Which trees can be written, and what becomes of those that cannot.

   1. A written tree states some sizes: how long a name is, and how many entries, elements or bytes
      follow. `Value.sizes` lists those of a tree in pre-order, and they are the sizes of all that stands
      in the tree, at any depth (`mem_sizes_iff`).
   2. `Checked` says that a writer comes to the error of the first size that does not fit, and succeeds
      if all fit. Writers put together check the sizes of the first and then those of the second
      (`checked_bind`).
   3. The writer of a tree checks just the sizes of the tree (`checked_encode`), so they decide whether a
      tree can be written and which error it comes to (`encode_limits`).
-/
namespace LevinNet.Storage

/-! ## The sizes of a tree -/

/-- A size that a written tree states. -/
inductive Size where
  /-- The length of a name, in bytes. -/
  | name (length : Nat)
  /-- How many entries, elements or bytes follow. -/
  | count (n : Nat)
  deriving DecidableEq

namespace Size

/-- Whether the size can be written: that of a name in one byte, any other in thirty bits. -/
def Fits : Size → Prop
  | name length => length ≤ 255
  | count n => n ≤ 1073741823

/-- The error of a size that cannot be written. -/
def error : Size → StorageError
  | name length => .nameTooLong length
  | count n => .varint (.tooLarge n)

end Size

mutual

/-- The sizes that a value states, in pre-order: its own count first, and then those of what it holds. -/
def Value.sizes : Value → List Size
  | .string bs => [.count bs.length]
  | .object entries => .count entries.length :: entriesSizes entries
  | .array _ items => .count items.length :: itemsSizes items
  | _ => []

/-- The sizes that some entries state: of each the name's before the value's. -/
def entriesSizes : Section → List Size
  | [] => []
  | (name, v) :: entries => .name (Utf8.encode name).length :: (v.sizes ++ entriesSizes entries)

def itemsSizes : List Value → List Size
  | [] => []
  | v :: items => v.sizes ++ itemsSizes items

end

/-- `w` is `v` or stands in it, at any depth. -/
inductive Value.Contains : Value → Value → Prop where
  | self (v : Value) : Value.Contains v v
  | entry {entries : Section} {name : String} {v w : Value} :
    (name, v) ∈ entries → Value.Contains v w → Value.Contains (.object entries) w
  | element {k : Kind} {items : List Value} {v w : Value} :
    v ∈ items → Value.Contains v w → Value.Contains (.array k items) w

/-- The sizes that a value states of itself, without those of what it holds. -/
inductive Value.States : Value → Size → Prop where
  | string (bs : Bytes) : Value.States (.string bs) (.count bs.length)
  | entries (entries : Section) : Value.States (.object entries) (.count entries.length)
  | name {entries : Section} {name : String} {v : Value} :
    (name, v) ∈ entries → Value.States (.object entries) (.name (Utf8.encode name).length)
  | elements (k : Kind) (items : List Value) : Value.States (.array k items) (.count items.length)

/-- A section in which, at any depth, every name has at most 255 bytes, and every section, array and
string has less than 2³⁰ entries, elements or bytes. -/
structure Section.Writable (s : Section) : Prop where
  names : ∀ entries, (Value.object s).Contains (.object entries) →
    ∀ entry ∈ entries, (Utf8.encode entry.1).length ≤ 255
  entries : ∀ entries, (Value.object s).Contains (.object entries) → entries.length ≤ 1073741823
  elements : ∀ k items, (Value.object s).Contains (.array k items) → items.length ≤ 1073741823
  strings : ∀ bs, (Value.object s).Contains (.string bs) → bs.length ≤ 1073741823

variable {m : Size} {v w : Value}

theorem mem_entriesSizes_of_mem {entries : Section} {name : String} (hv : (name, v) ∈ entries)
    (hm : m = .name (Utf8.encode name).length ∨ m ∈ v.sizes) : m ∈ entriesSizes entries := by
  induction entries with
  | nil => cases hv
  | cons first entries ih =>
    obtain ⟨first, w⟩ := first
    rw [entriesSizes, List.mem_cons, List.mem_append]
    rcases List.mem_cons.1 hv with heq | hv
    · cases heq
      exact hm.imp_right .inl
    · exact .inr (.inr (ih hv))

theorem mem_itemsSizes_of_mem {items : List Value} (hv : v ∈ items) (hm : m ∈ v.sizes) :
    m ∈ itemsSizes items := by
  induction items with
  | nil => cases hv
  | cons w items ih =>
    rw [itemsSizes, List.mem_append]
    rcases List.mem_cons.1 hv with rfl | hv
    · exact .inl hm
    · exact .inr (ih hv)

theorem mem_sizes_of_states (hw : v.Contains w) (hm : w.States m) : m ∈ v.sizes := by
  induction hw with
  | self v =>
    cases hm with
    | string bs => exact List.mem_singleton_self _
    | entries | elements => exact List.mem_cons_self
    | name hv => exact List.mem_cons_of_mem _ (mem_entriesSizes_of_mem hv (.inl rfl))
  | entry hv _ ih => exact List.mem_cons_of_mem _ (mem_entriesSizes_of_mem hv (.inr (ih hm)))
  | element hv _ ih => exact List.mem_cons_of_mem _ (mem_itemsSizes_of_mem hv (ih hm))

mutual

theorem states_of_mem_sizes : ∀ v : Value, m ∈ v.sizes → ∃ w, v.Contains w ∧ w.States m
  | .string bs, h => by
    obtain rfl := List.mem_singleton.1 h
    exact ⟨_, .self _, .string bs⟩
  | .object entries, h => by
    rcases List.mem_cons.1 h with rfl | h
    · exact ⟨_, .self _, .entries entries⟩
    · obtain ⟨name, v, hv, rfl | ⟨w, hw, hm⟩⟩ := states_of_mem_entriesSizes entries h
      · exact ⟨_, .self _, .name hv⟩
      · exact ⟨w, .entry hv hw, hm⟩
  | .array k items, h => by
    rcases List.mem_cons.1 h with rfl | h
    · exact ⟨_, .self _, .elements k items⟩
    · obtain ⟨v, hv, w, hw, hm⟩ := states_of_mem_itemsSizes items h
      exact ⟨w, .element hv hw, hm⟩
  | .int64 _, h | .int32 _, h | .int16 _, h | .int8 _, h | .uint64 _, h | .uint32 _, h
  | .uint16 _, h | .uint8 _, h | .double _, h | .bool _, h => by cases h

theorem states_of_mem_entriesSizes : ∀ entries : Section, m ∈ entriesSizes entries →
    ∃ name v, (name, v) ∈ entries ∧
      (m = .name (Utf8.encode name).length ∨ ∃ w, v.Contains w ∧ w.States m)
  | [], h => by cases h
  | (name, v) :: entries, h => by
    rw [entriesSizes, List.mem_cons, List.mem_append] at h
    rcases h with rfl | h | h
    · exact ⟨name, v, List.mem_cons_self, .inl rfl⟩
    · exact ⟨name, v, List.mem_cons_self, .inr (states_of_mem_sizes v h)⟩
    · obtain ⟨other, w, hw, hm⟩ := states_of_mem_entriesSizes entries h
      exact ⟨other, w, List.mem_cons_of_mem _ hw, hm⟩

theorem states_of_mem_itemsSizes : ∀ items : List Value, m ∈ itemsSizes items →
    ∃ v ∈ items, ∃ w, v.Contains w ∧ w.States m
  | [], h => by cases h
  | v :: items, h => by
    rw [itemsSizes, List.mem_append] at h
    rcases h with h | h
    · exact ⟨v, List.mem_cons_self, states_of_mem_sizes v h⟩
    · obtain ⟨w, hw, hm⟩ := states_of_mem_itemsSizes items h
      exact ⟨w, List.mem_cons_of_mem _ hw, hm⟩

end

/-- The sizes of a tree are those that anything in it states. -/
theorem mem_sizes_iff : m ∈ v.sizes ↔ ∃ w, v.Contains w ∧ w.States m :=
  ⟨states_of_mem_sizes v, fun ⟨_, hw, hm⟩ => mem_sizes_of_states hw hm⟩

theorem writable_iff {s : Section} : s.Writable ↔ ∀ m ∈ (Value.object s).sizes, m.Fits := by
  constructor
  · intro h m hm
    obtain ⟨w, hw, hm⟩ := mem_sizes_iff.1 hm
    cases hm with
    | string bs => exact h.strings bs hw
    | entries entries => exact h.entries entries hw
    | name hv => exact h.names _ hw _ hv
    | elements k items => exact h.elements k items hw
  · intro h
    have hfits : ∀ {w m}, (Value.object s).Contains w → w.States m → m.Fits :=
      fun hw hm => h _ (mem_sizes_of_states hw hm)
    exact ⟨fun _ hw _ hv => hfits hw (.name hv), fun _ hw => hfits hw (.entries _),
      fun k items hw => hfits hw (.elements k items), fun _ hw => hfits hw (.string _)⟩

/-! ## Writers that check sizes -/

/-- `m` is the first of these sizes that does not fit. -/
inductive FirstMisfit : List Size → Size → Prop where
  | here {m : Size} {sizes : List Size} : ¬ m.Fits → FirstMisfit (m :: sizes) m
  | behind {n m : Size} {sizes : List Size} :
    n.Fits → FirstMisfit sizes m → FirstMisfit (n :: sizes) m

/-- What a writer comes to that checks these sizes in order: the error of the first that does not fit,
and no error if all fit. -/
inductive Checked {α : Type} (sizes : List Size) : Except StorageError α → Prop where
  | ok {a : α} : (∀ m ∈ sizes, m.Fits) → Checked sizes (.ok a)
  | error {m : Size} : FirstMisfit sizes m → Checked sizes (.error m.error)

section
variable {α β : Type} {sizes others : List Size}

theorem FirstMisfit.append (h : FirstMisfit sizes m) (others : List Size) :
    FirstMisfit (sizes ++ others) m := by
  induction h with
  | here hm => exact .here hm
  | behind hn _ ih => exact .behind hn ih

theorem FirstMisfit.of_fits (hsizes : ∀ n ∈ sizes, n.Fits) (h : FirstMisfit others m) :
    FirstMisfit (sizes ++ others) m := by
  induction sizes with
  | nil => exact h
  | cons n sizes ih =>
    obtain ⟨hn, hsizes⟩ := List.forall_mem_cons.1 hsizes
    exact .behind hn (ih hsizes)

theorem FirstMisfit.not_fits (h : FirstMisfit sizes m) : m ∈ sizes ∧ ¬ m.Fits := by
  induction h with
  | here hm => exact ⟨List.mem_cons_self, hm⟩
  | behind _ _ ih => exact ⟨List.mem_cons_of_mem _ ih.1, ih.2⟩

theorem FirstMisfit.unique {n : Size} (hm : FirstMisfit sizes m) (hn : FirstMisfit sizes n) :
    m = n := by
  induction hm with
  | here hm =>
    cases hn with
    | here => rfl
    | behind hfits _ => exact absurd hfits hm
  | behind hfits _ ih =>
    cases hn with
    | here hn => exact absurd hfits hn
    | behind _ hn => exact ih hn

theorem checked_pure (a : α) : Checked [] (pure a : Except StorageError α) := .ok (by simp)

/-- The second writer checks its sizes only if those of the first fit. -/
theorem checked_bind {x : Except StorageError α} {f : α → Except StorageError β}
    (hx : Checked sizes x) (hf : ∀ a, Checked others (f a)) : Checked (sizes ++ others) (x >>= f) := by
  cases hx with
  | error hm => exact .error (hm.append others)
  | @ok a hfits =>
    have hthen := hf a
    change Checked (sizes ++ others) (f a)
    generalize f a = y at hthen
    cases hthen with
    | ok hfits' => exact .ok (List.forall_mem_append.2 ⟨hfits, hfits'⟩)
    | error hm => exact .error (hm.of_fits hfits)

/-- What is made of the bytes afterwards checks nothing. -/
theorem checked_map {x : Except StorageError α} (hx : Checked sizes x) (f : α → β) :
    Checked sizes (x >>= fun a => pure (f a)) := by
  have h := checked_bind hx fun a => checked_pure (f a)
  rwa [List.append_nil] at h

/-- A writer that checks one size. -/
theorem checked_singleton {x : Except StorageError α} (hfits : m.Fits → ∃ a, x = .ok a)
    (hnot : ¬ m.Fits → x = .error m.error) : Checked [m] x := by
  by_cases h : m.Fits
  · obtain ⟨a, rfl⟩ := hfits h
    exact .ok (by simpa using h)
  · rw [hnot h]
    exact .error (.here h)

end

theorem checked_encodeCount (n : Nat) : Checked [.count n] (encodeCount n) := by
  refine checked_singleton (fun h => ?_) (fun h => ?_)
  · obtain ⟨bs, hbs, -⟩ := Varint.encode_of_form (.four h)
    exact ⟨bs, by simp only [encodeCount, hbs]⟩
  · have hlarge : Varint.maxFourBytes < n := Nat.not_le.1 h
    simp only [encodeCount, Varint.encode_of_lt hlarge]
    rfl

theorem checked_encodeName (name : String) :
    Checked [.name (Utf8.encode name).length] (encodeName name) :=
  checked_singleton (fun h => ⟨_, if_pos h⟩) (fun h => if_neg h)

mutual

/-- The writer of a value checks just the sizes of the value, in pre-order. -/
theorem checked_encode : ∀ v : Value, Checked v.sizes v.encode
  | .string bs => checked_map (checked_encodeCount bs.length) _
  | .object entries =>
    checked_bind (checked_encodeCount entries.length) fun _ =>
      checked_map (checked_encodeEntries entries) _
  | .array k items =>
    checked_bind (checked_encodeCount items.length) fun _ =>
      checked_map (checked_encodeItems (k == .array) items) _
  | .int64 _ | .int32 _ | .int16 _ | .int8 _ | .uint64 _ | .uint32 _ | .uint16 _ | .uint8 _
  | .double _ | .bool _ => checked_pure _

theorem checked_encodeEntries : ∀ entries : Section,
    Checked (entriesSizes entries) (encodeEntries entries)
  | [] => checked_pure _
  | (name, v) :: entries =>
    checked_bind (checked_encodeName name) fun _ =>
      checked_bind (checked_encode v) fun _ => checked_map (checked_encodeEntries entries) _

/-- A tag in front of an element has one byte, whatever the element is. -/
theorem checked_encodeItems (tagged : Bool) : ∀ items : List Value,
    Checked (itemsSizes items) (encodeItems tagged items)
  | [] => checked_pure _
  | v :: items =>
    checked_bind (checked_encode v) fun _ => checked_map (checked_encodeItems tagged items) _

end

/-- **Limits of writing.** A tree is written if and only if, at any depth, every name in it has at most
255 bytes and every section, array and string in it has less than 2³⁰ entries, elements or bytes. Else
the error is that of the first size in pre-order that exceeds its limit, with this size, and there is no
other error. -/
theorem encode_limits (root : Section) :
    ((∃ bs, Storage.encode root = .ok bs) ↔ root.Writable) ∧
    ∀ e, Storage.encode root = .error e ↔
      ∃ m, FirstMisfit (Value.object root).sizes m ∧ e = m.error := by
  have hchecked : Checked (Value.object root).sizes (Storage.encode root) :=
    checked_map (checked_encode (.object root)) (preamble ++ ·)
  rw [writable_iff]
  generalize Storage.encode root = written at hchecked
  cases hchecked with
  | @ok bs hfits =>
    refine ⟨iff_of_true ⟨bs, rfl⟩ hfits, fun e => iff_of_false (fun h => by cases h) ?_⟩
    rintro ⟨m, hm, -⟩
    obtain ⟨hmem, hnot⟩ := hm.not_fits
    exact hnot (hfits m hmem)
  | @error m hm =>
    obtain ⟨hmem, hnot⟩ := hm.not_fits
    refine ⟨iff_of_false (fun ⟨bs, h⟩ => by cases h) fun hfits => hnot (hfits m hmem), fun e => ?_⟩
    constructor
    · intro h
      cases h
      exact ⟨m, hm, rfl⟩
    · rintro ⟨n, hn, rfl⟩
      rw [hm.unique hn]

/-- The count of a section comes before what is in it, and the name of an entry before its value. -/
example : (Value.object [("ab", .array .string [.string [1, 2, 3]]), ("", .bool true)]).sizes
    = [.count 2, .name 2, .count 1, .count 3, .name 0] := by rfl

end LevinNet.Storage
