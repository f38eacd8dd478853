import LevinNet.Proofs.Storage.RoundTrip

/-
What writing makes of a tree that was read.

   1. A form leaves two choices open: the width of a count, and the byte of a true bool. `Chosen` is the
      grammar with the choices of a form noted in order; `Choice.Normal` says that a choice is the one
      that writing makes.
   2. Whatever has a form is written, in no more bytes than the form, and in the very bytes of the form
      if and only if all its choices are normal (`shortens_of_chosen`).
   3. So a blob that was read is written again, no longer than what was read of it, is then read to the
      same tree, and comes back as it was if and only if its choices are normal (`encode_of_decode`).
-/
namespace LevinNet.Storage

/-- A place in a form that could be written otherwise. -/
inductive Choice where
  /-- A count or a length, and the bytes that write it. -/
  | count (n : Nat) (bs : Bytes)
  /-- The byte of a bool. -/
  | bool (b : UInt8)

/-- A count in no more bytes than it needs, or a bool that is zero or one. -/
def Choice.Normal : Choice → Prop
  | .count n bs => ∀ bs', Varint.Form n bs' → bs.length ≤ bs'.length
  | .bool b => b = 0 ∨ b = 1

mutual

/-- `bs` is a form of a value, and `cs` are the choices in it. -/
inductive Value.Chosen : Value → Bytes → List Choice → Prop where
  /-- A number of fixed width leaves no choice. -/
  | number {v : Value} {bs : Bytes} :
    v.kind ∉ [.bool, .string, .object, .array] → v.Form bs → Value.Chosen v bs []
  | bool (b : UInt8) : Value.Chosen (.bool (b != 0)) [b] [.bool b]
  | string {bs count : Bytes} :
    Varint.Form bs.length count → Value.Chosen (.string bs) (count ++ bs) [.count bs.length count]
  | object {entries : Section} {count body : Bytes} {cs : List Choice} :
    Varint.Form entries.length count → EntriesChosen entries body cs →
    Value.Chosen (.object entries) (count ++ body) (.count entries.length count :: cs)
  | array {k : Kind} {items : List Value} {count body : Bytes} {cs : List Choice} :
    Varint.Form items.length count → ItemsChosen k items body cs →
    Value.Chosen (.array k items) (count ++ body) (.count items.length count :: cs)

/-- `bs` is a form of some entries, and `cs` are the choices in it. -/
inductive EntriesChosen : Section → Bytes → List Choice → Prop where
  | nil : EntriesChosen [] [] []
  | cons {name : String} {v : Value} {body : Bytes} {cs : List Choice} {entries : Section}
    {others : Bytes} {ds : List Choice} :
    (Utf8.encode name).length ≤ maxNameLength → Value.Chosen v body cs →
    EntriesChosen entries others ds →
    EntriesChosen ((name, v) :: entries)
      (UInt8.ofNat (Utf8.encode name).length :: (Utf8.encode name ++ v.tag :: (body ++ others)))
      (cs ++ ds)

/-- `bs` is a form of some elements of an array of a kind, and `cs` are the choices in it. -/
inductive ItemsChosen : Kind → List Value → Bytes → List Choice → Prop where
  | nil {k : Kind} : ItemsChosen k [] [] []
  | cons {v : Value} {body : Bytes} {cs : List Choice} {items : List Value} {others : Bytes}
    {ds : List Choice} :
    v.kind ≠ .array → Value.Chosen v body cs → ItemsChosen v.kind items others ds →
    ItemsChosen v.kind (v :: items) (body ++ others) (cs ++ ds)
  | tagged {v : Value} {body : Bytes} {cs : List Choice} {items : List Value} {others : Bytes}
    {ds : List Choice} :
    v.kind = .array → Value.Chosen v body cs → ItemsChosen .array items others ds →
    ItemsChosen .array (v :: items) (v.tag :: (body ++ others)) (cs ++ ds)

end

/-- `bs` is a blob of a root section, and `cs` are the choices in it. -/
def BlobChosen (root : Section) (bs : Bytes) (cs : List Choice) : Prop :=
  ∃ body, bs = preamble ++ body ∧ (Value.object root).Chosen body cs

/-! ## Every form makes choices -/

mutual

theorem chosen_of_form : ∀ (v : Value) (bs : Bytes), v.Form bs → ∃ cs, v.Chosen bs cs
  | .bool b, bs, h => by
    cases h with
    | bool b => exact ⟨_, .bool b⟩
  | .string text, bs, h => by
    cases h with
    | string hc => exact ⟨_, .string hc⟩
  | .object entries, bs, h => by
    cases h with
    | object hc hes =>
      obtain ⟨cs, hcs⟩ := chosen_of_entries entries _ hes
      exact ⟨_, .object hc hcs⟩
  | .array k items, bs, h => by
    cases h with
    | array hc his =>
      obtain ⟨cs, hcs⟩ := chosen_of_items k items _ his
      exact ⟨_, .array hc hcs⟩
  | .int64 _, bs, h | .int32 _, bs, h | .int16 _, bs, h | .int8 _, bs, h | .uint64 _, bs, h
  | .uint32 _, bs, h | .uint16 _, bs, h | .uint8 _, bs, h | .double _, bs, h =>
    ⟨[], .number (by simp [Value.kind]) h⟩

theorem chosen_of_entries : ∀ (entries : Section) (bs : Bytes), EntriesForm entries bs →
    ∃ cs, EntriesChosen entries bs cs
  | [], bs, h => by
    cases h with
    | nil => exact ⟨_, .nil⟩
  | (name, v) :: entries, bs, h => by
    cases h with
    | cons hname hv hes =>
      obtain ⟨cs, hcs⟩ := chosen_of_form v _ hv
      obtain ⟨ds, hds⟩ := chosen_of_entries entries _ hes
      exact ⟨_, .cons hname hcs hds⟩

theorem chosen_of_items : ∀ (k : Kind) (items : List Value) (bs : Bytes), ItemsForm k items bs →
    ∃ cs, ItemsChosen k items bs cs
  | k, [], bs, h => by
    cases h with
    | nil => exact ⟨_, .nil⟩
  | k, v :: items, bs, h => by
    cases h with
    | cons hk hv his =>
      obtain ⟨cs, hcs⟩ := chosen_of_form v _ hv
      obtain ⟨ds, hds⟩ := chosen_of_items v.kind items _ his
      exact ⟨_, .cons hk hcs hds⟩
    | tagged hk hv his =>
      obtain ⟨cs, hcs⟩ := chosen_of_form v _ hv
      obtain ⟨ds, hds⟩ := chosen_of_items .array items _ his
      exact ⟨_, .tagged hk hcs hds⟩

end

/-! ## What is written for a form -/

/-- `bs'` stands in place of `bs`, where the choices `cs` were made: it is no longer, and it is the
same if and only if the choices are normal. -/
structure Shortens (bs' bs : Bytes) (cs : List Choice) : Prop where
  length_le : bs'.length ≤ bs.length
  eq_iff : bs' = bs ↔ ∀ c ∈ cs, c.Normal

namespace Shortens

theorem same (bs : Bytes) : Shortens bs bs [] where
  length_le := Nat.le_refl _
  eq_iff := by simp

/-- Two parts are the same together if and only if each is: neither can make up for the other. -/
theorem append {a' a b' b : Bytes} {cs ds : List Choice} (ha : Shortens a' a cs)
    (hb : Shortens b' b ds) : Shortens (a' ++ b') (a ++ b) (cs ++ ds) := by
  have hla := ha.length_le
  have hlb := hb.length_le
  constructor
  · rw [List.length_append, List.length_append]
    omega
  · rw [List.forall_mem_append, ← ha.eq_iff, ← hb.eq_iff]
    constructor
    · intro h
      have hlen := congrArg List.length h
      rw [List.length_append, List.length_append] at hlen
      exact List.append_inj h (by omega)
    · rintro ⟨rfl, rfl⟩
      rfl

theorem cons (x : UInt8) {a' a : Bytes} {cs : List Choice} (ha : Shortens a' a cs) :
    Shortens (x :: a') (x :: a) cs :=
  (same [x]).append ha

theorem bool (b : UInt8) : Shortens [if b != 0 then 1 else 0] [b] [.bool b] where
  length_le := Nat.le_refl _
  eq_iff := by
    simp only [List.cons.injEq, and_true, List.mem_singleton, forall_eq, Choice.Normal]
    by_cases h : b = 0
    · simp [h]
    · have hb : (b != 0) = true := by simpa using h
      simp only [hb, if_true, h, false_or]
      exact eq_comm

theorem count {n : Nat} {bs : Bytes} (h : Varint.Form n bs) :
    ∃ bs', encodeCount n = .ok bs' ∧ Shortens bs' bs [.count n bs] := by
  obtain ⟨bs', hbs', -⟩ := Varint.encode_of_form h
  have hform := Varint.form_of_encode hbs'
  have hleast : ∀ bs₁, Varint.Form n bs₁ → bs'.length ≤ bs₁.length :=
    fun _ => Varint.length_le_of_encode hbs'
  refine ⟨bs', by simp only [encodeCount, hbs'], hleast bs h, ?_⟩
  simp only [List.mem_singleton, forall_eq, Choice.Normal]
  constructor
  · rintro rfl
    exact hleast
  · intro hnormal
    exact Varint.form_eq_of_length hform h (Nat.le_antisymm (hleast bs h) (hnormal bs' hform))

end Shortens

mutual

/-- What has a form is written, and what is written stands in place of the form. -/
theorem shortens_of_chosen : ∀ (v : Value) (bs : Bytes) (cs : List Choice), v.Chosen bs cs →
    ∃ bs', v.encode = .ok bs' ∧ Shortens bs' bs cs
  | .bool b, bs, cs, h => by
    cases h with
    | bool b => exact ⟨_, rfl, .bool b⟩
    | number hk _ => simp [Value.kind] at hk
  | .string text, bs, cs, h => by
    cases h with
    | string hc =>
      obtain ⟨count, hcount, hshort⟩ := Shortens.count hc
      exact ⟨count ++ text, by rw [Value.encode, hcount]; rfl, hshort.append (.same text)⟩
    | number hk _ => simp [Value.kind] at hk
  | .object entries, bs, cs, h => by
    cases h with
    | object hc hes =>
      obtain ⟨count, hcount, hshort⟩ := Shortens.count hc
      obtain ⟨body, hbody, hshorts⟩ := shortens_of_entries entries _ _ hes
      exact ⟨count ++ body, by rw [Value.encode, hcount, hbody]; rfl, hshort.append hshorts⟩
    | number hk _ => simp [Value.kind] at hk
  | .array k items, bs, cs, h => by
    cases h with
    | array hc his =>
      obtain ⟨count, hcount, hshort⟩ := Shortens.count hc
      obtain ⟨body, hbody, hshorts⟩ := shortens_of_items k items _ _ his
      exact ⟨count ++ body, by rw [Value.encode, hcount, hbody]; rfl, hshort.append hshorts⟩
    | number hk _ => simp [Value.kind] at hk
  | .int64 _, bs, cs, h | .int32 _, bs, cs, h | .int16 _, bs, cs, h | .int8 _, bs, cs, h
  | .uint64 _, bs, cs, h | .uint32 _, bs, cs, h | .uint16 _, bs, cs, h | .double _, bs, cs, h => by
    cases h with
    | number _ hform =>
      cases hform
      exact ⟨_, rfl, .same _⟩
  | .uint8 n, bs, cs, h => by
    cases h with
    | number _ hform =>
      cases hform
      have hbyte : Bytes.ofNat 1 n.toNat = [n] := by simp [Bytes.ofNat]
      exact ⟨_, by rw [Value.encode, hbyte], .same _⟩

theorem shortens_of_entries : ∀ (entries : Section) (bs : Bytes) (cs : List Choice),
    EntriesChosen entries bs cs → ∃ bs', encodeEntries entries = .ok bs' ∧ Shortens bs' bs cs
  | [], bs, cs, h => by
    cases h with
    | nil => exact ⟨_, rfl, .same _⟩
  | (name, v) :: entries, bs, cs, h => by
    cases h with
    | cons hname hv hes =>
      obtain ⟨body, hbody, hshort⟩ := shortens_of_chosen v _ _ hv
      obtain ⟨others, hothers, hshorts⟩ := shortens_of_entries entries _ _ hes
      have hlabel : encodeName name
          = .ok (UInt8.ofNat (Utf8.encode name).length :: Utf8.encode name) := by
        simp only [encodeName, hname, if_true]
      have hbehind := (hshort.append hshorts).cons v.tag
      refine ⟨_, ?_, ((Shortens.same (Utf8.encode name)).append hbehind).cons _⟩
      rw [encodeEntries, hlabel, hbody, hothers]
      rfl

theorem shortens_of_items : ∀ (k : Kind) (items : List Value) (bs : Bytes) (cs : List Choice),
    ItemsChosen k items bs cs →
    ∃ bs', encodeItems (k == .array) items = .ok bs' ∧ Shortens bs' bs cs
  | k, [], bs, cs, h => by
    cases h with
    | nil => exact ⟨_, rfl, .same _⟩
  | k, v :: items, bs, cs, h => by
    cases h with
    | cons hk hv his =>
      obtain ⟨body, hbody, hshort⟩ := shortens_of_chosen v _ _ hv
      obtain ⟨others, hothers, hshorts⟩ := shortens_of_items v.kind items _ _ his
      have htagged : (v.kind == .array) = false := by simpa using hk
      rw [htagged] at hothers ⊢
      refine ⟨body ++ others, ?_, hshort.append hshorts⟩
      rw [encodeItems, hbody, hothers]
      rfl
    | tagged hk hv his =>
      obtain ⟨body, hbody, hshort⟩ := shortens_of_chosen v _ _ hv
      obtain ⟨others, hothers, hshorts⟩ := shortens_of_items .array items _ _ his
      refine ⟨v.tag :: (body ++ others), ?_, (hshort.append hshorts).cons v.tag⟩
      rw [encodeItems, hbody, hothers]
      rfl

end

/-! ## Forms are of uniform trees -/

mutual

theorem uniform_of_form : ∀ (v : Value) (bs : Bytes), v.Form bs → v.Uniform
  | .object entries, bs, h => by
    cases h with
    | object _ hes => exact uniform_of_entries entries _ hes
  | .array k items, bs, h => by
    cases h with
    | array _ his => exact uniform_of_items k items _ his
  | .int64 _, _, _ | .int32 _, _, _ | .int16 _, _, _ | .int8 _, _, _ | .uint64 _, _, _
  | .uint32 _, _, _ | .uint16 _, _, _ | .uint8 _, _, _ | .double _, _, _ | .string _, _, _
  | .bool _, _, _ => trivial

theorem uniform_of_entries : ∀ (entries : Section) (bs : Bytes), EntriesForm entries bs →
    Value.UniformEntries entries
  | [], _, _ => trivial
  | (_, v) :: entries, bs, h => by
    cases h with
    | cons _ hv hes => exact ⟨uniform_of_form v _ hv, uniform_of_entries entries _ hes⟩

theorem uniform_of_items : ∀ (k : Kind) (items : List Value) (bs : Bytes), ItemsForm k items bs →
    Value.UniformItems k items
  | _, [], _, _ => trivial
  | k, v :: items, bs, h => by
    cases h with
    | cons _ hv his => exact ⟨rfl, uniform_of_form v _ hv, uniform_of_items v.kind items _ his⟩
    | tagged hk hv his => exact ⟨hk, uniform_of_form v _ hv, uniform_of_items .array items _ his⟩

end

/-! ## Blobs -/

/-- A number that was read stood there in its width. -/
theorem took_ofNat {width n : Nat} {c c' : Cursor} (h : Read.number width c = .ok n c') :
    Read.Took c c' (Bytes.ofNat width n) := by
  obtain ⟨bs, ht, rfl, rfl⟩ := Read.took_number h
  rwa [Bytes.ofNat_toNat]

/-- What is read behind a check has passed it. -/
theorem passed_of_ok {α : Type} {p : Prop} [Decidable p] {e : StorageError} {r : Read α}
    {c c' : Cursor} {a : α} (h : (if p then throw e >>= fun _ : Unit => r else r) c = .ok a c') :
    ¬ p ∧ r c = .ok a c' := by
  split at h
  · obtain ⟨_, c₁, hthrow, -⟩ := Read.bind_ok.1 h
    exact (Read.throw_ok.1 hthrow).elim
  · next hp => exact ⟨hp, h⟩

/-- A blob that was read begins with the preamble, and its root was read behind it. -/
theorem section_of_blob {b : Bytes} {root : Section} {c : Cursor}
    (h : Read.blob (Cursor.ofBytes b) = .ok root c) :
    ∃ body, b = preamble ++ body ∧ Read.section ⟨body, preamble.length, 0⟩ = .ok root c := by
  obtain ⟨first, c₁, hfirst, h⟩ := Read.bind_ok.1 h
  obtain ⟨hA, h⟩ := passed_of_ok h
  obtain ⟨second, c₂, hsecond, h⟩ := Read.bind_ok.1 h
  obtain ⟨hB, h⟩ := passed_of_ok h
  obtain ⟨v, c₃, hv, h⟩ := Read.bind_ok.1 h
  obtain ⟨hV, h⟩ := passed_of_ok h
  obtain rfl := Classical.not_not.1 hA
  obtain rfl := Classical.not_not.1 hB
  obtain rfl := Classical.not_not.1 hV
  have htook := (took_ofNat hfirst).trans ((took_ofNat hsecond).trans (Read.took_byte hv))
  have hcursor : c₃ = ⟨c₃.rest, preamble.length, 0⟩ := by
    cases c₃
    simp only [Cursor.mk.injEq, true_and]
    exact ⟨htook.position, htook.depth⟩
  rw [hcursor] at h
  exact ⟨c₃.rest, htook.rest, h⟩

/-- A form of a root section behind the preamble is read to its last byte. -/
theorem read_blob_of_form {root : Section} {body : Bytes} (h : root.Form body) :
    Read.blob (Cursor.ofBytes (preamble ++ body)) = .ok root ⟨[], preamble.length + body.length, 0⟩ := by
  have hgives := (Read.gives_within maxDepth).1 root body h.form
  rw [Read.upTo_of_le h.shallow] at hgives
  have hread := hgives [] preamble.length 0
  rw [List.append_nil] at hread
  exact (blob_preamble body).trans hread

/-- A form of a root section behind the preamble is read to the section. -/
theorem blob_of_form {root : Section} {body : Bytes} (h : root.Form body) :
    Storage.decode (preamble ++ body) = .ok root := by
  simp only [Storage.decode, read_blob_of_form h]

/-- What was read of a blob is the preamble and a form of the root. -/
theorem form_of_blob {b : Bytes} {root : Section} {c : Cursor}
    (h : Read.blob (Cursor.ofBytes b) = .ok root c) :
    ∃ body, c.position ≤ b.length ∧ b.take c.position = preamble ++ body ∧ root.Form body := by
  obtain ⟨behind, rfl, hread⟩ := section_of_blob h
  obtain ⟨body, htook, hform, hdepth⟩ := (Read.form_of_within maxDepth).1 root _ c hread
  have hrest : behind = body ++ c.rest := htook.rest
  have hposition : c.position = (preamble ++ body).length := by
    rw [htook.position, List.length_append]
  refine ⟨body, ?_, ?_, hform, hdepth⟩
  · rw [hposition, hrest]
    simp only [List.length_append]
    omega
  · rw [hposition, hrest, ← List.append_assoc, List.take_left]

/-- **Writing again what was read.** A blob that is read is written again, in no more bytes than were
read of it, and then read to the same tree. It comes back byte for byte if and only if, in what was
read, every count stands in its least width and every bool is zero or one. -/
theorem encode_of_decode {b : Bytes} {root : Section} (h : Storage.decode b = .ok root) :
    ∃ c written,
      Read.blob (Cursor.ofBytes b) = .ok root c ∧ c.position ≤ b.length ∧
      Storage.encode root = .ok written ∧ written.length ≤ c.position ∧
      Storage.decode written = .ok root ∧
      (∃ cs, BlobChosen root (b.take c.position) cs) ∧
      ∀ cs, BlobChosen root (b.take c.position) cs →
        (written = b.take c.position ↔ ∀ choice ∈ cs, choice.Normal) := by
  obtain ⟨c, hblob⟩ : ∃ c, Read.blob (Cursor.ofBytes b) = .ok root c := by
    unfold Storage.decode at h
    split at h
    · next c hblob => cases h; exact ⟨c, hblob⟩
    · cases h
  obtain ⟨body, hle, htake, hform⟩ := form_of_blob hblob
  obtain ⟨cs, hcs⟩ := chosen_of_form _ _ hform.form
  obtain ⟨body', hbody', hshort⟩ := shortens_of_chosen _ _ _ hcs
  have hwritten : Storage.encode root = .ok (preamble ++ body') := by
    rw [Storage.encode, Section.encode, hbody']
    rfl
  have hform' : root.Form body' :=
    ⟨form_of_encode _ _ hbody' (uniform_of_form _ _ hform.form), hform.shallow⟩
  have hlength : c.position = (preamble ++ body).length := by
    rw [← htake, List.length_take_of_le hle]
  refine ⟨c, preamble ++ body', hblob, hle, hwritten, ?_, blob_of_form hform', ?_, ?_⟩
  · rw [hlength, List.length_append, List.length_append]
    exact Nat.add_le_add_left hshort.length_le _
  · exact ⟨cs, body, htake, hcs⟩
  · -- the choices of a form are made behind the preamble, whatever they are
    rintro ds ⟨body₁, htake₁, hds⟩
    obtain rfl : body₁ = body := List.append_cancel_left (htake₁.symm.trans htake)
    obtain ⟨body₂, hbody₂, hshort₂⟩ := shortens_of_chosen _ _ _ hds
    rw [hbody'] at hbody₂
    cases hbody₂
    rw [htake, List.append_right_inj]
    exact hshort₂.eq_iff

/-- A blob that states its one entry in two bytes and its bool as two. -/
def wideBlob : Bytes := preamble ++ [5, 0, 1, 0x61, 0x0b, 2]

/-- The sample is read, and written again in one byte less. -/
theorem encode_of_decode_wideBlob :
    Storage.decode wideBlob = .ok [("a", .bool true)] ∧
    ∃ c written, Storage.encode [("a", .bool true)] = .ok written ∧
      written = preamble ++ [4, 1, 0x61, 0x0b, 1] ∧ written ≠ wideBlob.take c ∧
      written.length ≤ c ∧ Storage.decode written = .ok [("a", .bool true)] := by
  have hread : Storage.decode wideBlob = .ok [("a", .bool true)] := rfl
  obtain ⟨c, written, hblob, -, hwritten, hle, hagain, -⟩ := encode_of_decode hread
  have heq : written = preamble ++ [4, 1, 0x61, 0x0b, 1] := by
    cases hwritten
    rfl
  refine ⟨hread, c.position, written, hwritten, heq, ?_, hle, hagain⟩
  cases hblob
  rw [heq]
  decide

end LevinNet.Storage
