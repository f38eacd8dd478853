import LevinNet.Proofs.Storage.NormalForm

/-
More input behind a blob changes nothing that was read, and a blob that is cut off is always found out.

   1. A result is `Settled` if no more input can change it: it is a value, or an error that is not about
      the end of the input. A read is `Steady` if it comes to its settled results on every longer input
      too, with the additional bytes left over.
   2. Every read of the cursor is steady, and steady reads put together are steady (`steady_bind`,
      `steady_times`); so are, by induction on the levels, the readers of sections and arrays
      (`steady_within`) and that of blobs (`steady_blob`).
   3. A written tree is read to its last byte. So what is cut off of it is no blob, and the only errors
      that are left for it are those about the end of the input (`decode_append`).
-/
namespace LevinNet

/-- Whether an error is about the end of the input: bytes are missing, or there are too few for a count. -/
def StorageError.isShortage : StorageError → Bool
  | .truncated _ _ | .countTooLarge _ _ => true
  | _ => false

namespace Varint

/-- What a string decodes to is decided by its first bytes. -/
theorem decode_append {bs : Bytes} {width n : Nat} (h : decode bs = .ok (width, n)) (more : Bytes) :
    decode (bs ++ more) = .ok (width, n) ∧ width ≤ bs.length := by
  obtain ⟨hle, -⟩ := form_of_decode h
  exact ⟨decode_of_take h (List.take_append_of_le_length hle), hle⟩

/-- A width that is not supported is not, whatever comes behind it. -/
theorem decode_append_error {bs : Bytes} {e : VarintError} (h : decode bs = .error e)
    (he : (StorageError.ofVarint e).isShortage = false) (more : Bytes) :
    decode (bs ++ more) = .error e := by
  cases bs with
  | nil =>
    cases h
    cases he
  | cons first bs =>
    rw [decode] at h
    rw [List.cons_append, decode]
    cases hwidth : announcedWidth first with
    | none => simpa only [hwidth] using h
    | some width =>
      simp only [hwidth] at h
      split at h <;> cases h
      cases he

end Varint

namespace Storage

/-- A cursor with more input behind what is left. -/
def Cursor.extend (c : Cursor) (more : Bytes) : Cursor := { c with rest := c.rest ++ more }

namespace Read

variable {α β : Type}

/-- A result with more input left over. -/
def extended (more : Bytes) : EStateM.Result StorageError Cursor α → EStateM.Result StorageError Cursor α
  | .ok a c => .ok a (c.extend more)
  | .error e c => .error e (c.extend more)

/-- Whether a result is none about the end of the input. -/
def Settled : EStateM.Result StorageError Cursor α → Prop
  | .ok _ _ => True
  | .error e _ => e.isShortage = false

/-- The read comes to its settled results on every longer input too. -/
def Steady (r : Read α) : Prop :=
  ∀ (c : Cursor) (more : Bytes), Settled (r c) → r (c.extend more) = extended more (r c)

/-! ## Steady reads -/

theorem steady_pure (a : α) : Steady (pure a) := fun _ _ _ => rfl

theorem steady_throw (e : StorageError) : Steady (throw e : Read α) := fun _ _ _ => rfl

theorem steady_bind {r : Read α} {f : α → Read β} (hr : Steady r) (hf : ∀ a, Steady (f a)) :
    Steady (r >>= f) := by
  intro c more hsettled
  cases h : r c with
  | ok a c₁ =>
    have hmore := hr c more (by rw [h]; trivial)
    rw [h] at hmore
    rw [bind_of_ok h] at hsettled ⊢
    rw [bind_of_ok hmore]
    exact hf a c₁ more hsettled
  | error e c₁ =>
    rw [bind_of_error h] at hsettled ⊢
    have hmore := hr c more (by rw [h]; exact hsettled)
    rw [h] at hmore
    exact bind_of_error hmore f

theorem steady_times {r : Read α} (hr : Steady r) (n : Nat) : Steady (times n r) := by
  induction n with
  | zero => exact steady_pure []
  | succ n ih => exact steady_bind hr fun a => steady_bind ih fun as => steady_pure (a :: as)

/-- A check before a read. -/
theorem steady_check {p : Prop} [Decidable p] {e : StorageError} {r : Read α} (hr : Steady r) :
    Steady (if p then throw e >>= fun _ : Unit => r else r) := by
  split
  · exact steady_bind (steady_throw e) fun _ => hr
  · exact hr

/-! ## The reads of a cursor -/

theorem steady_bytes (n : Nat) : Steady (bytes n) := by
  intro c more hsettled
  rw [bytes] at hsettled ⊢
  rw [bytes]
  split at hsettled
  · next hholds =>
    have hle := (Bytes.holds_iff _ _).1 hholds
    have hmore : Bytes.holds n (c.extend more).rest = true := by
      rw [Bytes.holds_iff, Cursor.extend, List.length_append]
      omega
    rw [if_pos hholds, if_pos hmore]
    simp only [extended, Cursor.extend, List.take_append_of_le_length hle,
      List.drop_append_of_le_length hle]
  · cases hsettled

theorem steady_byte : Steady byte := by
  rintro ⟨rest, position, depth⟩ more hsettled
  cases rest with
  | nil => cases hsettled
  | cons b rest => rfl

theorem steady_number (width : Nat) : Steady (number width) :=
  steady_bind (steady_bytes width) fun _ => steady_pure _

theorem steady_varint : Steady varint := by
  intro c more hsettled
  rw [varint] at hsettled ⊢
  rw [varint]
  cases h : Varint.decode c.rest with
  | ok found =>
    obtain ⟨width, n⟩ := found
    obtain ⟨hmore, hle⟩ := Varint.decode_append h more
    simp only [Cursor.extend, hmore, extended, List.drop_append_of_le_length hle]
  | error e =>
    rw [h] at hsettled
    simp only [Cursor.extend, Varint.decode_append_error h hsettled more, extended]

/-- A count that fits into an input fits into a longer one. -/
theorem steady_count (minSize : Nat) : Steady (count minSize) := by
  refine steady_bind steady_varint fun n c more hsettled => ?_
  split at hsettled
  · next hholds =>
    have hmore : Bytes.holds (n * minSize) (c.extend more).rest = true := by
      rw [Bytes.holds_iff] at hholds
      rw [Bytes.holds_iff, Cursor.extend, List.length_append]
      omega
    rw [if_pos hholds, if_pos hmore]
    rfl
  · cases hsettled

theorem steady_descend : Steady descend := fun _ _ _ => rfl

theorem steady_ascend : Steady ascend := fun _ _ _ => rfl

/-! ## Trees -/

section
variable {readSection : Read Section} {readArray : Kind → Read Value}

theorem steady_value (hs : Steady readSection) (k : Kind) : Steady (value readSection k) := by
  cases k with
  | string => exact steady_bind (steady_count 1) fun n => steady_bind (steady_bytes n) fun _ => steady_pure _
  | object => exact steady_bind hs fun _ => steady_pure _
  | array => exact steady_throw _
  | uint8 | bool => exact steady_bind steady_byte fun _ => steady_pure _
  | _ => exact steady_bind (steady_number _) fun _ => steady_pure _

theorem steady_tagged (hs : Steady readSection) (ha : ∀ k, Steady (readArray k)) (tag : UInt8) :
    Steady (tagged readSection readArray tag) := by
  rw [tagged]
  split
  · exact steady_throw _
  · next k _ =>
    split
    · exact ha k
    · split
      · exact steady_throw _
      · exact steady_value hs k

theorem steady_entry (hs : Steady readSection) (ha : ∀ k, Steady (readArray k)) :
    Steady (entry readSection readArray) := by
  refine steady_bind steady_byte fun length => steady_bind (steady_bytes _) fun label => ?_
  split
  · exact steady_throw _
  · exact steady_bind steady_byte fun tag =>
      steady_bind (steady_tagged hs ha tag) fun v => steady_pure _

theorem steady_element (hs : Steady readSection) (ha : ∀ k, Steady (readArray k)) (k : Kind) :
    Steady (element readSection readArray k) := by
  by_cases hk : k = .array
  · subst hk
    refine steady_bind steady_byte fun tag => ?_
    split
    · exact steady_throw _
    · exact steady_tagged hs ha tag
  · rw [element_eq_value hk]
    exact steady_value hs k

end

theorem steady_within (levels : Nat) :
    Steady (sectionWithin levels) ∧ ∀ k, Steady (arrayWithin levels k) := by
  induction levels with
  | zero => exact ⟨steady_throw _, fun k => steady_throw _⟩
  | succ levels ih =>
    obtain ⟨hs, ha⟩ := ih
    constructor
    · rw [sectionWithin_succ]
      exact steady_bind steady_descend fun _ => steady_bind
        (steady_bind (steady_count 3) (steady_times (steady_entry hs ha)))
        fun entries => steady_bind steady_ascend fun _ => steady_pure entries
    · intro k
      rw [arrayWithin_succ]
      refine steady_bind steady_descend fun _ => steady_bind
        (steady_bind (steady_count k.minSize) (steady_times (steady_element hs ha k)))
        fun items => steady_bind steady_ascend fun _ => ?_
      split
      · exact steady_pure _
      · exact steady_throw _

/-- More input opens no level and closes none. -/
theorem steady_section : Steady Read.section := fun c =>
  (steady_within (maxDepth - c.depth)).1 c

theorem steady_blob : Steady blob :=
  steady_bind (steady_number 4) fun _ => steady_check <|
  steady_bind (steady_number 4) fun _ => steady_check <|
  steady_bind steady_byte fun _ => steady_check steady_section

end Read

/-! ## Blobs -/

theorem blob_of_decode {bs : Bytes} {root : Section} (h : Storage.decode bs = .ok root) :
    ∃ c, Read.blob (Cursor.ofBytes bs) = .ok root c := by
  rw [Storage.decode] at h
  split at h
  · next c hblob =>
    cases h
    exact ⟨c, hblob⟩
  · cases h

theorem blob_of_decode_error {bs : Bytes} {e : StorageError} (h : Storage.decode bs = .error e) :
    ∃ c, Read.blob (Cursor.ofBytes bs) = .error e c := by
  rw [Storage.decode] at h
  split at h
  · cases h
  · next c hblob =>
    cases h
    exact ⟨c, hblob⟩

/-- A blob that is read is read in front of any more input, and all of it is left over. -/
theorem blob_append {p : Bytes} {root : Section} {c : Cursor}
    (h : Read.blob (Cursor.ofBytes p) = .ok root c) (x : Bytes) :
    Read.blob (Cursor.ofBytes (p ++ x)) = .ok root (c.extend x) := by
  have hmore := Read.steady_blob (Cursor.ofBytes p) x (by rw [h]; trivial)
  rwa [h] at hmore

/-- An input that is refused for what it holds is refused for the same in front of any more input. -/
theorem blob_append_error {p : Bytes} {e : StorageError} {c : Cursor}
    (h : Read.blob (Cursor.ofBytes p) = .error e c) (he : e.isShortage = false) (x : Bytes) :
    Read.blob (Cursor.ofBytes (p ++ x)) = .error e (c.extend x) := by
  have hmore := Read.steady_blob (Cursor.ofBytes p) x (by rw [h]; exact he)
  rwa [h] at hmore

/-- What is cut off of an input that is read to its last byte is refused, for being cut off. -/
theorem decode_of_cut {p x : Bytes} {root : Section} {position depth : Nat} (hx : x ≠ [])
    (h : Read.blob (Cursor.ofBytes (p ++ x)) = .ok root ⟨[], position, depth⟩) :
    ∃ e, Storage.decode p = .error e ∧ e.isShortage = true := by
  cases hp : Storage.decode p with
  | ok t =>
    -- the reading of `p` would leave `x` over
    obtain ⟨c, hblob⟩ := blob_of_decode hp
    rw [blob_append hblob x] at h
    obtain ⟨-, hc⟩ := EStateM.Result.ok.inj h
    exact absurd (List.append_eq_nil_iff.1 (congrArg Cursor.rest hc)).2 hx
  | error e =>
    refine ⟨e, rfl, ?_⟩
    cases he : e.isShortage with
    | true => rfl
    | false =>
      obtain ⟨c, hblob⟩ := blob_of_decode_error hp
      rw [blob_append_error hblob he x] at h
      cases h

/-- **Blobs are self-delimiting.** What an input decodes to, it decodes to in front of any more input,
and so it is with an error that is not about the end of the input. So every proper prefix of a written
blob is refused, always with an error about the end of the input. -/
theorem self_delimiting :
    (∀ (p x : Bytes) (root : Section), Storage.decode p = .ok root →
      Storage.decode (p ++ x) = .ok root) ∧
    (∀ (p x : Bytes) (e : StorageError), Storage.decode p = .error e → e.isShortage = false →
      Storage.decode (p ++ x) = .error e) ∧
    ∀ (root : Section) (bs : Bytes), root.Uniform → root.depth ≤ maxDepth →
      Storage.encode root = .ok bs → ∀ p, p <+: bs → p ≠ bs →
        ∃ e, Storage.decode p = .error e ∧ e.isShortage = true := by
  refine ⟨fun p x root h => ?_, fun p x e h he => ?_, ?_⟩
  · obtain ⟨c, hblob⟩ := blob_of_decode h
    simp only [Storage.decode, blob_append hblob]
  · obtain ⟨c, hblob⟩ := blob_of_decode_error h
    simp only [Storage.decode, blob_append_error hblob he]
  · rintro root bs hu hd hbs p ⟨x, rfl⟩ hne
    obtain ⟨body, hbody, h⟩ := bind_eq_ok.1 hbs
    have hform := form_of_encode (.object root) body hbody hu
    have hread := read_blob_of_form ⟨hform, hd⟩
    rw [Except.ok.inj h] at hread
    exact decode_of_cut (fun hx => hne (by rw [hx, List.append_nil])) hread

/-- A tree of one string, and its blob. -/
def oneString : Section := [("a", .string [1, 2, 3])]

def oneStringBlob : Bytes := preamble ++ [4, 1, 0x61, 0x0a, 12, 1, 2, 3]

/-- The blob is refused where it is cut off in front of its count of entries, behind it, and in the
string; and neither a blob nor a bad tag is any other with a byte behind it. -/
theorem self_delimiting_oneString :
    Storage.encode oneString = .ok oneStringBlob ∧
    (∀ n ∈ [9, 10, 15], ∃ e, Storage.decode (oneStringBlob.take n) = .error e ∧ e.isShortage = true) ∧
    Storage.decode (oneStringBlob ++ [7]) = .ok oneString ∧
    Storage.decode ((preamble ++ [4, 0, 0x0d, 0]) ++ [7]) = .error (.unknownType 0x0d) := by
  have hu : oneString.Uniform := ⟨trivial, trivial⟩
  have hcut := self_delimiting.2.2 oneString oneStringBlob hu (by decide) rfl
  refine ⟨rfl, ?_, ?_, ?_⟩
  · intro n hn
    apply hcut _ (List.take_prefix n _)
    revert n
    decide
  · exact self_delimiting.1 oneStringBlob [7] oneString rfl
  · exact self_delimiting.2.1 (preamble ++ [4, 0, 0x0d, 0]) [7] _ rfl rfl

end Storage

end LevinNet
