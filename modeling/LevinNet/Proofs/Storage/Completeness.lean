import LevinNet.Proofs.Storage.Grammar
import LevinNet.Proofs.Storage.Taking
import LevinNet.Storage.Decoding

/-
The reader accepts every form. Given a form of a section and a number of levels, the reader takes
exactly that form and yields the section if it is nested no deeper than the levels, and else fails for
the depth and for nothing else (`gives_section`). In particular no count of a form is refused.

The induction is on the levels, and inside one level on the entries or the elements. One level asks of
the level below only what `SectionsWithin` and `ArraysWithin` say.
-/
namespace LevinNet.Storage.Read

/-- What a tree comes to when so many levels are left: the tree, or one level too many. -/
def upTo {α : Type} (levels depth : Nat) (a : α) : Except StorageError α :=
  if depth ≤ levels then .ok a else .error .depthExceeded

theorem upTo_of_le {α : Type} {levels depth : Nat} (h : depth ≤ levels) (a : α) :
    upTo levels depth a = .ok a := if_pos h

theorem upTo_of_lt {α : Type} {levels depth : Nat} (h : levels < depth) (a : α) :
    upTo levels depth a = .error .depthExceeded := if_neg (Nat.not_le.2 h)

/-- What is read is put into something that is nested as deep. -/
theorem gives_map_upTo {α β : Type} {r : Read α} {bs : Bytes} {levels depth : Nat} {a : α}
    (hr : Gives r bs (upTo levels depth a)) (f : α → β) :
    Gives (r >>= fun a => pure (f a)) bs (upTo levels depth (f a)) := by
  by_cases hd : depth ≤ levels
  · rw [upTo_of_le hd] at hr ⊢
    exact gives_map hr f
  · have hd : levels < depth := Nat.not_le.1 hd
    rw [upTo_of_lt hd] at hr ⊢
    have h := gives_bind_error (f := fun a => pure (f a)) hr []
    rwa [List.append_nil] at h

/-- A read inside a level of its own, which is closed behind it. -/
theorem gives_level {α β : Type} {r : Read α} {f : α → Read β} {bs : Bytes} {levels depth : Nat}
    {a : α} {b : β} (hr : Gives r bs (upTo levels depth a)) (hf : f a = pure b) :
    Gives (descend >>= fun _ => r >>= fun a => ascend >>= fun _ => f a) bs
      (upTo (levels + 1) (depth + 1) b) := by
  have hdescend : ∀ rest position opened, descend ⟨rest, position, opened⟩ =
      .ok () ⟨rest, position, opened + 1⟩ := fun _ _ _ => rfl
  have hascend : ∀ rest position opened, ascend ⟨rest, position, opened + 1⟩ =
      .ok () ⟨rest, position, opened⟩ := fun _ _ _ => rfl
  by_cases hd : depth ≤ levels
  · rw [upTo_of_le hd] at hr
    rw [upTo_of_le (Nat.succ_le_succ hd)]
    intro rest position opened
    rw [bind_of_ok (hdescend _ _ _), bind_of_ok (hr _ _ _), bind_of_ok (hascend _ _ _), hf]
    rfl
  · have hd : levels < depth := Nat.not_le.1 hd
    rw [upTo_of_lt hd] at hr
    rw [upTo_of_lt (Nat.succ_lt_succ hd)]
    intro rest position opened
    obtain ⟨c, hc⟩ := hr rest position (opened + 1)
    exact ⟨c, by rw [bind_of_ok (hdescend _ _ _), bind_of_error hc]⟩

/-- `readSection` reads every section that is nested no deeper than `levels`, and no other. -/
def SectionsWithin (levels : Nat) (readSection : Read Section) : Prop :=
  ∀ (s : Section) (bs : Bytes), (Value.object s).Form bs →
    Gives readSection bs (upTo levels s.depth s)

/-- `readArray` reads every array that is nested no deeper than `levels`, and no other. -/
def ArraysWithin (levels : Nat) (readArray : Kind → Read Value) : Prop :=
  ∀ (k : Kind) (items : List Value) (bs : Bytes), (Value.array k items).Form bs →
    Gives (readArray k) bs (upTo levels (Value.array k items).depth (.array k items))

/-! ## Values -/

section
variable {levels : Nat} {readSection : Read Section} {readArray : Kind → Read Value}

/-- A value that opens no level and is made of the number in its bytes. -/
theorem gives_word {width n : Nat} {f : Nat → Value} {v : Value} (hn : n < Bytes.bound width)
    (hv : f n = v) :
    Gives (number width >>= fun n => pure (f n)) (Bytes.ofNat width n) (upTo levels 0 v) := by
  rw [upTo_of_le (Nat.zero_le _), ← hv]
  have h := gives_map (gives_number width n) f
  rwa [Nat.mod_eq_of_lt hn] at h

/-- A value that is no array is read by its kind. -/
theorem gives_value (hs : SectionsWithin levels readSection) {v : Value} {bs : Bytes}
    (h : v.Form bs) (hk : v.kind ≠ .array) :
    Gives (value readSection v.kind) bs (upTo levels v.depth v) := by
  -- the count of a string is checked against its bytes, that of a section or an array further down
  cases h with
  | int64 n => exact gives_word n.toUInt64.toNat_lt (by simp)
  | int32 n => exact gives_word n.toUInt32.toNat_lt (by simp)
  | int16 n => exact gives_word n.toUInt16.toNat_lt (by simp)
  | int8 n => exact gives_word n.toUInt8.toNat_lt (by simp)
  | uint64 n => exact gives_word n.toNat_lt (by simp)
  | uint32 n => exact gives_word n.toNat_lt (by simp)
  | uint16 n => exact gives_word n.toNat_lt (by simp)
  | uint8 n => exact gives_map (gives_byte n) Value.uint8
  | double x => exact gives_word x.bits.toNat_lt (by simp)
  | bool b => exact gives_map (gives_byte b) fun b => Value.bool (b != 0)
  | @string bs count hc =>
    exact gives_count hc (by omega) (gives_map (gives_bytes bs) Value.string)
  | @object entries count body hc he =>
    exact gives_map_upTo (hs entries _ (.object hc he)) Value.object
  | array _ _ => exact absurd rfl hk

/-- A value is read behind its tag. -/
theorem gives_tagged (hs : SectionsWithin levels readSection) (ha : ArraysWithin levels readArray)
    {v : Value} {bs : Bytes} (h : v.Form bs) :
    Gives (tagged readSection readArray v.tag) bs (upTo levels v.depth v) := by
  -- bit 7 of a tag tells an array from all else
  by_cases hk : v.kind = .array
  · obtain ⟨k, items, rfl⟩ := Value.exists_of_kind_array hk
    have hread : tagged readSection readArray (Value.array k items).tag = readArray k := by
      simp only [tagged, Value.tag, Kind.ofTag?_arrayTag_mod, Kind.le_arrayTag, if_true]
    rw [hread]
    exact ha k items bs h
  · have hread : tagged readSection readArray v.tag = value readSection v.kind := by
      rw [Value.tag_of_kind_ne hk]
      simp only [tagged, Kind.ofTag?_tag_mod, Kind.not_le_tag, if_false, hk]
    rw [hread]
    exact gives_value hs h hk

/-! ## Entries and elements -/

/-- A name, its length byte included, and the tagged value behind it. -/
theorem gives_entry (hs : SectionsWithin levels readSection) (ha : ArraysWithin levels readArray)
    {name : String} {v : Value} {body : Bytes} (hname : (Utf8.encode name).length ≤ maxNameLength)
    (h : v.Form body) :
    Gives (entry readSection readArray)
      (UInt8.ofNat (Utf8.encode name).length :: (Utf8.encode name ++ v.tag :: body))
      (upTo levels v.depth (name, v)) := by
  -- a name that is short enough has its whole length in the length byte
  have hlength : (UInt8.ofNat (Utf8.encode name).length).toNat = (Utf8.encode name).length := by
    rw [UInt8.toNat_ofNat']
    simp only [maxNameLength] at hname
    omega
  have hlabel : Gives (bytes (UInt8.ofNat (Utf8.encode name).length).toNat) (Utf8.encode name)
      (.ok (Utf8.encode name)) := by
    rw [hlength]
    exact gives_bytes _
  refine gives_byte_bind (gives_bind hlabel ?_)
  rw [Utf8.decode?_encode]
  exact gives_byte_bind (gives_map_upTo (gives_tagged hs ha h) fun v => (name, v))

/-- Reads put together: the first one that fails decides, and otherwise all are done. -/
theorem gives_cons {α : Type} {r : Read α} {n d ds : Nat} {bs others : Bytes} {a : α} {as : List α}
    (hr : Gives r bs (upTo levels d a)) (hrs : Gives (times n r) others (upTo levels ds as)) :
    Gives (times (n + 1) r) (bs ++ others) (upTo levels (max d ds) (a :: as)) := by
  show Gives (r >>= fun a => times n r >>= fun as => pure (a :: as)) _ _
  by_cases hd : d ≤ levels
  · rw [upTo_of_le hd] at hr
    refine gives_bind hr ?_
    by_cases hds : ds ≤ levels
    · rw [upTo_of_le hds] at hrs
      rw [upTo_of_le (Nat.max_le.2 ⟨hd, hds⟩)]
      exact gives_map hrs (a :: ·)
    · have hds : levels < ds := Nat.not_le.1 hds
      rw [upTo_of_lt hds] at hrs
      rw [upTo_of_lt (by omega)]
      have h := gives_bind_error (f := fun as => pure (a :: as)) hrs []
      rwa [List.append_nil] at h
  · have hd : levels < d := Nat.not_le.1 hd
    rw [upTo_of_lt hd] at hr
    rw [upTo_of_lt (by omega)]
    exact gives_bind_error hr others

theorem gives_entries (hs : SectionsWithin levels readSection) (ha : ArraysWithin levels readArray)
    {entries : Section} {bs : Bytes} (h : EntriesForm entries bs) :
    Gives (times entries.length (entry readSection readArray)) bs
      (upTo levels (Value.entriesDepth entries) entries) := by
  induction entries generalizing bs with
  | nil =>
    cases h
    show Gives _ [] (upTo levels 0 [])
    rw [upTo_of_le (Nat.zero_le _)]
    exact gives_pure []
  | cons first entries ih =>
    cases h with
    | @cons name v body _ others hname hv hes =>
      have h := gives_cons (gives_entry hs ha hname hv) (ih hes)
      rw [List.cons_append, List.append_assoc, List.cons_append] at h
      exact h

/-- Elements that are no arrays are read by their kind, without a tag. -/
theorem element_eq_value {k : Kind} (hk : k ≠ .array) :
    element readSection readArray k = value readSection k := by
  cases k <;> first | rfl | exact absurd rfl hk

theorem gives_items (hs : SectionsWithin levels readSection) (ha : ArraysWithin levels readArray)
    {k : Kind} {items : List Value} {bs : Bytes} (h : ItemsForm k items bs) :
    Gives (times items.length (element readSection readArray k)) bs
      (upTo levels (Value.itemsDepth items) items) := by
  induction items generalizing bs with
  | nil =>
    cases h
    show Gives _ [] (upTo levels 0 [])
    rw [upTo_of_le (Nat.zero_le _)]
    exact gives_pure []
  | cons v items ih =>
    cases h with
    | @cons _ body _ others hk hv his =>
      have hfirst : Gives (element readSection readArray v.kind) body (upTo levels v.depth v) := by
        rw [element_eq_value hk]
        exact gives_value hs hv hk
      exact gives_cons hfirst (ih his)
    | @tagged _ body _ others hk hv his =>
      -- an array in an array states its own tag, and the reader insists on an array's
      obtain ⟨l, below, rfl⟩ := Value.exists_of_kind_array hk
      have hnot : ¬ (Value.array l below).tag < 128 := UInt8.not_lt.2 (Kind.le_arrayTag l)
      have hfirst : Gives (element readSection readArray .array)
          ((Value.array l below).tag :: body)
          (upTo levels (Value.array l below).depth (.array l below)) := by
        refine gives_byte_bind ?_
        rw [if_neg hnot]
        exact gives_tagged hs ha hv
      exact gives_cons hfirst (ih his)

end

/-! ## Levels -/

theorem arrayOf_items {k : Kind} {items : List Value} {bs : Bytes} (h : ItemsForm k items bs) :
    Value.arrayOf k items = .ok (.array k items) := by
  have hnone : items.find? (fun v => v.kind != k) = none := by
    rw [List.find?_eq_none]
    intro v hv
    simp [kind_of_mem_items h v hv]
  simp only [Value.arrayOf, hnone]

theorem sectionWithin_succ (levels : Nat) :
    sectionWithin (levels + 1) = (descend >>= fun _ =>
      (count 3 >>= fun n => times n (entry (sectionWithin levels) (arrayWithin levels))) >>=
        fun entries => ascend >>= fun _ => pure entries) := by
  rw [sectionWithin]
  simp only [bind_assoc]

theorem arrayWithin_succ (levels : Nat) (k : Kind) :
    arrayWithin (levels + 1) k = (descend >>= fun _ =>
      (count k.minSize >>= fun n => times n (element (sectionWithin levels) (arrayWithin levels) k)) >>=
        fun items => ascend >>= fun _ =>
          match Value.arrayOf k items with
          | .ok v => pure v
          | .error e => throw e) := by
  rw [arrayWithin]
  congr 1
  funext _
  exact (bind_assoc _ _ _).symm

/-- One level more reads the sections and arrays that hold what the level below reads. -/
theorem within_succ {levels : Nat} (hs : SectionsWithin levels (sectionWithin levels))
    (ha : ArraysWithin levels (arrayWithin levels)) :
    SectionsWithin (levels + 1) (sectionWithin (levels + 1)) ∧
      ArraysWithin (levels + 1) (arrayWithin (levels + 1)) := by
  constructor
  · intro s bs h
    cases h with
    | object hc he =>
      have hread : Gives (count 3 >>= fun n =>
          times n (entry (sectionWithin levels) (arrayWithin levels))) _ _ :=
        gives_count hc (length_of_entries he) (gives_entries hs ha he)
      rw [sectionWithin_succ]
      exact gives_level hread rfl
  · intro k items bs h
    cases h with
    | array hc hi =>
      have hread : Gives (count k.minSize >>= fun n =>
          times n (element (sectionWithin levels) (arrayWithin levels) k)) _ _ :=
        gives_count hc (minSize_le_of_items hi) (gives_items hs ha hi)
      rw [arrayWithin_succ]
      exact gives_level hread (by rw [arrayOf_items hi])

theorem gives_within (levels : Nat) :
    SectionsWithin levels (sectionWithin levels) ∧ ArraysWithin levels (arrayWithin levels) := by
  induction levels with
  | zero =>
    constructor
    · intro s bs _
      have hd : 0 < s.depth := Nat.succ_pos _
      rw [upTo_of_lt hd]
      exact gives_throw bs .depthExceeded
    · intro k items bs _
      have hd : 0 < (Value.array k items).depth := Nat.succ_pos _
      rw [upTo_of_lt hd]
      exact gives_throw bs .depthExceeded
  | succ levels ih => exact within_succ ih.1 ih.2

/-- A form of a section is read from a fresh cursor to its last byte, if it is nested no deeper than
is read, and else refused for its depth. -/
theorem gives_section {s : Section} {bs : Bytes} (h : (Value.object s).Form bs) (rest : Bytes) :
    (s.depth ≤ maxDepth →
      Read.section (Cursor.ofBytes (bs ++ rest)) = .ok s ⟨rest, bs.length, 0⟩) ∧
    (maxDepth < s.depth → ∃ c, Read.section (Cursor.ofBytes (bs ++ rest)) = .error .depthExceeded c) := by
  have hgives := (gives_within maxDepth).1 s bs h
  constructor
  · intro hd
    rw [upTo_of_le hd] at hgives
    have h := hgives rest 0 0
    rwa [Nat.zero_add] at h
  · intro hd
    rw [upTo_of_lt hd] at hgives
    exact hgives rest 0 0

end LevinNet.Storage.Read
