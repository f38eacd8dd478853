import LevinNet.Proofs.Storage.Limits
import LevinNet.Proofs.Storage.Truncation

/-
Why an input is refused.

   1. `Leads part pre place` says that in a part of a blob the bytes `pre` end right in front of a count
      or a tag: they are the grammar's forms of all that comes before it. `Refused part bs e` says of
      each error that can be returned what is wrong with the input, and where. There is no such reason
      for a mixed array, a name that is too long or a number that is too large.
   2. Every primitive read that fails has a reason (`refused_bytes`, `refused_count`), and a reason
      inside a part is one of the whole (`Refused.lift`). What a reader took before it failed is a form
      by soundness, so by induction on the levels whatever is refused is refused for a reason
      (`refused_within`, `refused_of_decode`).
   3. The decoder never asks for the value of an array without a tag: whatever is put in this place, it
      is the same decoder (`decodeOr_eq`).
-/
namespace LevinNet.Storage

/-! ## Places in a blob -/

/-- What states how many elements, or bytes, follow. -/
inductive Container where
  | section
  | array (k : Kind)
  | string

/-- The fewest bytes that one element takes: an entry has a length byte, a tag and a value. -/
def Container.minSize : Container → Nat
  | .section => 3
  | .array k => k.minSize
  | .string => 1

/-- Where a blob may be at fault for a count or a tag. -/
inductive Place where
  | count (container : Container)
  /-- The tag of an entry of a section. -/
  | entryTag
  /-- The tag of an element of an array of arrays. -/
  | elementTag

/-- What is read in one piece. -/
inductive Part where
  | blob
  | section
  /-- The count and the elements of an array of a kind. -/
  | array (k : Kind)
  /-- A value of a kind, without its tag. -/
  | value (k : Kind)
  /-- The value behind a tag. -/
  | tagged (tag : UInt8)

/-- The front of a section, up to the tag of one of its entries. -/
inductive BeforeTag : Bytes → Prop where
  | intro {n : Nat} {count : Bytes} {entries : Section} {body : Bytes} {name : String} :
    Varint.Form n count → EntriesForm entries body → entries.length < n →
    (Utf8.encode name).length ≤ maxNameLength →
    BeforeTag (count ++ (body ++ UInt8.ofNat (Utf8.encode name).length :: Utf8.encode name))

/-- The front of an array of a kind, up to one of its elements. -/
inductive BeforeElement (k : Kind) : Bytes → Prop where
  | intro {n : Nat} {count : Bytes} {items : List Value} {body : Bytes} :
    Varint.Form n count → ItemsForm k items body → items.length < n →
    BeforeElement k (count ++ body)

/-- `pre` is the front of a part, up to a place in it. -/
inductive Leads : Part → Bytes → Place → Prop where
  | sectionCount : Leads .section [] (.count .section)
  | arrayCount (k : Kind) : Leads (.array k) [] (.count (.array k))
  | stringCount : Leads (.value .string) [] (.count .string)
  | entryTag {pre : Bytes} : BeforeTag pre → Leads .section pre .entryTag
  | entry {pre inner : Bytes} {tag : UInt8} {place : Place} :
    BeforeTag pre → Leads (.tagged tag) inner place → Leads .section (pre ++ tag :: inner) place
  | elementTag {pre : Bytes} : BeforeElement .array pre → Leads (.array .array) pre .elementTag
  | nested {pre inner : Bytes} {tag : UInt8} {place : Place} :
    BeforeElement .array pre → 128 ≤ tag → Leads (.tagged tag) inner place →
    Leads (.array .array) (pre ++ tag :: inner) place
  | element {k : Kind} {pre inner : Bytes} {place : Place} :
    k ≠ .array → BeforeElement k pre → Leads (.value k) inner place →
    Leads (.array k) (pre ++ inner) place
  | object {pre : Bytes} {place : Place} :
    Leads .section pre place → Leads (.value .object) pre place
  | value {k : Kind} {pre : Bytes} {place : Place} :
    k ≠ .array → Leads (.value k) pre place → Leads (.tagged k.tag) pre place
  | array {k : Kind} {pre : Bytes} {place : Place} :
    Leads (.array k) pre place → Leads (.tagged k.arrayTag) pre place
  | root {pre : Bytes} {place : Place} :
    Leads .section pre place → Leads .blob (preamble ++ pre) place

/-- The low seven bits of a tag are those of a kind. -/
def NamesKind (tag : UInt8) : Prop := 0x01 ≤ tag % 0x80 ∧ tag % 0x80 ≤ 0x0d

/-- The tag stands for no value in its place: there is no kind in its low seven bits, or it is the
tag of arrays without the top bit in front of an entry's value, or it has no top bit although an array
should follow. -/
inductive Misplaced : Place → UInt8 → Prop where
  | noKind {place : Place} {tag : UInt8} :
    place = .entryTag ∨ place = .elementTag → ¬ NamesKind tag → Misplaced place tag
  | bareArray : Misplaced .entryTag 0x0d
  | notArray {tag : UInt8} : tag < 0x80 → Misplaced .elementTag tag

/-- A part is refused with an error, for a reason that the input bears out. -/
inductive Refused (part : Part) (bs : Bytes) : StorageError → Prop where
  | badSignatureA (found : UInt32) : Refused part bs (.badSignatureA found)
  | badSignatureB (found : UInt32) : Refused part bs (.badSignatureB found)
  | badVersion (found : UInt8) : Refused part bs (.badVersion found)
  | truncated {needed available : Nat} : available < needed → Refused part bs (.truncated needed available)
  | unsupportedWidth : Refused part bs (.varint .unsupportedWidth)
  | depthExceeded : Refused part bs .depthExceeded
  | invalidName : Refused part bs .invalidName
  | countTooLarge {pre count rest : Bytes} {container : Container} {n : Nat} :
    bs = pre ++ (count ++ rest) → Leads part pre (.count container) → Varint.Form n count →
    rest.length < n * container.minSize → Refused part bs (.countTooLarge n rest.length)
  | unknownType {pre rest : Bytes} {tag : UInt8} {place : Place} :
    bs = pre ++ tag :: rest → Leads part pre place → Misplaced place tag →
    Refused part bs (.unknownType tag)

/-- What is wrong in a piece of a part is wrong in the part. -/
theorem Refused.lift {part whole : Part} {own bs : Bytes} {e : StorageError} (h : Refused part bs e)
    (hleads : ∀ pre place, Leads part pre place → Leads whole (own ++ pre) place) :
    Refused whole (own ++ bs) e := by
  cases h with
  | badSignatureA found => exact .badSignatureA found
  | badSignatureB found => exact .badSignatureB found
  | badVersion found => exact .badVersion found
  | truncated hlt => exact .truncated hlt
  | unsupportedWidth => exact .unsupportedWidth
  | depthExceeded => exact .depthExceeded
  | invalidName => exact .invalidName
  | countTooLarge heq hpre hform hlt =>
    exact .countTooLarge (by rw [heq, List.append_assoc]) (hleads _ _ hpre) hform hlt
  | unknownType heq hpre htag =>
    exact .unknownType (by rw [heq, List.append_assoc]) (hleads _ _ hpre) htag

/-- And so it is with what is the whole of a part. -/
theorem Refused.mono {part whole : Part} {bs : Bytes} {e : StorageError} (h : Refused part bs e)
    (hleads : ∀ pre place, Leads part pre place → Leads whole pre place) : Refused whole bs e := by
  rw [← List.nil_append bs]
  exact h.lift hleads

/-! ## Tags -/

theorem not_namesKind {tag : UInt8} (h : Kind.ofTag? (tag % 128) = none) : ¬ NamesKind tag := by
  rintro ⟨hlow, hhigh⟩
  have hlow : 1 ≤ (tag % 128).toNat := UInt8.le_iff_toNat_le.1 hlow
  have hhigh : (tag % 128).toNat ≤ 13 := UInt8.le_iff_toNat_le.1 hhigh
  rw [Kind.ofTag?] at h
  generalize (tag % 128).toNat = t at h hlow hhigh
  split at h <;> first
    | simp only [imp_false] at *; omega
    | cases h

namespace Read

variable {α β : Type}

/-! ## Reads that fail -/

theorem bind_error {r : Read α} {f : α → Read β} {c c' : Cursor} {e : StorageError} :
    (r >>= f) c = .error e c' ↔
      r c = .error e c' ∨ ∃ a c₁, r c = .ok a c₁ ∧ f a c₁ = .error e c' := by
  cases h : r c with
  | ok a c₁ =>
    rw [bind_of_ok h]
    constructor
    · intro hf
      exact .inr ⟨a, c₁, rfl, hf⟩
    · rintro (hr | ⟨a', c', hr, hf⟩)
      · cases hr
      · cases hr
        exact hf
  | error e₁ c₁ => simp [bind_of_error h]

@[simp] theorem pure_error {a : α} {c c' : Cursor} {e : StorageError} :
    (pure a : Read α) c = .error e c' ↔ False := by
  show EStateM.Result.ok a c = .error e c' ↔ _
  simp

@[simp] theorem throw_error {c c' : Cursor} {e e' : StorageError} :
    (throw e : Read α) c = .error e' c' ↔ e = e' ∧ c = c' := by
  show EStateM.Result.error e c = .error e' c' ↔ _
  simp

theorem map_error {r : Read α} {f : α → β} {c c' : Cursor} {e : StorageError} :
    (r >>= fun a => pure (f a)) c = .error e c' ↔ r c = .error e c' := by
  rw [bind_error]
  simp only [pure_error, and_false, exists_false, or_false]

/-- A repeated read fails at one of the repetitions, and has done those before it. -/
theorem times_error {r : Read α} {n : Nat} {c c' : Cursor} {e : StorageError}
    (h : times n r c = .error e c') :
    ∃ m as c₁, m < n ∧ times m r c = .ok as c₁ ∧ r c₁ = .error e c' := by
  induction n generalizing c with
  | zero => simp [times] at h
  | succ n ih =>
    rcases bind_error.1 h with hfirst | ⟨a, c₁, ha, h⟩
    · exact ⟨0, [], c, Nat.succ_pos n, rfl, hfirst⟩
    · obtain ⟨m, as, c₂, hm, has, he⟩ := ih (map_error.1 h)
      refine ⟨m + 1, a :: as, c₂, Nat.succ_lt_succ hm, ?_, he⟩
      exact bind_ok.2 ⟨a, c₁, ha, bind_ok.2 ⟨as, c₂, has, rfl⟩⟩

/-- A read inside a level of its own fails inside the level or behind it. -/
theorem level_error {r : Read α} {f : α → Read β} {c c' : Cursor} {e : StorageError}
    (h : (descend >>= fun _ => r >>= fun a => ascend >>= fun _ => f a) c = .error e c') :
    r { c with depth := c.depth + 1 } = .error e c' ∨
      ∃ a c₁, r { c with depth := c.depth + 1 } = .ok a c₁ ∧ ∃ c₂, f a c₂ = .error e c' := by
  rcases bind_error.1 h with h | ⟨_, c₀, h0, h⟩
  · cases h
  · cases h0
    rcases bind_error.1 h with h | ⟨a, c₁, ha, h⟩
    · exact .inl h
    · rcases bind_error.1 h with h | ⟨_, c₂, -, h⟩
      · cases h
      · exact .inr ⟨a, c₁, ha, c₂, h⟩

variable {part : Part} {bs : Bytes} {c c' : Cursor} {e : StorageError}

theorem refused_bytes {n : Nat} (h : bytes n c = .error e c') : Refused part bs e := by
  unfold bytes at h
  split at h
  · cases h
  · next hholds =>
    cases h
    rw [Bytes.holds_iff, Nat.not_le] at hholds
    exact .truncated hholds

theorem refused_number {width : Nat} (h : number width c = .error e c') : Refused part bs e :=
  refused_bytes (map_error.1 h)

theorem refused_byte (h : byte c = .error e c') : Refused part bs e := by
  unfold byte at h
  split at h <;> cases h
  exact .truncated Nat.one_pos

/-- A number in front of the input is cut off, or of a width that is not supported. It is never too
large: the widths that are supported hold no such number. -/
theorem refused_varint (h : varint c = .error e c') : Refused part bs e := by
  unfold varint at h
  split at h
  · cases h
  · next cause hcause =>
    cases h
    revert hcause
    cases c.rest with
    | nil =>
      rintro ⟨⟩
      exact .truncated Nat.one_pos
    | cons first rest =>
      intro hcause
      simp only [Varint.decode] at hcause
      split at hcause
      · cases hcause
        exact .unsupportedWidth
      · split at hcause
        · cases hcause
        · next hholds =>
          cases hcause
          rw [Bytes.holds_iff, Nat.not_le] at hholds
          exact .truncated hholds

theorem refused_count (container : Container) (hleads : Leads part [] (.count container))
    (h : count container.minSize c = .error e c') : Refused part c.rest e := by
  rcases bind_error.1 h with h | ⟨n, c₁, hn, h⟩
  · exact refused_varint h
  · obtain ⟨digits, htook, hform⟩ := took_varint hn
    split at h
    · cases h
    · next hholds =>
      cases h
      rw [Bytes.holds_iff, Nat.not_le] at hholds
      exact .countTooLarge htook.rest hleads hform hholds

/-! ## Values -/

/-- Whatever `readSection` refuses, it refuses for a reason. -/
def SectionsRefused (readSection : Read Section) : Prop :=
  ∀ (e : StorageError) (c c' : Cursor), readSection c = .error e c' → Refused .section c.rest e

/-- Whatever `readArray` refuses, it refuses for a reason. -/
def ArraysRefused (readArray : Kind → Read Value) : Prop :=
  ∀ (k : Kind) (e : StorageError) (c c' : Cursor), readArray k c = .error e c' →
    Refused (.array k) c.rest e

section
variable {levels : Nat} {readSection : Read Section} {readArray : Kind → Read Value}

theorem refused_value (hrs : SectionsRefused readSection) {k : Kind} (hk : k ≠ .array)
    (h : value readSection k c = .error e c') : Refused (.value k) c.rest e := by
  cases k with
  | string =>
    rcases bind_error.1 h with h | ⟨n, c₁, -, h⟩
    · exact refused_count .string .stringCount h
    · exact refused_bytes (map_error.1 h)
  | object => exact (hrs e c c' (map_error.1 h)).mono fun _ _ hpre => .object hpre
  | array => exact absurd rfl hk
  | uint8 | bool => exact refused_byte (map_error.1 h)
  | _ => exact refused_number (map_error.1 h)

/-- The tag itself is refused, or what stands behind it. -/
theorem refused_tagged (hrs : SectionsRefused readSection) (hra : ArraysRefused readArray)
    {tag : UInt8} (h : tagged readSection readArray tag c = .error e c') :
    e = .unknownType tag ∧ (¬ NamesKind tag ∨ tag = 0x0d) ∨ Refused (.tagged tag) c.rest e := by
  cases hk : Kind.ofTag? (tag % 128) with
  | none =>
    simp only [tagged, hk, throw_error] at h
    exact .inl ⟨h.1.symm, .inl (not_namesKind hk)⟩
  | some k =>
    by_cases hle : 128 ≤ tag
    · simp only [tagged, hk, hle, if_true] at h
      rw [← Kind.arrayTag_of_ofTag?_mod hk hle]
      exact .inr ((hra k e c c' h).mono fun _ _ hpre => .array hpre)
    · have htag := Kind.tag_of_ofTag?_mod hk hle
      simp only [tagged, hk, hle, if_false] at h
      by_cases hne : k = .array
      · simp only [hne, if_true, throw_error] at h
        subst hne
        exact .inl ⟨h.1.symm, .inr htag.symm⟩
      · simp only [hne, if_false] at h
        rw [← htag]
        exact .inr ((refused_value hrs hne h).mono fun _ _ hpre => .value hne hpre)

/-! ## Entries and elements -/

theorem refused_entries (hs : SectionsSound levels readSection) (ha : ArraysSound levels readArray)
    (hrs : SectionsRefused readSection) (hra : ArraysRefused readArray) {n : Nat} {count : Bytes}
    {c₁ : Cursor} (hcount : Varint.Form n count) (hrest : c.rest = count ++ c₁.rest)
    (h : times n (entry readSection readArray) c₁ = .error e c') : Refused .section c.rest e := by
  obtain ⟨m, entries, c₂, hm, hread, h⟩ := times_error h
  obtain ⟨rfl, body, htbody, hform, -⟩ := formed_of_entries hs ha hread
  rcases bind_error.1 h with h | ⟨length, c₃, hlength, h⟩
  · exact refused_byte h
  rcases bind_error.1 h with h | ⟨label, c₄, hlabel, h⟩
  · exact refused_bytes h
  cases hname : Utf8.decode? label with
  | none =>
    simp only [hname, throw_error] at h
    rw [← h.1]
    exact .invalidName
  | some name =>
    simp only [hname] at h
    rcases bind_error.1 h with h | ⟨tag, c₅, htag, h⟩
    · exact refused_byte h
    obtain ⟨htlabel, hlen⟩ := took_label hlength hlabel hname
    have hbefore := BeforeTag.intro hcount hform hm hlen
    have heq : c.rest = (count ++ (body ++
        UInt8.ofNat (Utf8.encode name).length :: Utf8.encode name)) ++ tag :: c₅.rest := by
      rw [hrest, htbody.rest, htlabel.rest, (took_byte htag).rest]
      simp only [List.append_assoc, List.cons_append, List.nil_append]
    rcases refused_tagged hrs hra (map_error.1 h) with ⟨rfl, hbad | rfl⟩ | hbehind
    · exact .unknownType heq (.entryTag hbefore) (.noKind (.inl rfl) hbad)
    · exact .unknownType heq (.entryTag hbefore) .bareArray
    · rw [heq, List.append_cons]
      refine hbehind.lift fun pre place hpre => ?_
      rw [← List.append_cons]
      exact .entry hbefore hpre

theorem refused_items (hs : SectionsSound levels readSection) (ha : ArraysSound levels readArray)
    (hrs : SectionsRefused readSection) (hra : ArraysRefused readArray) {k : Kind} {n : Nat}
    {count : Bytes} {c₁ : Cursor} (hcount : Varint.Form n count) (hrest : c.rest = count ++ c₁.rest)
    (h : times n (element readSection readArray k) c₁ = .error e c') :
    Refused (.array k) c.rest e := by
  obtain ⟨m, items, c₂, hm, hread, h⟩ := times_error h
  obtain ⟨rfl, body, htbody, hform, -⟩ := formed_of_items hs ha hread
  have hbefore := BeforeElement.intro hcount hform hm
  have heq : c.rest = (count ++ body) ++ c₂.rest := by
    rw [hrest, htbody.rest, List.append_assoc]
  by_cases hk : k = .array
  · -- an element that states its own tag
    subst hk
    rcases bind_error.1 h with h | ⟨tag, c₃, htag, h⟩
    · exact refused_byte h
    rw [(took_byte htag).rest] at heq
    by_cases hlt : tag < 128
    · simp only [hlt, if_true, throw_error] at h
      rw [← h.1]
      exact .unknownType heq (.elementTag hbefore) (.notArray hlt)
    · simp only [hlt, if_false] at h
      rcases refused_tagged hrs hra h with ⟨rfl, hbad | rfl⟩ | hbehind
      · exact .unknownType heq (.elementTag hbefore) (.noKind (.inr rfl) hbad)
      · exact absurd (by decide) hlt
      · rw [heq, List.singleton_append, List.append_cons]
        refine hbehind.lift fun pre place hpre => ?_
        rw [← List.append_cons]
        exact .nested hbefore (UInt8.not_lt.1 hlt) hpre
  · rw [element_eq_value hk] at h
    rw [heq]
    exact (refused_value hrs hk h).lift fun pre place hpre => .element hk hbefore hpre

end

/-! ## Levels -/

theorem refused_succ {levels : Nat} (hrs : SectionsRefused (sectionWithin levels))
    (hra : ArraysRefused (arrayWithin levels)) :
    SectionsRefused (sectionWithin (levels + 1)) ∧ ArraysRefused (arrayWithin (levels + 1)) := by
  obtain ⟨hs, ha⟩ := form_of_within levels
  constructor
  · intro e c c' h
    rw [sectionWithin_succ] at h
    rcases level_error h with h | ⟨entries, c₁, -, c₂, h⟩
    · rcases bind_error.1 h with h | ⟨n, c₁, hn, h⟩
      · exact refused_count (c := { c with depth := c.depth + 1 }) .section .sectionCount h
      · obtain ⟨count, ht, hcount⟩ := took_count hn
        exact refused_entries (c := { c with depth := c.depth + 1 }) hs ha hrs hra hcount ht.rest h
    · exact (pure_error.1 h).elim
  · intro k e c c' h
    rw [arrayWithin_succ] at h
    rcases level_error h with h | ⟨items, c₁, hread, c₂, h⟩
    · rcases bind_error.1 h with h | ⟨n, c₁, hn, h⟩
      · exact refused_count (c := { c with depth := c.depth + 1 }) (.array k) (.arrayCount k) h
      · obtain ⟨count, ht, hcount⟩ := took_count hn
        exact refused_items (c := { c with depth := c.depth + 1 }) hs ha hrs hra hcount ht.rest h
    · -- all elements that were read are of the kind, so the array is not refused
      obtain ⟨n, c₃, -, hread⟩ := bind_ok.1 hread
      obtain ⟨-, body, -, hform, -⟩ := formed_of_items hs ha hread
      rw [arrayOf_items hform] at h
      exact (pure_error.1 h).elim

theorem refused_within (levels : Nat) :
    SectionsRefused (sectionWithin levels) ∧ ArraysRefused (arrayWithin levels) := by
  induction levels with
  | zero =>
    constructor
    · intro e c c' h
      rw [← (throw_error.1 h).1]
      exact .depthExceeded
    · intro k e c c' h
      rw [← (throw_error.1 h).1]
      exact .depthExceeded
  | succ levels ih => exact refused_succ ih.1 ih.2

/-- A check fails, or it is passed and the read behind it fails. -/
theorem check_error {p : Prop} [Decidable p] {r : Read α} {e₀ : StorageError}
    (h : (if p then throw e₀ >>= fun _ : Unit => r else r) c = .error e c') :
    e = e₀ ∨ ¬ p ∧ r c = .error e c' := by
  split at h
  · rcases bind_error.1 h with h | ⟨_, _, h, -⟩
    · exact .inl (throw_error.1 h).1.symm
    · exact (throw_ok.1 h).elim
  · next hp => exact .inr ⟨hp, h⟩

/-- Whatever a fresh cursor refuses as a blob, it refuses for a reason. -/
theorem refused_blob {b : Bytes} (h : Read.blob (Cursor.ofBytes b) = .error e c') :
    Refused .blob b e := by
  rcases bind_error.1 h with h | ⟨first, c₁, hfirst, h⟩
  · exact refused_number h
  rcases check_error h with rfl | ⟨hA, h⟩
  · exact .badSignatureA _
  rcases bind_error.1 h with h | ⟨second, c₂, hsecond, h⟩
  · exact refused_number h
  rcases check_error h with rfl | ⟨hB, h⟩
  · exact .badSignatureB _
  rcases bind_error.1 h with h | ⟨v, c₃, hv, h⟩
  · exact refused_byte h
  rcases check_error h with rfl | ⟨hV, h⟩
  · exact .badVersion _
  obtain rfl := Classical.not_not.1 hA
  obtain rfl := Classical.not_not.1 hB
  obtain rfl := Classical.not_not.1 hV
  have htook := (took_ofNat hfirst).trans ((took_ofNat hsecond).trans (took_byte hv))
  have hb : b = preamble ++ c₃.rest := htook.rest
  rw [hb]
  exact ((refused_within _).1 e c₃ c' h).lift fun pre place hpre => .root hpre

end Read

theorem refused_of_decode {b : Bytes} {e : StorageError} (h : Storage.decode b = .error e) :
    Refused .blob b e := by
  obtain ⟨c, h⟩ := blob_of_decode_error h
  exact Read.refused_blob h

/-! ## The value of an array without a tag -/

namespace Read

section
variable (bare : Read Value)

/-- `value`, but that `bare` stands for the value of an array without its tag. -/
def valueOr (readSection : Read Section) : Kind → Read Value
  | .array => bare
  | k => value readSection k

def taggedOr (readSection : Read Section) (readArray : Kind → Read Value) (tag : UInt8) :
    Read Value :=
  match Kind.ofTag? (tag % 128) with
  | none => throw (.unknownType tag)
  | some k =>
    if 128 ≤ tag then readArray k
    else if k = .array then throw (.unknownType tag)
    else valueOr bare readSection k

def entryOr (readSection : Read Section) (readArray : Kind → Read Value) :
    Read (String × Value) := do
  let length ← byte
  let label ← bytes length.toNat
  match Utf8.decode? label with
  | none => throw .invalidName
  | some name =>
    let tag ← byte
    let v ← taggedOr bare readSection readArray tag
    return (name, v)

def elementOr (readSection : Read Section) (readArray : Kind → Read Value) : Kind → Read Value
  | .array => do
    let tag ← byte
    if tag < 128 then throw (.unknownType tag)
    else taggedOr bare readSection readArray tag
  | k => valueOr bare readSection k

mutual

def sectionWithinOr : (levels : Nat) → Read Section
  | 0 => throw .depthExceeded
  | levels + 1 => do
    descend
    let n ← count 3
    let entries ← times n (entryOr bare (sectionWithinOr levels) (arrayWithinOr levels))
    ascend
    return entries

def arrayWithinOr : (levels : Nat) → Kind → Read Value
  | 0, _ => throw .depthExceeded
  | levels + 1, k => do
    descend
    let n ← count k.minSize
    let items ← times n (elementOr bare (sectionWithinOr levels) (arrayWithinOr levels) k)
    ascend
    match Value.arrayOf k items with
    | .ok v => return v
    | .error e => throw e

end

def sectionOr : Read Section := fun c => sectionWithinOr bare (maxDepth - c.depth) c

def blobOr : Read Section := do
  let a ← number 4
  if a ≠ signatureA.toNat then throw (.badSignatureA (UInt32.ofNat a))
  let b ← number 4
  if b ≠ signatureB.toNat then throw (.badSignatureB (UInt32.ofNat b))
  let v ← byte
  if v ≠ version then throw (.badVersion v)
  sectionOr bare

variable {readSection : Read Section} {readArray : Kind → Read Value}

theorem valueOr_eq {k : Kind} (hk : k ≠ .array) : valueOr bare readSection k = value readSection k := by
  cases k <;> first | rfl | exact absurd rfl hk

theorem taggedOr_eq (tag : UInt8) :
    taggedOr bare readSection readArray tag = tagged readSection readArray tag := by
  cases hk : Kind.ofTag? (tag % 128) with
  | none => simp only [taggedOr, tagged, hk]
  | some k =>
    by_cases hne : k = .array
    · simp only [taggedOr, tagged, hk, hne, if_true]
    · simp only [taggedOr, tagged, hk, valueOr_eq bare hne]

theorem entryOr_eq : entryOr bare readSection readArray = entry readSection readArray := by
  have htagged : taggedOr bare readSection readArray = tagged readSection readArray :=
    funext (taggedOr_eq bare)
  rw [entryOr, htagged]
  rfl

theorem elementOr_eq (k : Kind) :
    elementOr bare readSection readArray k = element readSection readArray k := by
  by_cases hk : k = .array
  · subst hk
    simp only [elementOr, element, taggedOr_eq]
  · rw [element_eq_value hk, ← valueOr_eq bare hk]
    cases k <;> first | rfl | exact absurd rfl hk

theorem withinOr_eq (levels : Nat) :
    sectionWithinOr bare levels = sectionWithin levels ∧
      arrayWithinOr bare levels = arrayWithin levels := by
  induction levels with
  | zero => exact ⟨rfl, rfl⟩
  | succ levels ih =>
    constructor
    · rw [sectionWithinOr, sectionWithin, ih.1, ih.2, entryOr_eq]
    · funext k
      rw [arrayWithinOr, ih.1, ih.2, elementOr_eq]
      rfl

theorem blobOr_eq : blobOr bare = blob := by
  have hsection : sectionOr bare = Read.section := by
    funext c
    rw [sectionOr, (withinOr_eq bare _).1, Read.section]
  rw [blobOr, blob, hsection]

end

end Read

/-- `decode`, but that `bare` stands for the value of an array without its tag. -/
def decodeOr (bare : Read Value) (bs : Bytes) : Except StorageError Section :=
  match Read.blobOr bare (Cursor.ofBytes bs) with
  | .ok root _ => .ok root
  | .error e _ => .error e

theorem decodeOr_eq (bare : Read Value) (bs : Bytes) : decodeOr bare bs = Storage.decode bs := by
  rw [decodeOr, Read.blobOr_eq]
  rfl

/-! ## Trees that were read -/

theorem uniform_of_mem_entries {entries : Section} {name : String} {v : Value}
    (h : Value.UniformEntries entries) (hv : (name, v) ∈ entries) : v.Uniform := by
  induction entries with
  | nil => cases hv
  | cons first entries ih =>
    rcases List.mem_cons.1 hv with rfl | hv
    · exact h.1
    · exact ih h.2 hv

theorem uniform_of_mem_items {k : Kind} {items : List Value} {v : Value}
    (h : Value.UniformItems k items) (hv : v ∈ items) : v.kind = k ∧ v.Uniform := by
  induction items with
  | nil => cases hv
  | cons first items ih =>
    rcases List.mem_cons.1 hv with rfl | hv
    · exact ⟨h.1, h.2.1⟩
    · exact ih h.2.2 hv

theorem uniform_of_contains {v w : Value} (hw : v.Contains w) (h : v.Uniform) : w.Uniform := by
  induction hw with
  | self v => exact h
  | entry hv _ ih => exact ih (uniform_of_mem_entries h hv)
  | element hv _ ih => exact ih (uniform_of_mem_items h hv).2

theorem uniform_of_decode {b : Bytes} {root : Section} (h : Storage.decode b = .ok root) :
    (Value.object root).Uniform := by
  obtain ⟨c, h⟩ := blob_of_decode h
  obtain ⟨body, -, h⟩ := section_of_blob h
  obtain ⟨bs, -, hform, -⟩ := (Read.form_of_within _).1 root _ c h
  exact uniform_of_form _ _ hform

/-- **What a blob is refused for.** The decoder never fails with a mixed array, a name that is too long
or a number that is too large, and it is the same decoder whatever stands for the value of an array
without a tag. A tag is refused only where it stands for no value, in front of an entry's value or of an
element of an array of arrays. An input that is too short is shorter than what is needed, and a count
that is refused is of elements that take more, at least, than what remains behind it. In a tree that is
returned every array, at any depth, holds only values of its kind. -/
theorem decode_refusals (b : Bytes) :
    (∀ bare, decodeOr bare b = Storage.decode b) ∧
    (∀ e, Storage.decode b = .error e →
      (∀ k l, e ≠ .mixedArray k l) ∧ (∀ n, e ≠ .nameTooLong n) ∧ (∀ n, e ≠ .varint (.tooLarge n)) ∧
      (∀ tag, e = .unknownType tag → ∃ pre rest place,
        b = pre ++ tag :: rest ∧ Leads .blob pre place ∧ Misplaced place tag) ∧
      (∀ needed available, e = .truncated needed available → available < needed) ∧
      ∀ n remaining, e = .countTooLarge n remaining → ∃ pre count rest container,
        b = pre ++ (count ++ rest) ∧ Leads .blob pre (.count container) ∧ Varint.Form n count ∧
          remaining = rest.length ∧ remaining < n * container.minSize) ∧
    ∀ root, Storage.decode b = .ok root →
      ∀ k items, (Value.object root).Contains (.array k items) → ∀ v ∈ items, v.kind = k := by
  refine ⟨fun bare => decodeOr_eq bare b, fun e h => ?_, fun root h k items hitems v hv => ?_⟩
  · have hrefused := refused_of_decode h
    refine ⟨?_, ?_, ?_, ?_, ?_, ?_⟩
    · rintro k l rfl
      cases hrefused
    · rintro n rfl
      cases hrefused
    · rintro n rfl
      cases hrefused
    · rintro tag rfl
      cases hrefused with
      | unknownType heq hleads htag => exact ⟨_, _, _, heq, hleads, htag⟩
    · rintro needed available rfl
      cases hrefused with
      | truncated hlt => exact hlt
    · rintro n remaining rfl
      cases hrefused with
      | countTooLarge heq hleads hform hlt => exact ⟨_, _, _, _, heq, hleads, hform, rfl, hlt⟩
  · have huniform := uniform_of_contains hitems (uniform_of_decode h)
    exact (uniform_of_mem_items huniform hv).1

/-- An entry with the tag of arrays. -/
def bareBlob : Bytes := preamble ++ [4, 0, 0x0d, 0]

/-- An array of one array that states the tag of a number. -/
def unflaggedBlob : Bytes := preamble ++ [4, 0, 0x8d, 4, 0x01, 0]

/-- A section of sixty entries with nothing behind the count. -/
def emptyBlob : Bytes := preamble ++ [240]

/-- An array of one array of two bytes. -/
def nestedBlob : Bytes := preamble ++ [4, 0, 0x8d, 4, 0x88, 8, 1, 2]

/-- The first three are refused for their tags and for the count, the preamble alone for its end, and
the last is a tree whose arrays hold what they say. -/
theorem decode_refusals_blobs :
    (∃ pre rest place, bareBlob = pre ++ 0x0d :: rest ∧ Leads .blob pre place ∧
      Misplaced place 0x0d) ∧
    (∃ pre rest place, unflaggedBlob = pre ++ 0x01 :: rest ∧ Leads .blob pre place ∧
      Misplaced place 0x01) ∧
    (∃ pre count rest container, emptyBlob = pre ++ (count ++ rest) ∧
      Leads .blob pre (.count container) ∧ Varint.Form 60 count ∧ 0 = rest.length ∧
      0 < 60 * container.minSize) ∧
    Storage.decode preamble = .error (.truncated 1 0) ∧ 0 < 1 ∧
    ∃ root, Storage.decode nestedBlob = .ok root ∧
      ∀ k items, (Value.object root).Contains (.array k items) → ∀ v ∈ items, v.kind = k := by
  obtain ⟨-, -, -, htag, -, -⟩ := (decode_refusals bareBlob).2.1 (.unknownType 0x0d) rfl
  obtain ⟨-, -, -, hinner, -, -⟩ := (decode_refusals unflaggedBlob).2.1 (.unknownType 0x01) rfl
  obtain ⟨-, -, -, -, -, hcount⟩ :=
    (decode_refusals emptyBlob).2.1 (.countTooLarge 60 0) rfl
  obtain ⟨-, -, -, -, hcut, -⟩ := (decode_refusals preamble).2.1 (.truncated 1 0) rfl
  have hroot : Storage.decode nestedBlob =
      .ok [("", .array .array [.array .uint8 [.uint8 1, .uint8 2]])] := by cbv
  exact ⟨htag _ rfl, hinner _ rfl, hcount _ _ rfl, rfl, hcut _ _ rfl, _, hroot,
    (decode_refusals nestedBlob).2.2 _ hroot⟩

end LevinNet.Storage
