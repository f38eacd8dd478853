import LevinNet.Proofs.Storage.Completeness

/-
What the reader accepts is a form. A section that is read stands to the bytes that were taken for it
as the grammar says, and it is nested no deeper than the levels that were left (`form_of_within`).
With completeness this makes the reader and the grammar one: `section_ok_iff` says which byte strings
are read, and that no byte string has two readings.

The induction is the one of the reader: on the levels, and inside one level on the count.
-/
namespace LevinNet.Storage.Read

/-- From `c` to `c'` a form of `v` was taken, nested no deeper than `levels`. -/
def Formed (levels : Nat) (c c' : Cursor) (v : Value) : Prop :=
  ∃ bs, Took c c' bs ∧ v.Form bs ∧ v.depth ≤ levels

/-- Whatever `readSection` reads is a form of it and nested no deeper than `levels`. -/
def SectionsSound (levels : Nat) (readSection : Read Section) : Prop :=
  ∀ (s : Section) (c c' : Cursor), readSection c = .ok s c' → Formed levels c c' (.object s)

/-- Whatever `readArray` reads is an array of the kind, a form of it and nested no deeper than
`levels`. -/
def ArraysSound (levels : Nat) (readArray : Kind → Read Value) : Prop :=
  ∀ (k : Kind) (v : Value) (c c' : Cursor), readArray k c = .ok v c' →
    Formed levels c c' v ∧ ∃ items, v = .array k items

section
variable {levels : Nat} {readSection : Read Section} {readArray : Kind → Read Value}

/-! ## Values -/

/-- A value that opens no level and is made of a number in its width, if the number's bytes are a form
of it. -/
theorem formed_of_word {width : Nat} {f : Nat → Value} {v : Value} {c c' : Cursor}
    (hform : ∀ n, n < Bytes.bound width → (f n).Form (Bytes.ofNat width n))
    (hdepth : ∀ n, (f n).depth = 0) (h : (number width >>= fun n => pure (f n)) c = .ok v c') :
    Formed levels c c' v ∧ ∃ n, v = f n := by
  obtain ⟨n, c₁, hn, h⟩ := bind_ok.1 h
  obtain ⟨rfl, rfl⟩ := pure_ok.1 h
  obtain ⟨bs, ht, rfl, rfl⟩ := took_number hn
  have hv := hform (Bytes.toNat bs) (Bytes.toNat_lt bs)
  rw [Bytes.ofNat_toNat] at hv
  have hd : (f (Bytes.toNat bs)).depth ≤ levels := by
    rw [hdepth]
    exact Nat.zero_le _
  exact ⟨⟨bs, ht, hv, hd⟩, _, rfl⟩

/-- Whatever is read as a value of a kind is a form of it, and of that kind. -/
theorem formed_of_value (hs : SectionsSound levels readSection) {k : Kind} {v : Value}
    {c c' : Cursor} (h : value readSection k c = .ok v c') :
    Formed levels c c' v ∧ v.kind = k ∧ k ≠ .array := by
  -- a number is read whole, so its bytes are those of the value, signed or not
  cases k with
  | int64 =>
    have hform : ∀ n, n < Bytes.bound 8 →
        (Value.int64 (UInt64.ofNat n).toInt64).Form (Bytes.ofNat 8 n) := by
      intro n hn
      have hbits := Value.Form.int64 (UInt64.ofNat n).toInt64
      rwa [UInt64.toUInt64_toInt64, UInt64.toNat_ofNat_of_lt' hn] at hbits
    obtain ⟨hf, n, rfl⟩ := formed_of_word hform (fun n => rfl) h
    exact ⟨hf, rfl, by decide⟩
  | int32 =>
    have hform : ∀ n, n < Bytes.bound 4 →
        (Value.int32 (UInt32.ofNat n).toInt32).Form (Bytes.ofNat 4 n) := by
      intro n hn
      have hbits := Value.Form.int32 (UInt32.ofNat n).toInt32
      rwa [UInt32.toUInt32_toInt32, UInt32.toNat_ofNat_of_lt' hn] at hbits
    obtain ⟨hf, n, rfl⟩ := formed_of_word hform (fun n => rfl) h
    exact ⟨hf, rfl, by decide⟩
  | int16 =>
    have hform : ∀ n, n < Bytes.bound 2 →
        (Value.int16 (UInt16.ofNat n).toInt16).Form (Bytes.ofNat 2 n) := by
      intro n hn
      have hbits := Value.Form.int16 (UInt16.ofNat n).toInt16
      rwa [UInt16.toUInt16_toInt16, UInt16.toNat_ofNat_of_lt' hn] at hbits
    obtain ⟨hf, n, rfl⟩ := formed_of_word hform (fun n => rfl) h
    exact ⟨hf, rfl, by decide⟩
  | int8 =>
    have hform : ∀ n, n < Bytes.bound 1 →
        (Value.int8 (UInt8.ofNat n).toInt8).Form (Bytes.ofNat 1 n) := by
      intro n hn
      have hbits := Value.Form.int8 (UInt8.ofNat n).toInt8
      rwa [UInt8.toUInt8_toInt8, UInt8.toNat_ofNat_of_lt' hn] at hbits
    obtain ⟨hf, n, rfl⟩ := formed_of_word hform (fun n => rfl) h
    exact ⟨hf, rfl, by decide⟩
  | uint64 =>
    have hform : ∀ n, n < Bytes.bound 8 →
        (Value.uint64 (UInt64.ofNat n)).Form (Bytes.ofNat 8 n) := by
      intro n hn
      have hbits := Value.Form.uint64 (UInt64.ofNat n)
      rwa [UInt64.toNat_ofNat_of_lt' hn] at hbits
    obtain ⟨hf, n, rfl⟩ := formed_of_word hform (fun n => rfl) h
    exact ⟨hf, rfl, by decide⟩
  | uint32 =>
    have hform : ∀ n, n < Bytes.bound 4 →
        (Value.uint32 (UInt32.ofNat n)).Form (Bytes.ofNat 4 n) := by
      intro n hn
      have hbits := Value.Form.uint32 (UInt32.ofNat n)
      rwa [UInt32.toNat_ofNat_of_lt' hn] at hbits
    obtain ⟨hf, n, rfl⟩ := formed_of_word hform (fun n => rfl) h
    exact ⟨hf, rfl, by decide⟩
  | uint16 =>
    have hform : ∀ n, n < Bytes.bound 2 →
        (Value.uint16 (UInt16.ofNat n)).Form (Bytes.ofNat 2 n) := by
      intro n hn
      have hbits := Value.Form.uint16 (UInt16.ofNat n)
      rwa [UInt16.toNat_ofNat_of_lt' hn] at hbits
    obtain ⟨hf, n, rfl⟩ := formed_of_word hform (fun n => rfl) h
    exact ⟨hf, rfl, by decide⟩
  | double =>
    have hform : ∀ n, n < Bytes.bound 8 →
        (Value.double ⟨UInt64.ofNat n⟩).Form (Bytes.ofNat 8 n) := by
      intro n hn
      have hbits := Value.Form.double ⟨UInt64.ofNat n⟩
      rwa [UInt64.toNat_ofNat_of_lt' hn] at hbits
    obtain ⟨hf, n, rfl⟩ := formed_of_word hform (fun n => rfl) h
    exact ⟨hf, rfl, by decide⟩
  | uint8 =>
    obtain ⟨b, c₁, hb, h⟩ := bind_ok.1 h
    obtain ⟨rfl, rfl⟩ := pure_ok.1 h
    exact ⟨⟨[b], took_byte hb, .uint8 b, Nat.zero_le _⟩, rfl, by decide⟩
  | bool =>
    obtain ⟨b, c₁, hb, h⟩ := bind_ok.1 h
    obtain ⟨rfl, rfl⟩ := pure_ok.1 h
    exact ⟨⟨[b], took_byte hb, .bool b, Nat.zero_le _⟩, rfl, by decide⟩
  | string =>
    obtain ⟨n, c₁, hn, h⟩ := bind_ok.1 h
    obtain ⟨bs, c₂, hbs, h⟩ := bind_ok.1 h
    obtain ⟨rfl, rfl⟩ := pure_ok.1 h
    obtain ⟨count, ht, hc⟩ := took_count hn
    obtain ⟨ht', rfl⟩ := took_bytes hbs
    exact ⟨⟨count ++ bs, ht.trans ht', .string hc, Nat.zero_le _⟩, rfl, by decide⟩
  | object =>
    obtain ⟨s, c₁, hr, h⟩ := bind_ok.1 h
    obtain ⟨rfl, rfl⟩ := pure_ok.1 h
    exact ⟨hs s c c₁ hr, rfl, by decide⟩
  | array => exact (throw_ok.1 h).elim

/-- A value that was read behind a tag has that tag. -/
theorem formed_of_tagged (hs : SectionsSound levels readSection)
    (ha : ArraysSound levels readArray) {tag : UInt8} {v : Value} {c c' : Cursor}
    (h : tagged readSection readArray tag c = .ok v c') :
    Formed levels c c' v ∧ v.tag = tag := by
  cases hk : Kind.ofTag? (tag % 128) with
  | none =>
    simp only [tagged, hk, throw_ok] at h
  | some k =>
    by_cases hle : 128 ≤ tag
    · -- the tag of an array: its kind is in the low bits
      simp only [tagged, hk, hle, if_true] at h
      obtain ⟨hf, items, rfl⟩ := ha k v c c' h
      exact ⟨hf, Kind.arrayTag_of_ofTag?_mod hk hle⟩
    · simp only [tagged, hk, hle, if_false] at h
      by_cases hne : k = .array
      · simp only [hne, if_true, throw_ok] at h
      · simp only [hne, if_false] at h
        obtain ⟨hf, rfl, -⟩ := formed_of_value hs h
        rw [Value.tag_of_kind_ne hne]
        exact ⟨hf, Kind.tag_of_ofTag?_mod hk hle⟩

/-! ## Entries and elements -/

/-- The length byte and the bytes of a name are those that the name is written with. -/
theorem took_label {length : UInt8} {label : Bytes} {name : String} {c c₁ c₂ : Cursor}
    (hlength : byte c = .ok length c₁) (hlabel : bytes length.toNat c₁ = .ok label c₂)
    (hname : Utf8.decode? label = some name) :
    Took c c₂ (UInt8.ofNat (Utf8.encode name).length :: Utf8.encode name) ∧
      (Utf8.encode name).length ≤ maxNameLength := by
  obtain ⟨htlabel, hlen⟩ := took_bytes hlabel
  obtain rfl := Utf8.encode_of_decode? hname
  rw [hlen, UInt8.ofNat_toNat]
  exact ⟨(took_byte hlength).trans htlabel, Nat.le_of_lt_succ length.toNat_lt⟩

theorem formed_of_entry (hs : SectionsSound levels readSection)
    (ha : ArraysSound levels readArray) {name : String} {v : Value} {c c' : Cursor}
    (h : entry readSection readArray c = .ok (name, v) c') :
    ∃ body, Took c c'
        (UInt8.ofNat (Utf8.encode name).length :: (Utf8.encode name ++ v.tag :: body)) ∧
      (Utf8.encode name).length ≤ maxNameLength ∧ v.Form body ∧ v.depth ≤ levels := by
  obtain ⟨length, c₁, hlength, h⟩ := bind_ok.1 h
  obtain ⟨label, c₂, hlabel, h⟩ := bind_ok.1 h
  cases hname : Utf8.decode? label with
  | none => simp only [hname, throw_ok] at h
  | some text =>
    simp only [hname] at h
    obtain ⟨tag, c₃, htag, h⟩ := bind_ok.1 h
    obtain ⟨w, c₄, hw, h⟩ := bind_ok.1 h
    obtain ⟨hpair, rfl⟩ := pure_ok.1 h
    cases hpair
    obtain ⟨⟨body, htw, hform, hdepth⟩, rfl⟩ := formed_of_tagged hs ha hw
    obtain ⟨htlabel, hlen⟩ := took_label hlength hlabel hname
    exact ⟨body, htlabel.trans ((took_byte htag).trans htw), hlen, hform, hdepth⟩

theorem formed_of_entries (hs : SectionsSound levels readSection)
    (ha : ArraysSound levels readArray) {n : Nat} {entries : Section} {c c' : Cursor}
    (h : times n (entry readSection readArray) c = .ok entries c') :
    entries.length = n ∧ ∃ bs, Took c c' bs ∧ EntriesForm entries bs ∧
      Value.entriesDepth entries ≤ levels := by
  induction n generalizing c entries with
  | zero =>
    obtain ⟨rfl, rfl⟩ := pure_ok.1 h
    exact ⟨rfl, [], Took.refl c, .nil, Nat.zero_le _⟩
  | succ n ih =>
    obtain ⟨⟨name, v⟩, c₁, hfirst, h⟩ := bind_ok.1 h
    obtain ⟨others, c₂, hothers, h⟩ := bind_ok.1 h
    obtain ⟨rfl, rfl⟩ := pure_ok.1 h
    obtain ⟨body, ht, hname, hform, hdepth⟩ := formed_of_entry hs ha hfirst
    obtain ⟨rfl, bs, ht', hforms, hdepths⟩ := ih hothers
    refine ⟨rfl, _, ht.trans ht', ?_, Nat.max_le.2 ⟨hdepth, hdepths⟩⟩
    rw [List.cons_append, List.append_assoc, List.cons_append]
    exact .cons hname hform hforms

theorem formed_of_items (hs : SectionsSound levels readSection)
    (ha : ArraysSound levels readArray) {k : Kind} {n : Nat} {items : List Value} {c c' : Cursor}
    (h : times n (element readSection readArray k) c = .ok items c') :
    items.length = n ∧ ∃ bs, Took c c' bs ∧ ItemsForm k items bs ∧
      Value.itemsDepth items ≤ levels := by
  induction n generalizing c items with
  | zero =>
    obtain ⟨rfl, rfl⟩ := pure_ok.1 h
    exact ⟨rfl, [], Took.refl c, .nil, Nat.zero_le _⟩
  | succ n ih =>
    obtain ⟨v, c₁, hfirst, h⟩ := bind_ok.1 h
    obtain ⟨others, c₂, hothers, h⟩ := bind_ok.1 h
    obtain ⟨rfl, rfl⟩ := pure_ok.1 h
    obtain ⟨rfl, bs, ht', hforms, hdepths⟩ := ih hothers
    by_cases hk : k = .array
    · -- an element that states its own tag
      subst hk
      obtain ⟨tag, c₂, htag, hfirst⟩ := bind_ok.1 hfirst
      by_cases hlt : tag < 128
      · simp only [hlt, if_true, throw_ok] at hfirst
      · simp only [hlt, if_false] at hfirst
        obtain ⟨⟨body, ht, hform, hdepth⟩, rfl⟩ := formed_of_tagged hs ha hfirst
        have hkind : v.kind = .array := by
          apply Classical.byContradiction
          intro hne
          rw [Value.tag_of_kind_ne hne, UInt8.not_lt] at hlt
          exact Kind.not_le_tag _ hlt
        refine ⟨rfl, _, ((took_byte htag).trans ht).trans ht', ?_, Nat.max_le.2 ⟨hdepth, hdepths⟩⟩
        exact .tagged hkind hform hforms
    · rw [element_eq_value hk] at hfirst
      obtain ⟨⟨body, ht, hform, hdepth⟩, rfl, -⟩ := formed_of_value hs hfirst
      exact ⟨rfl, _, ht.trans ht', .cons hk hform hforms, Nat.max_le.2 ⟨hdepth, hdepths⟩⟩

end

/-! ## Levels -/

theorem sound_succ {levels : Nat} (hs : SectionsSound levels (sectionWithin levels))
    (ha : ArraysSound levels (arrayWithin levels)) :
    SectionsSound (levels + 1) (sectionWithin (levels + 1)) ∧
      ArraysSound (levels + 1) (arrayWithin (levels + 1)) := by
  constructor
  · intro s c c' h
    rw [sectionWithin_succ] at h
    obtain ⟨entries, c₁, c₂, hread, htook, h⟩ := took_level h
    obtain ⟨rfl, rfl⟩ := pure_ok.1 h
    obtain ⟨n, c₃, hn, hread⟩ := bind_ok.1 hread
    obtain ⟨count, ht, hc⟩ := took_count hn
    obtain ⟨rfl, body, ht', hform, hdepth⟩ := formed_of_entries hs ha hread
    exact ⟨_, htook _ (ht.trans ht'), .object hc hform, Nat.succ_le_succ hdepth⟩
  · intro k v c c' h
    rw [arrayWithin_succ] at h
    obtain ⟨items, c₁, c₂, hread, htook, h⟩ := took_level h
    obtain ⟨n, c₃, hn, hread⟩ := bind_ok.1 hread
    obtain ⟨count, ht, hc⟩ := took_count hn
    obtain ⟨rfl, body, ht', hform, hdepth⟩ := formed_of_items hs ha hread
    rw [arrayOf_items hform] at h
    obtain ⟨rfl, rfl⟩ := pure_ok.1 h
    exact ⟨⟨_, htook _ (ht.trans ht'), .array hc hform, Nat.succ_le_succ hdepth⟩, items, rfl⟩

theorem form_of_within (levels : Nat) :
    SectionsSound levels (sectionWithin levels) ∧ ArraysSound levels (arrayWithin levels) := by
  induction levels with
  | zero =>
    constructor
    · intro s c c' h
      exact (throw_ok.1 h).elim
    · intro k v c c' h
      exact (throw_ok.1 h).elim
  | succ levels ih => exact sound_succ ih.1 ih.2

/-! ## The reader and the grammar -/

/-- The front of an input that a fresh cursor reads as a section is a form of it. -/
theorem form_of_section {s : Section} {b : Bytes} {c : Cursor}
    (h : Read.section (Cursor.ofBytes b) = .ok s c) :
    c.position ≤ b.length ∧ s.Form (b.take c.position) := by
  obtain ⟨bs, ht, hform, hdepth⟩ := (form_of_within maxDepth).1 s _ c h
  have hrest : b = bs ++ c.rest := ht.rest
  have hposition : c.position = bs.length := by
    rw [ht.position]
    exact Nat.zero_add _
  rw [hposition, hrest, List.take_left]
  refine ⟨?_, hform, hdepth⟩
  rw [List.length_append]
  omega

/-- A front that is a form of a section is read, and nothing behind it is. -/
theorem section_of_form {s : Section} {b : Bytes} {p : Nat} (hp : p ≤ b.length)
    (h : s.Form (b.take p)) : Read.section (Cursor.ofBytes b) = .ok s ⟨b.drop p, p, 0⟩ := by
  have hread := (gives_section h.form (b.drop p)).1 h.shallow
  rwa [List.take_append_drop, List.length_take_of_le hp] at hread

/-- A fresh cursor reads a section and stops behind `p` bytes just if these bytes are a form of the
section; an input has no two readings; and no count of a form is refused, whatever stands behind
it. -/
theorem section_ok_iff (b : Bytes) :
    (∀ (s : Section) (p : Nat),
      (∃ c, Read.section (Cursor.ofBytes b) = .ok s c ∧ c.position = p) ↔
        p ≤ b.length ∧ s.Form (b.take p)) ∧
    (∀ (s s' : Section) (p p' : Nat), p ≤ b.length → s.Form (b.take p) →
      p' ≤ b.length → s'.Form (b.take p') → s = s' ∧ p = p') ∧
    (∀ (s : Section) (p : Nat), p ≤ b.length → s.Form (b.take p) →
      ∀ (n left : Nat) (c : Cursor),
        Read.section (Cursor.ofBytes b) ≠ .error (.countTooLarge n left) c) := by
  refine ⟨?_, ?_, ?_⟩
  · intro s p
    constructor
    · rintro ⟨c, h, rfl⟩
      exact form_of_section h
    · rintro ⟨hp, h⟩
      exact ⟨_, section_of_form hp h, rfl⟩
  · intro s s' p p' hp h hp' h'
    have heq := (section_of_form hp h).symm.trans (section_of_form hp' h')
    simp only [EStateM.Result.ok.injEq, Cursor.mk.injEq] at heq
    exact ⟨heq.1, heq.2.2.1⟩
  · intro s p hp h n left c herror
    rw [section_of_form hp h] at herror
    cases herror

end LevinNet.Storage.Read
