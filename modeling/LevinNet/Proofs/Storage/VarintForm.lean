import LevinNet.Varint

/-
The written forms of a number, said without a reader. A number that fits has a form in each width that
holds it, and the width tells itself: `decode` undoes every form, whatever follows it
(`decode_form`), it accepts nothing else (`form_of_decode`), and `encode` writes the shortest of them
(`form_of_encode`, `encode_of_form`).
-/
namespace LevinNet.Varint

/-- `bs` writes `n`, little-endian above the two tag bits, in one of the three widths. -/
inductive Form (n : Nat) : Bytes → Prop where
  | one : n ≤ maxOneByte → Form n (Bytes.ofNat 1 (4 * n))
  | two : n ≤ maxTwoBytes → Form n (Bytes.ofNat 2 (4 * n + 1))
  | four : n ≤ maxFourBytes → Form n (Bytes.ofNat 4 (4 * n + 2))

/-! ## Widths and their tags -/

theorem announcedWidth_eq_some {first : UInt8} {width : Nat} :
    announcedWidth first = some width ↔
      (width = 1 ∨ width = 2 ∨ width = 4) ∧ first.toNat % 4 = widthTag width := by
  have h4 : first.toNat % 4 < 4 := Nat.mod_lt _ (by decide)
  unfold announcedWidth
  constructor
  · intro h
    split at h
    · next h0 => cases h; exact ⟨.inl rfl, h0⟩
    · next h1 => cases h; exact ⟨.inr (.inl rfl), h1⟩
    · next h2 => cases h; exact ⟨.inr (.inr rfl), h2⟩
    · cases h
  · rintro ⟨rfl | rfl | rfl, h⟩ <;> simp [h, widthTag]

theorem fits_one {n : Nat} : 4 * n + widthTag 1 < Bytes.bound 1 ↔ n ≤ maxOneByte := by
  simp only [widthTag, Bytes.bound, maxOneByte]
  omega

theorem fits_two {n : Nat} : 4 * n + widthTag 2 < Bytes.bound 2 ↔ n ≤ maxTwoBytes := by
  simp only [widthTag, Bytes.bound, maxTwoBytes]
  omega

theorem fits_four {n : Nat} : 4 * n + widthTag 4 < Bytes.bound 4 ↔ n ≤ maxFourBytes := by
  simp only [widthTag, Bytes.bound, maxFourBytes]
  omega

/-- The forms, with the width as a number. -/
theorem form_iff {n : Nat} {bs : Bytes} :
    Form n bs ↔ ∃ width, (width = 1 ∨ width = 2 ∨ width = 4) ∧
      4 * n + widthTag width < Bytes.bound width ∧
      bs = Bytes.ofNat width (4 * n + widthTag width) := by
  constructor
  · intro h
    cases h with
    | one h => exact ⟨1, .inl rfl, fits_one.2 h, rfl⟩
    | two h => exact ⟨2, .inr (.inl rfl), fits_two.2 h, rfl⟩
    | four h => exact ⟨4, .inr (.inr rfl), fits_four.2 h, rfl⟩
  · rintro ⟨width, rfl | rfl | rfl, hlt, rfl⟩
    · exact .one (fits_one.1 hlt)
    · exact .two (fits_two.1 hlt)
    · exact .four (fits_four.1 hlt)

theorem length_pos_of_form {n : Nat} {bs : Bytes} (h : Form n bs) : 0 < bs.length := by
  obtain ⟨width, hw, -, rfl⟩ := form_iff.1 h
  rw [Bytes.length_ofNat]
  rcases hw with rfl | rfl | rfl <;> decide

/-! ## Reading a form -/

/-- A number is read off its form, and nothing behind the form is looked at. -/
theorem decode_form {n : Nat} {bs : Bytes} (h : Form n bs) (rest : Bytes) :
    decode (bs ++ rest) = .ok (bs.length, n) := by
  obtain ⟨width, hw, hlt, rfl⟩ := form_iff.1 h
  obtain ⟨k, rfl⟩ : ∃ k, width = k + 1 := ⟨width - 1, by omega⟩
  have htag : widthTag (k + 1) < 4 := by
    rcases hw with h | h | h <;> rw [h] <;> decide
  -- the number and its tag are one number, and its first byte alone tells the width
  generalize hv : 4 * n + widthTag (k + 1) = v at hlt ⊢
  have hfirst : (UInt8.ofNat v).toNat = v % 256 := UInt8.toNat_ofNat'
  have hwidth : announcedWidth (UInt8.ofNat v) = some (k + 1) :=
    announcedWidth_eq_some.2 ⟨hw, by rw [hfirst]; omega⟩
  have hholds : Bytes.holds (k + 1) (Bytes.ofNat (k + 1) v ++ rest) = true := by
    rw [Bytes.holds_iff, List.length_append, Bytes.length_ofNat]
    omega
  have htake : (Bytes.ofNat (k + 1) v ++ rest).take (k + 1) = Bytes.ofNat (k + 1) v :=
    List.take_left' (Bytes.length_ofNat _ _)
  rw [Bytes.ofNat, List.cons_append] at hholds htake ⊢
  simp only [decode, hwidth, hholds, if_true, htake]
  rw [← Bytes.ofNat, Bytes.toNat_ofNat, Nat.mod_eq_of_lt hlt, Bytes.length_ofNat]
  have hn : v / 4 = n := by omega
  rw [hn]

/-- What is read as a number is a form of it. -/
theorem form_of_decode {bs : Bytes} {width n : Nat} (h : decode bs = .ok (width, n)) :
    width ≤ bs.length ∧ Form n (bs.take width) := by
  cases bs with
  | nil => simp [decode] at h
  | cons first bs =>
    simp only [decode] at h
    split at h
    · cases h
    · next w hw =>
      split at h
      · next hholds =>
        simp only [Except.ok.injEq, Prod.mk.injEq] at h
        obtain ⟨rfl, rfl⟩ := h
        obtain ⟨hcases, htag⟩ := announcedWidth_eq_some.1 hw
        have hlen : w ≤ (first :: bs).length := (Bytes.holds_iff _ _).1 hholds
        refine ⟨hlen, form_iff.2 ⟨w, hcases, ?_⟩⟩
        -- the two low bits of the whole number are those of its first byte
        have hlow : Bytes.toNat ((first :: bs).take w) % 4 = first.toNat % 4 := by
          obtain ⟨k, rfl⟩ : ∃ k, w = k + 1 := ⟨w - 1, by omega⟩
          simp only [List.take_succ_cons, Bytes.toNat]
          omega
        have htakelen : ((first :: bs).take w).length = w := List.length_take_of_le hlen
        have hsum : 4 * (Bytes.toNat ((first :: bs).take w) / 4) + widthTag w =
            Bytes.toNat ((first :: bs).take w) := by
          omega
        rw [hsum]
        constructor
        · have := Bytes.toNat_lt ((first :: bs).take w)
          rwa [htakelen] at this
        · have := Bytes.ofNat_toNat ((first :: bs).take w)
          rw [htakelen] at this
          exact this.symm
      · cases h

/-- Only the bytes that a number takes are looked at. -/
theorem decode_of_take {bs bs' : Bytes} {width n : Nat} (h : decode bs = .ok (width, n))
    (htake : bs'.take width = bs.take width) : decode bs' = .ok (width, n) := by
  obtain ⟨hle, hform⟩ := form_of_decode h
  have hread := decode_form hform (bs'.drop width)
  rwa [← htake, List.take_append_drop, htake, List.length_take_of_le hle] at hread

/-! ## Writing a form -/

/-- The width of a number holds it and its tag. -/
theorem fits_of_encodedLength {n width : Nat} (h : encodedLength n = .ok width) :
    (width = 1 ∨ width = 2 ∨ width = 4) ∧ 4 * n + widthTag width < Bytes.bound width := by
  unfold encodedLength at h
  split at h
  · next h1 => cases h; exact ⟨.inl rfl, fits_one.2 h1⟩
  · split at h
    · next h2 => cases h; exact ⟨.inr (.inl rfl), fits_two.2 h2⟩
    · split at h
      · next h4 => cases h; exact ⟨.inr (.inr rfl), fits_four.2 h4⟩
      · cases h

theorem form_of_encode {n : Nat} {bs : Bytes} (h : encode n = .ok bs) : Form n bs := by
  unfold encode at h
  cases hwidth : encodedLength n with
  | ok width =>
    rw [hwidth] at h
    cases h
    obtain ⟨hw, hlt⟩ := fits_of_encodedLength hwidth
    exact form_iff.2 ⟨width, hw, hlt, rfl⟩
  | error e =>
    rw [hwidth] at h
    cases h

/-- Each width has one form of a number at most. -/
theorem form_eq_of_length {n : Nat} {bs bs' : Bytes} (h : Form n bs) (h' : Form n bs')
    (hlen : bs.length = bs'.length) : bs = bs' := by
  obtain ⟨width, -, -, rfl⟩ := form_iff.1 h
  obtain ⟨width', -, -, rfl⟩ := form_iff.1 h'
  rw [Bytes.length_ofNat, Bytes.length_ofNat] at hlen
  rw [hlen]

theorem le_of_form {n : Nat} {bs : Bytes} (h : Form n bs) : n ≤ maxFourBytes := by
  cases h with
  | one h => exact Nat.le_trans h (by decide)
  | two h => exact Nat.le_trans h (by decide)
  | four h => exact h

/-- A number that has a form is written, and in no more bytes than the form. -/
theorem encode_of_form {n : Nat} {bs : Bytes} (h : Form n bs) :
    ∃ bs', encode n = .ok bs' ∧ bs'.length ≤ bs.length := by
  have hn := le_of_form h
  have hpos := length_pos_of_form h
  unfold encode encodedLength
  by_cases h1 : n ≤ maxOneByte
  · simp only [h1, if_true, Except.ok.injEq, exists_eq_left', Bytes.length_ofNat]
    exact hpos
  · by_cases h2 : n ≤ maxTwoBytes
    · simp only [h1, h2, if_true, if_false, Except.ok.injEq, exists_eq_left', Bytes.length_ofNat]
      cases h with
      | one h => exact absurd h h1
      | two h | four h => simp
    · simp only [h1, h2, hn, if_true, if_false, Except.ok.injEq, exists_eq_left',
        Bytes.length_ofNat]
      cases h with
      | one h => exact absurd h h1
      | two h => exact absurd h h2
      | four h => simp

/-- What is written is no longer than any form. -/
theorem length_le_of_encode {n : Nat} {least bs : Bytes} (hleast : encode n = .ok least)
    (h : Form n bs) : least.length ≤ bs.length := by
  obtain ⟨least', hleast', hle⟩ := encode_of_form h
  rw [hleast] at hleast'
  cases hleast'
  exact hle

/-- A number that does not fit into thirty bits has no width. -/
theorem encodedLength_of_lt {n : Nat} (h : maxFourBytes < n) :
    encodedLength n = .error (.tooLarge n) := by
  have h4 : ¬ n ≤ maxFourBytes := Nat.not_le.2 h
  have h2 : ¬ n ≤ maxTwoBytes := fun hle => h4 (Nat.le_trans hle (by decide))
  have h1 : ¬ n ≤ maxOneByte := fun hle => h4 (Nat.le_trans hle (by decide))
  simp only [encodedLength, h1, h2, h4, if_false]

theorem encode_of_lt {n : Nat} (h : maxFourBytes < n) : encode n = .error (.tooLarge n) := by
  rw [encode, encodedLength_of_lt h]

end LevinNet.Varint
