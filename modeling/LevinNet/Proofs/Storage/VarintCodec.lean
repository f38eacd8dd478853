import LevinNet.Proofs.Storage.VarintForm

/-
The laws of the codec of counts.

   1. `Word.write` and `Word.decode` do it with machine words: a number of 64 bits is cut to the word it
      is written in, shifted by two, and the tag is set in the two bits that are free; what is read is a
      word of 32 bits, shifted back. They come to what `write` and `decode` come to, so nothing is cut
      off that belongs to a number (`write_eq_word`, `decode_eq_word`).
   2. An encoding of a number is a form of it. What `encode` writes is as long as `encodedLength` says
      (`encodedLength_of_encode`), and a form that is no longer is the same (`least_of_form`).
   3. What is decoded is decoded from the bytes that are taken for it alone (`decode_of_take`).
-/
namespace LevinNet.Varint

/-! ## The codec in machine words -/

namespace Word

/-- The bytes of a number in a width: cut to a word of so many bytes, shifted, and tagged. -/
def packed (width : Nat) (n : UInt64) : Bytes :=
  let word := n.toBitVec.setWidth (8 * width)
  Bytes.ofNat width (word <<< 2 ||| BitVec.ofNat _ (widthTag width)).toNat

/-- Append a number to a buffer. -/
def write (n : UInt64) (buffer : Bytes) : Except VarintError Unit × Bytes :=
  match encodedLength n.toNat with
  | .ok width => (.ok (), buffer ++ packed width n)
  | .error e => (.error e, buffer)

/-- What is written into an empty buffer. -/
def encode (n : UInt64) : Except VarintError Bytes :=
  match write n [] with
  | (.ok (), bs) => .ok bs
  | (.error e, _) => .error e

/-- The width that the two low bits of a first byte announce. -/
def announcedWidth (first : UInt8) : Option Nat :=
  if first &&& 3 = 0 then some 1
  else if first &&& 3 = 1 then some 2
  else if first &&& 3 = 2 then some 4
  else none

/-- The number in up to four bytes: they are the low bytes of a word, and it is shifted back. -/
def unpacked (raw : Bytes) : UInt64 :=
  let word := UInt32.ofNat (Bytes.toNat (raw ++ List.replicate (4 - raw.length) 0))
  (word >>> 2).toUInt64

/-- The number at the front of a string, with the width it takes. -/
def decode : Bytes → Except VarintError (Nat × UInt64)
  | [] => .error (.truncated 1 0)
  | first :: bs =>
    match announcedWidth first with
    | none => .error .unsupportedWidth
    | some width =>
      if width ≤ (first :: bs).length then .ok (width, unpacked ((first :: bs).take width))
      else .error (.truncated width (first :: bs).length)

end Word

/-- A tag below four takes the place of the two bits that a shift leaves free. -/
theorem shiftLeft_or_tag (n : Nat) {tag : Nat} (h : tag < 4) : n <<< 2 ||| tag = 4 * n + tag := by
  have hor := Nat.two_pow_add_eq_or_of_lt (i := 2) (b := tag) h n
  rw [Nat.shiftLeft_eq, Nat.mul_comm, ← hor]

theorem widthTag_lt (width : Nat) : widthTag width < 4 := by
  unfold widthTag
  split <;> decide

theorem bound_eq_shiftLeft (width : Nat) : Bytes.bound width = 1 <<< (8 * width) := by
  induction width with
  | zero => rfl
  | succ width ih =>
    rw [Bytes.bound, ih, Nat.one_shiftLeft, Nat.one_shiftLeft, Nat.mul_succ, Nat.pow_add, Nat.mul_comm]

/-- A number that fits loses nothing when it is cut and shifted. -/
theorem packed_eq {width : Nat} {n : UInt64} (h : 4 * n.toNat + widthTag width < Bytes.bound width) :
    Word.packed width n = Bytes.ofNat width (4 * n.toNat + widthTag width) := by
  rw [bound_eq_shiftLeft, Nat.one_shiftLeft] at h
  have hcut : n.toNat % 2 ^ (8 * width) = n.toNat := Nat.mod_eq_of_lt (by omega)
  have htag : widthTag width % 2 ^ (8 * width) = widthTag width := Nat.mod_eq_of_lt (by omega)
  have hshift : n.toNat <<< 2 % 2 ^ (8 * width) = n.toNat <<< 2 :=
    Nat.mod_eq_of_lt (by rw [Nat.shiftLeft_eq]; omega)
  rw [Word.packed, BitVec.toNat_or, BitVec.toNat_shiftLeft, BitVec.toNat_setWidth, BitVec.toNat_ofNat,
    UInt64.toNat_toBitVec, hcut, htag, hshift, shiftLeft_or_tag _ (widthTag_lt width)]

/-- Writing a number is writing its words. -/
theorem write_eq_word (n : UInt64) (buffer : Bytes) : write n.toNat buffer = Word.write n buffer := by
  unfold write encode Word.write
  cases hlength : encodedLength n.toNat with
  | ok width => simp only [packed_eq (fits_of_encodedLength hlength).2]
  | error e => rfl

theorem encode_eq_word (n : UInt64) : encode n.toNat = Word.encode n := by
  unfold Word.encode
  rw [← write_eq_word, write]
  cases encode n.toNat with
  | ok bs => rfl
  | error e => rfl

theorem announcedWidth_eq_word (first : UInt8) :
    announcedWidth first = Word.announcedWidth first := by
  have hmask : (first &&& 3).toNat = first.toNat % 4 := by
    rw [UInt8.toNat_and]
    exact Nat.and_two_pow_sub_one_eq_mod first.toNat 2
  have hlt : first.toNat % 4 < 4 := Nat.mod_lt _ (by decide)
  unfold announcedWidth Word.announcedWidth
  simp only [← UInt8.toNat_inj, hmask, UInt8.reduceToNat]
  generalize first.toNat % 4 = tag at hlt
  match tag, hlt with
  | 0, _ | 1, _ | 2, _ | 3, _ => rfl

theorem toNat_append_replicate (bs : Bytes) (k : Nat) :
    Bytes.toNat (bs ++ List.replicate k 0) = Bytes.toNat bs := by
  induction bs with
  | nil =>
    induction k with
    | zero => rfl
    | succ k ih =>
      simp only [List.nil_append, List.replicate_succ, Bytes.toNat] at ih ⊢
      rw [ih]
      rfl
  | cons b bs ih => rw [List.cons_append, Bytes.toNat, ih, Bytes.toNat]

/-- The bytes of a number are the low bytes of a word, and their tag is shifted out. -/
theorem toNat_unpacked {raw : Bytes} (h : raw.length ≤ 4) :
    (Word.unpacked raw).toNat = Bytes.toNat raw / 4 := by
  have hlt := Bytes.toNat_lt (raw ++ List.replicate (4 - raw.length) 0)
  have hlen : (raw ++ List.replicate (4 - raw.length) 0).length = 4 := by
    rw [List.length_append, List.length_replicate]
    omega
  rw [hlen, toNat_append_replicate] at hlt
  have hword : Bytes.toNat raw % 2 ^ 32 = Bytes.toNat raw := Nat.mod_eq_of_lt hlt
  rw [Word.unpacked, toNat_append_replicate, UInt32.toNat_toUInt64, UInt32.toNat_shiftRight,
    UInt32.toNat_ofNat', hword]
  exact Nat.shiftRight_eq_div_pow _ 2

/-- Reading a number is reading its word. -/
theorem decode_eq_word (bs : Bytes) :
    decode bs = (Word.decode bs).map fun found => (found.1, found.2.toNat) := by
  cases bs with
  | nil => rfl
  | cons first bs =>
    rw [decode, Word.decode, ← announcedWidth_eq_word]
    cases hwidth : announcedWidth first with
    | none => rfl
    | some width =>
      have hle : width ≤ 4 := by
        have := (announcedWidth_eq_some.1 hwidth).1
        omega
      have hraw : ((first :: bs).take width).length ≤ 4 := by
        rw [List.length_take]
        omega
      by_cases hholds : width ≤ (first :: bs).length
      · simp only [(Bytes.holds_iff _ _).2 hholds, hholds, if_true, Except.map, toNat_unpacked hraw]
      · have hnot : Bytes.holds width (first :: bs) = false := by
          rw [← Bool.not_eq_true, Bytes.holds_iff]
          exact hholds
        simp only [hnot, hholds, if_false, Except.map, Bool.false_eq_true]

/-! ## What is written -/

theorem encodedLength_of_encode {n : Nat} {bs : Bytes} (h : encode n = .ok bs) :
    encodedLength n = .ok bs.length := by
  unfold encode at h
  split at h
  · next width hwidth =>
    cases h
    rw [hwidth, Bytes.length_ofNat]
  · cases h

/-- A form of a number is at least as long as what is written for it, and no other is as long. -/
theorem least_of_form {n : Nat} {bs : Bytes} (h : Form n bs) :
    ∃ least, encode n = .ok least ∧ least.length ≤ bs.length ∧
      (least.length = bs.length ↔ bs = least) := by
  obtain ⟨least, hleast, hle⟩ := encode_of_form h
  refine ⟨least, hleast, hle, ?_⟩
  constructor
  · intro hlen
    exact form_eq_of_length h (form_of_encode hleast) hlen.symm
  · rintro rfl
    rfl

theorem length_le_of_form {n length : Nat} {bs : Bytes} (h : Form n bs)
    (hlength : encodedLength n = .ok length) : length ≤ bs.length := by
  obtain ⟨least, hleast, hle, -⟩ := least_of_form h
  rw [encodedLength_of_encode hleast] at hlength
  cases hlength
  exact hle

/-- A number that has a length has a form of this length. -/
theorem exists_form_of_length {n length : Nat} (h : encodedLength n = .ok length) :
    ∃ bs, Form n bs ∧ bs.length = length := by
  have hencode : encode n = .ok (Bytes.ofNat length (4 * n + widthTag length)) := by rw [encode, h]
  exact ⟨_, form_of_encode hencode, Bytes.length_ofNat _ _⟩

/-- Just the numbers below 64 are written in one byte. -/
theorem le_maxOneByte_iff {n length : Nat} (h : encodedLength n = .ok length) :
    n ≤ maxOneByte ↔ length = 1 := by
  unfold encodedLength at h
  split at h
  · next h1 => cases h; exact iff_of_true h1 rfl
  · next h1 =>
    refine iff_of_false h1 ?_
    split at h
    · cases h; decide
    · split at h <;> cases h
      decide

/-! ## What is read -/

/-- A string that decodes to a number to its last byte is a form of the number. -/
theorem form_of_decode_all {bs : Bytes} {n : Nat} (h : decode bs = .ok (bs.length, n)) : Form n bs := by
  obtain ⟨-, hform⟩ := form_of_decode h
  rwa [List.take_length] at hform

/-- **Laws of the codec.** A number of at most thirty bits is written in the bytes that its length says,
behind what the buffer holds, and is read back whatever follows it. A larger number is refused with
itself, and the buffer is left as it is. What is read from a string fits into thirty bits and depends
only on the bytes that are taken for it; they are no fewer than are written for the number, and as many
only if they are the ones that are written. So what is written is the one shortest encoding. And all
of it is done in machine words. -/
theorem codec_laws :
    (∀ n, n ≤ 1073741823 → ∃ bs, encode n = .ok bs ∧ encodedLength n = .ok bs.length ∧
      (∀ rest, decode (bs ++ rest) = .ok (bs.length, n)) ∧
      ∀ buffer, write n buffer = (.ok (), buffer ++ bs)) ∧
    (∀ n, 1073741823 < n → encode n = .error (.tooLarge n) ∧ encodedLength n = .error (.tooLarge n) ∧
      ∀ buffer, write n buffer = (.error (.tooLarge n), buffer)) ∧
    (∀ bs k n, decode bs = .ok (k, n) → n ≤ 1073741823 ∧
      (∀ bs', bs'.take k = bs.take k → decode bs' = .ok (k, n)) ∧
      ∃ least length, encode n = .ok least ∧ encodedLength n = .ok length ∧ length ≤ k ∧
        (length = k ↔ bs.take k = least)) ∧
    (∀ n least, encode n = .ok least → decode least = .ok (least.length, n) ∧
      ∀ bs, decode bs = .ok (bs.length, n) → bs ≠ least → least.length < bs.length) ∧
    (∀ (n : UInt64) buffer, write n.toNat buffer = Word.write n buffer) ∧
    (∀ n : UInt64, encode n.toNat = Word.encode n) ∧
    ∀ bs, decode bs = (Word.decode bs).map fun found => (found.1, found.2.toNat) := by
  refine ⟨?_, ?_, ?_, ?_, write_eq_word, encode_eq_word, decode_eq_word⟩
  · intro n hn
    obtain ⟨bs, hbs, -⟩ := encode_of_form (.four hn)
    refine ⟨bs, hbs, encodedLength_of_encode hbs, decode_form (form_of_encode hbs), ?_⟩
    intro buffer
    rw [write, hbs]
  · intro n hn
    have hencode := encode_of_lt hn
    refine ⟨hencode, encodedLength_of_lt hn, ?_⟩
    intro buffer
    rw [write, hencode]
  · intro bs k n h
    obtain ⟨hle, hform⟩ := form_of_decode h
    obtain ⟨least, hleast, hshort, hiff⟩ := least_of_form hform
    rw [List.length_take_of_le hle] at hshort hiff
    exact ⟨le_of_form hform, fun bs' htake => decode_of_take h htake, least, least.length, hleast,
      encodedLength_of_encode hleast, hshort, hiff⟩
  · intro n least hleast
    have hread := decode_form (form_of_encode hleast) []
    rw [List.append_nil] at hread
    refine ⟨hread, ?_⟩
    intro bs h hne
    have hform := form_of_decode_all h
    have hlength : least.length ≠ bs.length := fun hlen =>
      hne (form_eq_of_length hform (form_of_encode hleast) hlen.symm)
    exact Nat.lt_of_le_of_ne (length_le_of_encode hleast hform) hlength

/-- Two in four bytes is read as two, with or without the byte behind it, but is not what is written;
and the first number of more than thirty bits leaves the buffer as it is. -/
theorem codec_laws_wideTwo :
    decode [10, 0, 0, 0, 255] = .ok (4, 2) ∧ decode [10, 0, 0, 0] = .ok (4, 2) ∧
    (∃ least length, encode 2 = .ok least ∧ encodedLength 2 = .ok length ∧ length ≤ 4 ∧
      (length = 4 ↔ [10, 0, 0, 0] = least)) ∧
    [8].length < [10, 0, 0, 0].length ∧
    write 1073741824 [7] = (.error (.tooLarge 1073741824), [7]) := by
  have hread : decode [10, 0, 0, 0, 255] = .ok (4, 2) := rfl
  obtain ⟨-, htaken, hleast⟩ := codec_laws.2.2.1 _ _ _ hread
  have hwide : decode [10, 0, 0, 0] = .ok (4, 2) := htaken [10, 0, 0, 0] rfl
  refine ⟨hread, hwide, hleast, ?_, ?_⟩
  · exact (codec_laws.2.2.2.1 2 [8] rfl).2 [10, 0, 0, 0] hwide (by decide)
  · exact (codec_laws.2.1 1073741824 (by decide)).2.2 [7]

end LevinNet.Varint
