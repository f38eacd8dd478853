import LevinNet.Proofs.Storage.Soundness
import LevinNet.Storage.Blob

/-
What is written is a form, and so it is read back. Of a tree whose arrays are uniform, which is how
arrays are built (`uniform_arrayOf`, `uniform_ofSections`), the written form is one that the grammar
allows (`form_of_encode`). By completeness the blob is then read to its last byte and comes to the
very tree, or, one level too deep, to the error that says so (`decode_encode`).
-/
namespace LevinNet.Storage

/-! ## Uniform trees -/

theorem uniform_items {k : Kind} {items : List Value}
    (h : ∀ v ∈ items, v.kind = k ∧ v.Uniform) : Value.UniformItems k items := by
  induction items with
  | nil => trivial
  | cons v items ih =>
    obtain ⟨hk, hv⟩ := h v List.mem_cons_self
    exact ⟨hk, hv, ih fun w hw => h w (List.mem_cons_of_mem v hw)⟩

/-- An array that could be built of uniform values is uniform. -/
theorem uniform_arrayOf {k : Kind} {items : List Value} {v : Value}
    (h : Value.arrayOf k items = .ok v) (hitems : ∀ w ∈ items, w.Uniform) : v.Uniform := by
  unfold Value.arrayOf at h
  split at h
  · cases h
  · next hnone =>
    cases h
    apply uniform_items
    intro w hw
    have hk := List.find?_eq_none.1 hnone w hw
    exact ⟨by simpa using hk, hitems w hw⟩

/-- An array of sections is uniform if they are. -/
theorem uniform_ofSections {sections : List Section} (h : ∀ s ∈ sections, s.Uniform) :
    (Value.ofSections sections).Uniform := by
  apply uniform_items
  intro v hv
  obtain ⟨s, hs, rfl⟩ := List.mem_map.1 hv
  exact ⟨rfl, h s hs⟩

/-! ## Writing -/

theorem bind_eq_ok {ε α β : Type} {x : Except ε α} {f : α → Except ε β} {b : β} :
    (x >>= f) = .ok b ↔ ∃ a, x = .ok a ∧ f a = .ok b := by
  cases x with
  | ok a =>
    constructor
    · intro h
      exact ⟨a, rfl, h⟩
    · rintro ⟨a', h, hf⟩
      cases h
      exact hf
  | error e =>
    constructor
    · intro h
      cases h
    · rintro ⟨a, h, -⟩
      cases h

theorem form_of_encodeCount {n : Nat} {count : Bytes} (h : encodeCount n = .ok count) :
    Varint.Form n count := by
  unfold encodeCount at h
  split at h
  · next hn => cases h; exact Varint.form_of_encode hn
  · cases h

theorem encodeName_ok {name : String} {label : Bytes} (h : encodeName name = .ok label) :
    (Utf8.encode name).length ≤ maxNameLength ∧
      label = UInt8.ofNat (Utf8.encode name).length :: Utf8.encode name := by
  unfold encodeName at h
  simp only at h
  split at h
  · next hlen => cases h; exact ⟨hlen, rfl⟩
  · cases h

mutual

/-- The written form of a uniform value is a form of it. -/
theorem form_of_encode : ∀ (v : Value) (bs : Bytes), v.encode = .ok bs → v.Uniform → v.Form bs
  | .int64 n, bs, h, _ => by cases h; exact .int64 n
  | .int32 n, bs, h, _ => by cases h; exact .int32 n
  | .int16 n, bs, h, _ => by cases h; exact .int16 n
  | .int8 n, bs, h, _ => by cases h; exact .int8 n
  | .uint64 n, bs, h, _ => by cases h; exact .uint64 n
  | .uint32 n, bs, h, _ => by cases h; exact .uint32 n
  | .uint16 n, bs, h, _ => by cases h; exact .uint16 n
  | .uint8 n, bs, h, _ => by
    cases h
    have hbyte : Bytes.ofNat 1 n.toNat = [n] := by simp [Bytes.ofNat]
    rw [hbyte]
    exact .uint8 n
  | .double x, bs, h, _ => by cases h; exact .double x
  | .bool true, bs, h, _ => by cases h; exact .bool 1
  | .bool false, bs, h, _ => by cases h; exact .bool 0
  | .string text, bs, h, _ => by
    obtain ⟨count, hcount, h⟩ := bind_eq_ok.1 h
    cases h
    exact .string (form_of_encodeCount hcount)
  | .object entries, bs, h, hu => by
    obtain ⟨count, hcount, h⟩ := bind_eq_ok.1 h
    obtain ⟨body, hbody, h⟩ := bind_eq_ok.1 h
    cases h
    exact .object (form_of_encodeCount hcount) (form_of_encodeEntries entries body hbody hu)
  | .array k items, bs, h, hu => by
    obtain ⟨count, hcount, h⟩ := bind_eq_ok.1 h
    obtain ⟨body, hbody, h⟩ := bind_eq_ok.1 h
    cases h
    exact .array (form_of_encodeCount hcount) (form_of_encodeItems k items body hbody hu)

theorem form_of_encodeEntries : ∀ (entries : Section) (bs : Bytes),
    encodeEntries entries = .ok bs → Value.UniformEntries entries → EntriesForm entries bs
  | [], bs, h, _ => by cases h; exact .nil
  | (name, v) :: entries, bs, h, hu => by
    obtain ⟨label, hlabel, h⟩ := bind_eq_ok.1 h
    obtain ⟨body, hbody, h⟩ := bind_eq_ok.1 h
    obtain ⟨others, hothers, h⟩ := bind_eq_ok.1 h
    cases h
    obtain ⟨hname, rfl⟩ := encodeName_ok hlabel
    exact .cons hname (form_of_encode v body hbody hu.1)
      (form_of_encodeEntries entries others hothers hu.2)

theorem form_of_encodeItems : ∀ (k : Kind) (items : List Value) (bs : Bytes),
    encodeItems (k == .array) items = .ok bs → Value.UniformItems k items → ItemsForm k items bs
  | k, [], bs, h, _ => by cases h; exact .nil
  | k, v :: items, bs, h, hu => by
    obtain ⟨body, hbody, h⟩ := bind_eq_ok.1 h
    obtain ⟨others, hothers, h⟩ := bind_eq_ok.1 h
    cases h
    obtain ⟨rfl, hv, hitems⟩ := hu
    have hfirst := form_of_encode v body hbody hv
    have hrest := form_of_encodeItems v.kind items others hothers hitems
    -- only the elements of an array of arrays are written with their tags
    by_cases hk : v.kind = .array
    · rw [hk] at hrest ⊢
      exact .tagged hk hfirst hrest
    · have htag : (v.kind == .array) = false := by simpa using hk
      rw [htag]
      exact .cons hk hfirst hrest

end

/-! ## Blobs -/

/-- Reading a blob is reading its preamble and then its root section. -/
theorem blob_preamble (bs : Bytes) : Read.blob (Cursor.ofBytes (preamble ++ bs)) =
    Read.section ⟨bs, preamble.length, 0⟩ := by
  rfl

/-- The blob of a tree is read back to the very tree and to its last byte, if the tree is nested no
deeper than is read; if it is nested deeper, the blob is refused for that and for nothing else. -/
theorem decode_encode {root : Section} {bs : Bytes} (hu : root.Uniform)
    (h : Storage.encode root = .ok bs) :
    (root.depth ≤ maxDepth →
      Storage.decode bs = .ok root ∧
      Read.blob (Cursor.ofBytes bs) = .ok root ⟨[], bs.length, 0⟩) ∧
    (maxDepth < root.depth → Storage.decode bs = .error .depthExceeded) := by
  obtain ⟨body, hbody, h⟩ := bind_eq_ok.1 h
  cases h
  have hform : (Value.object root).Form body := form_of_encode (.object root) body hbody hu
  have hgives := (Read.gives_within maxDepth).1 root body hform
  have hread : Read.blob (Cursor.ofBytes (preamble ++ body)) =
      Read.sectionWithin maxDepth ⟨body ++ [], preamble.length, 0⟩ := by
    rw [List.append_nil]
    exact blob_preamble body
  constructor
  · intro hd
    rw [Read.upTo_of_le hd] at hgives
    have hblob : Read.blob (Cursor.ofBytes (preamble ++ body)) =
        .ok root ⟨[], (preamble ++ body).length, 0⟩ := by
      rw [hread, hgives, List.length_append]
    refine ⟨?_, hblob⟩
    simp only [Storage.decode, hblob]
  · intro hd
    rw [Read.upTo_of_lt hd] at hgives
    obtain ⟨c, hc⟩ := hgives [] preamble.length 0
    simp only [Storage.decode, hread, hc]

/-- A tree with an empty name, a repeated name, an empty array and arrays inside an array. -/
def sampleTree : Section :=
  [("", .object []), ("a", .array .array [.array .uint16 [.uint16 7], .array .object []]),
    ("a", .double ⟨0x7ff8000000000001⟩)]

/-- A section with `n` sections inside one another in it. -/
def nest : Nat → Section
  | 0 => []
  | n + 1 => [("", .object (nest n))]

theorem depth_nest (n : Nat) : (nest n).depth = n + 1 := by
  induction n with
  | zero => rfl
  | succ n ih =>
    simp only [Section.depth] at ih
    simp only [nest, Section.depth, Value.entriesDepth, Value.depth]
    omega

theorem uniform_nest (n : Nat) : (nest n).Uniform := by
  induction n with
  | zero => trivial
  | succ n ih => exact ⟨ih, trivial⟩

theorem encode_nest (n : Nat) : ∃ bs, Storage.encode (nest n) = .ok bs := by
  induction n with
  | zero => exact ⟨_, rfl⟩
  | succ n ih =>
    obtain ⟨bs, h⟩ := ih
    obtain ⟨body, hbody, -⟩ := bind_eq_ok.1 h
    have hv : (Value.object (nest n)).encode = .ok body := hbody
    have hentries : encodeEntries (nest (n + 1)) = .ok (0 :: Kind.object.tag :: (body ++ [])) := by
      simp only [nest, encodeEntries, hv]
      rfl
    exact ⟨preamble ++ (Bytes.ofNat 1 4 ++ (0 :: Kind.object.tag :: (body ++ []))), by
      simp only [Storage.encode, Section.encode, Value.encode, hentries]
      rfl⟩

/-- The sample comes back, and a tree nested one deeper than is read does not. -/
theorem decode_encode_sampleTree :
    (sampleTree.Uniform ∧ ∃ bs, Storage.encode sampleTree = .ok bs ∧
      Storage.decode bs = .ok sampleTree) ∧
    ((nest maxDepth).Uniform ∧ ∃ bs, Storage.encode (nest maxDepth) = .ok bs ∧
      Storage.decode bs = .error .depthExceeded) := by
  have hu : sampleTree.Uniform := by
    simp [sampleTree, Section.Uniform, Value.UniformEntries, Value.Uniform, Value.UniformItems,
      Value.kind]
  obtain ⟨bs, hbs⟩ := encode_nest maxDepth
  have hdeep : maxDepth < (nest maxDepth).depth := by
    rw [depth_nest]
    exact Nat.lt_succ_self _
  refine ⟨⟨hu, _, rfl, ?_⟩, uniform_nest maxDepth, bs, hbs, ?_⟩
  · exact ((decode_encode hu rfl).1 (by decide)).1
  · exact (decode_encode (uniform_nest maxDepth) hbs).2 hdeep

end LevinNet.Storage
