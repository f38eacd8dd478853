import LevinNet.Proofs.Storage.OpenContainers

/-
Reads in sequence on one cursor, with failures on the way.

   1. A read of a number or of bytes that fails takes nothing (`bytes_error`, `varint_error`). A section
      that fails stops where the grammar says, and its level is raised by the number of the containers
      that are open there (`stops_within`). The induction is the one of the reader: on the levels, and
      inside one level on the members.
   2. `On buffer c` says that a cursor stands on a buffer, no deeper than is read. Every call keeps it
      and takes nothing back (`on_leaves`), so every sequence of calls does (`on_behind`).
   3. What one more call does behind any sequence (`calls_in_sequence`).
-/
namespace LevinNet.Storage

/-! ## The reader stops there -/

namespace Read

variable {α : Type} {levels : Nat} {piece whole : Piece} {container : Container}
  {c c₁ c' : Cursor} {e : StorageError}

/-- From `c` to `c'` a read of a piece stopped with an error, and the level is raised by the number of
the containers that are open there. There is no level left just if it stopped for the depth. -/
def Stops (levels : Nat) (piece : Piece) (c c' : Cursor) (e : StorageError) : Prop :=
  ∃ pre opened, Stopped piece pre e opened ∧
    Took { c with depth := c.depth + opened.length } c' pre ∧
    opened.length ≤ levels ∧ (e = .depthExceeded → opened.length = levels)

/-- A read that stops at its first byte, inside no container. -/
theorem Stops.here (h : Stopped piece [] e []) (he : e ≠ .depthExceeded) :
    Stops levels piece c c e :=
  ⟨[], [], h, Took.refl c, Nat.zero_le _, fun hdepth => absurd hdepth he⟩

/-- What stops inside a piece stops the whole, behind what was taken in front of it. -/
theorem Stops.behind {own : Bytes} (h : Stops levels piece c₁ c' e) (hown : Took c c₁ own)
    (hwhole : ∀ pre opened, Stopped piece pre e opened → Stopped whole (own ++ pre) e opened) :
    Stops levels whole c c' e := by
  obtain ⟨pre, opened, hstop, ht, hle, hlevels⟩ := h
  refine ⟨own ++ pre, opened, hwhole pre opened hstop, ?_, hle, hlevels⟩
  have hraised : Took { c with depth := c.depth + opened.length }
      { c₁ with depth := c₁.depth + opened.length } own :=
    ⟨hown.rest, hown.position, congrArg (· + opened.length) hown.depth⟩
  exact hraised.trans ht

theorem Stops.mono (h : Stops levels piece c c' e)
    (hwhole : ∀ pre opened, Stopped piece pre e opened → Stopped whole pre e opened) :
    Stops levels whole c c' e :=
  h.behind (Took.refl c) hwhole

/-! ### Primitive reads -/

theorem bytes_error {n : Nat} (h : bytes n c = .error e c') :
    c' = c ∧ e = .truncated n c.remaining ∧ c.remaining < n := by
  unfold bytes at h
  split at h
  · cases h
  · next hholds =>
    cases h
    rw [Bytes.holds_iff, Nat.not_le] at hholds
    exact ⟨rfl, rfl, hholds⟩

theorem byte_error (h : byte c = .error e c') : c' = c ∧ e = .truncated 1 0 := by
  unfold byte at h
  split at h <;> cases h
  exact ⟨rfl, rfl⟩

theorem number_error {width : Nat} (h : number width c = .error e c') :
    c' = c ∧ e = .truncated width c.remaining := by
  obtain ⟨hc, he, -⟩ := bytes_error (map_error.1 h)
  exact ⟨hc, he⟩

theorem varint_error (h : varint c = .error e c') : c' = c ∧ Unread e := by
  unfold varint at h
  split at h
  · cases h
  · next cause hcause =>
    cases h
    refine ⟨rfl, ?_⟩
    unfold Varint.decode at hcause
    split at hcause
    · cases hcause
      exact .truncated 1 0
    · split at hcause
      · cases hcause
        exact .unsupportedWidth
      · split at hcause
        · cases hcause
        · cases hcause
          exact .truncated _ _

/-- A count is refused where it stands, or behind its bytes for what it counts. -/
theorem count_error (h : count container.minSize c = .error e c') :
    e ≠ .depthExceeded ∧
      ∃ pre, Took c c' pre ∧ Stopped (.counted container) pre e container.opened := by
  rcases bind_error.1 h with h | ⟨n, c₁, hn, h⟩
  · obtain ⟨rfl, hunread⟩ := varint_error h
    refine ⟨?_, [], Took.refl _, .noCount hunread⟩
    rintro rfl
    cases hunread
  · obtain ⟨digits, ht, hform⟩ := took_varint hn
    split at h
    · cases h
    · next hholds =>
      cases h
      rw [Bytes.holds_iff, Nat.not_le] at hholds
      exact ⟨nofun, digits, ht, .countTooLarge hform hholds⟩

/-- A count that is read leaves enough behind it for what it counts. -/
theorem le_of_count {minSize n : Nat} (h : count minSize c = .ok n c') :
    n * minSize ≤ c'.remaining := by
  obtain ⟨m, c₁, -, h⟩ := bind_ok.1 h
  split at h
  · next hholds =>
    cases h
    exact (Bytes.holds_iff _ _).1 hholds
  · cases h

/-! ### Values and members -/

/-- Wherever `readSection` stops, the open containers are those of the grammar. -/
def SectionsStop (levels : Nat) (readSection : Read Section) : Prop :=
  ∀ (e : StorageError) (c c' : Cursor), readSection c = .error e c' →
    Stops levels (.counted .section) c c' e

/-- Wherever `readArray` stops, the open containers are those of the grammar. -/
def ArraysStop (levels : Nat) (readArray : Kind → Read Value) : Prop :=
  ∀ (k : Kind) (e : StorageError) (c c' : Cursor), readArray k c = .error e c' →
    Stops levels (.counted (.array k)) c c' e

section
variable {readSection : Read Section} {readArray : Kind → Read Value}

theorem stops_value (hs : SectionsStop levels readSection) {k : Kind} (hk : k ≠ .array)
    (h : value readSection k c = .error e c') : Stops levels (.value k) c c' e := by
  cases k with
  | string =>
    rcases bind_error.1 h with h | ⟨n, c₁, hn, h⟩
    · obtain ⟨he, pre, ht, hstop⟩ := count_error (show count Container.string.minSize c = _ from h)
      exact ⟨pre, [], .string hstop, ht, Nat.zero_le _, fun hdepth => absurd hdepth he⟩
    · -- the count was checked, so its bytes are there
      obtain ⟨-, -, hlt⟩ := bytes_error (map_error.1 h)
      have := le_of_count hn
      omega
  | object => exact (hs e c c' (map_error.1 h)).mono fun _ _ hstop => .object hstop
  | array => exact absurd rfl hk
  | uint8 | bool =>
    obtain ⟨rfl, rfl⟩ := byte_error (map_error.1 h)
    exact Stops.here (.number _ _ nofun nofun nofun) nofun
  | _ =>
    obtain ⟨rfl, rfl⟩ := number_error (map_error.1 h)
    exact Stops.here (.number _ _ nofun nofun nofun) nofun

theorem stops_tagged (hs : SectionsStop levels readSection) (ha : ArraysStop levels readArray)
    {tag : UInt8} (h : tagged readSection readArray tag c = .error e c') :
    Stops levels (.tagged tag) c c' e := by
  cases hk : Kind.ofTag? (tag % 128) with
  | none =>
    simp only [tagged, hk, throw_error] at h
    obtain ⟨rfl, rfl⟩ := h
    exact Stops.here (.misplaced (.noKind (.inl rfl) (not_namesKind hk))) nofun
  | some k =>
    by_cases hle : 128 ≤ tag
    · simp only [tagged, hk, hle, if_true] at h
      have htag := Kind.arrayTag_of_ofTag?_mod hk hle
      exact (ha k e c c' h).mono fun _ _ hstop => .array htag hstop
    · have htag := Kind.tag_of_ofTag?_mod hk hle
      simp only [tagged, hk, hle, if_false] at h
      by_cases hne : k = .array
      · simp only [hne, if_true, throw_error] at h
        obtain ⟨rfl, rfl⟩ := h
        subst hne
        rw [← htag]
        exact Stops.here (.misplaced .bareArray) nofun
      · simp only [hne, if_false] at h
        exact (stops_value hs hne h).mono fun _ _ hstop => .value htag hne hstop

theorem stops_entry (hs : SectionsStop levels readSection) (ha : ArraysStop levels readArray)
    (h : entry readSection readArray c = .error e c') : Stops levels (.member .section) c c' e := by
  have hlabel : ∀ {own : Bytes}, Took c c' own → LabelStop own e → e ≠ .depthExceeded →
      Stops levels (.member .section) c c' e := fun hown hstop he =>
    ⟨_, [], .label hstop, hown, Nat.zero_le _, fun hdepth => absurd hdepth he⟩
  rcases bind_error.1 h with h | ⟨length, c₁, hlength, h⟩
  · obtain ⟨rfl, rfl⟩ := byte_error h
    exact hlabel (Took.refl _) (.noLength _ _) StorageError.noConfusion
  have htlength := took_byte hlength
  rcases bind_error.1 h with h | ⟨label, c₂, hbytes, h⟩
  · obtain ⟨rfl, rfl, -⟩ := bytes_error h
    exact hlabel htlength (.noName _ _ _) StorageError.noConfusion
  obtain ⟨htlabel, hlen⟩ := took_bytes hbytes
  have htname := htlength.trans htlabel
  cases hname : Utf8.decode? label with
  | none =>
    simp only [hname, throw_error] at h
    obtain ⟨rfl, rfl⟩ := h
    exact hlabel htname (.noText hlen) StorageError.noConfusion
  | some name =>
    simp only [hname] at h
    rcases bind_error.1 h with h | ⟨tag, c₃, htag, h⟩
    · obtain ⟨rfl, rfl⟩ := byte_error h
      exact hlabel htname (.noTag _ _ hlen) StorageError.noConfusion
    · have hbehind := stops_tagged hs ha (map_error.1 h)
      refine hbehind.behind (htname.trans (took_byte htag)) fun pre opened hstop => ?_
      rw [List.append_assoc]
      exact .entry hlen hstop

theorem stops_element (hs : SectionsStop levels readSection) (ha : ArraysStop levels readArray)
    {k : Kind} (h : element readSection readArray k c = .error e c') :
    Stops levels (.member (.array k)) c c' e := by
  by_cases hk : k = .array
  · subst hk
    rcases bind_error.1 h with h | ⟨tag, c₁, htag, h⟩
    · obtain ⟨rfl, rfl⟩ := byte_error h
      exact Stops.here (.elementTag (.noTag _ _)) StorageError.noConfusion
    · have httag := took_byte htag
      by_cases hlt : tag < 128
      · simp only [hlt, if_true, throw_error] at h
        obtain ⟨rfl, rfl⟩ := h
        exact ⟨[tag], [], .elementTag (.noArray hlt), httag, Nat.zero_le _, StorageError.noConfusion⟩
      · simp only [hlt, if_false] at h
        exact (stops_tagged hs ha h).behind httag fun _ _ hstop =>
          .nested (UInt8.not_lt.1 hlt) hstop
  · rw [element_eq_value hk] at h
    exact (stops_value hs hk h).mono fun _ _ hstop => .element hk hstop

end

/-! ### Levels -/

/-- A container that opens a level, as its count and its members are read. -/
theorem stops_counted {r : Read α} (hopened : container.opened = [container])
    (hmembers : ∀ (m : Nat) (as : List α) (c c' : Cursor), times m r c = .ok as c' →
      ∃ body, Took c c' body ∧ Members container m body)
    (hmember : ∀ (e : StorageError) (c c' : Cursor), r c = .error e c' →
      Stops levels (.member container) c c' e)
    (h : (count container.minSize >>= fun n => times n r) { c with depth := c.depth + 1 } =
      .error e c') : Stops (levels + 1) (.counted container) c c' e := by
  have hone : container.opened.length = 1 := by rw [hopened, List.length_singleton]
  rcases bind_error.1 h with h | ⟨n, c₁, hn, h⟩
  · obtain ⟨he, pre, ht, hstop⟩ := count_error h
    refine ⟨pre, _, hstop, ?_, by omega, fun hdepth => absurd hdepth he⟩
    rw [hone]
    exact ht
  · -- the count and the members in front of the one that fails are forms
    obtain ⟨count, htcount, hcount⟩ := took_count hn
    obtain ⟨m, as, c₂, hm, hread, h⟩ := times_error h
    obtain ⟨body, htbody, hbody⟩ := hmembers m as c₁ c₂ hread
    obtain ⟨front, inner, hstop, htfront, hle, hlevels⟩ := hmember e c₂ c' h
    have htook := htcount.trans htbody
    refine ⟨_, _, .member hcount hbody hm hstop, ?_, ?_, fun hdepth => ?_⟩
    · rw [← List.append_assoc, List.length_append, hone]
      have hraised : Took { c with depth := c.depth + (inner.length + 1) }
          { c₂ with depth := c₂.depth + inner.length } (count ++ body) := by
        refine ⟨htook.rest, htook.position, ?_⟩
        have hdepth : c₂.depth = c.depth + 1 := htook.depth
        show c₂.depth + inner.length = c.depth + (inner.length + 1)
        omega
      exact hraised.trans htfront
    · rw [List.length_append, hone]
      omega
    · rw [List.length_append, hone, hlevels hdepth]

theorem stops_succ (hs : SectionsStop levels (sectionWithin levels))
    (ha : ArraysStop levels (arrayWithin levels)) :
    SectionsStop (levels + 1) (sectionWithin (levels + 1)) ∧
      ArraysStop (levels + 1) (arrayWithin (levels + 1)) := by
  obtain ⟨hsound, hasound⟩ := form_of_within levels
  constructor
  · intro e c c' h
    rw [sectionWithin_succ] at h
    rcases level_error h with h | ⟨entries, c₁, -, c₂, h⟩
    · refine stops_counted rfl (fun m as c c' hread => ?_) (fun _ _ _ => stops_entry hs ha) h
      obtain ⟨hlen, body, ht, hform, -⟩ := formed_of_entries hsound hasound hread
      exact ⟨body, ht, as, hlen, hform⟩
    · exact (pure_error.1 h).elim
  · intro k e c c' h
    rw [arrayWithin_succ] at h
    rcases level_error h with h | ⟨items, c₁, hread, c₂, h⟩
    · refine stops_counted rfl (fun m as c c' hread => ?_) (fun _ _ _ => stops_element hs ha) h
      obtain ⟨hlen, body, ht, hform, -⟩ := formed_of_items hsound hasound hread
      exact ⟨body, ht, as, hlen, hform⟩
    · -- an array whose elements were read is not refused
      obtain ⟨n, c₃, -, hread⟩ := bind_ok.1 hread
      obtain ⟨-, body, -, hform, -⟩ := formed_of_items hsound hasound hread
      rw [arrayOf_items hform] at h
      exact (pure_error.1 h).elim

theorem stops_within (levels : Nat) :
    SectionsStop levels (sectionWithin levels) ∧ ArraysStop levels (arrayWithin levels) := by
  induction levels with
  | zero =>
    constructor
    · intro e c c' h
      obtain ⟨rfl, rfl⟩ := throw_error.1 h
      exact ⟨[], [], .tooDeep nofun, Took.refl c, Nat.le_refl _, fun _ => rfl⟩
    · intro k e c c' h
      obtain ⟨rfl, rfl⟩ := throw_error.1 h
      exact ⟨[], [], .tooDeep nofun, Took.refl c, Nat.le_refl _, fun _ => rfl⟩
  | succ levels ih => exact stops_succ ih.1 ih.2

/-! ## Sequences of calls -/

/-- A call on a cursor. -/
inductive Call where
  | bytes (n : Nat)
  /-- So many bytes as an array of a fixed length. -/
  | array (n : Nat)
  | byte
  | varint
  | section
  deriving DecidableEq

/-- What a call yields. -/
inductive Answer where
  | bytes (bs : Bytes)
  | byte (b : UInt8)
  | number (n : Nat)
  | tree (s : Section)

def Call.read : Call → Read Answer
  | .bytes n => Read.bytes n >>= fun bs => pure (.bytes bs)
  | .array n => Read.bytes n >>= fun bs => pure (.bytes bs)
  | .byte => Read.byte >>= fun b => pure (.byte b)
  | .varint => Read.varint >>= fun n => pure (.number n)
  | .section => Read.section >>= fun s => pure (.tree s)

/-- The cursor behind a call, whether it succeeds or fails. -/
def Call.leaves (call : Call) (c : Cursor) : Cursor :=
  match call.read c with
  | .ok _ c' => c'
  | .error _ c' => c'

/-- The cursor behind a sequence of calls. -/
def behind : List Call → Cursor → Cursor
  | [], c => c
  | call :: calls, c => behind calls (call.leaves c)

/-- A cursor stands on a buffer, and no more levels are open than are read. -/
structure On (buffer : Bytes) (c : Cursor) : Prop where
  rest : c.rest = buffer.drop c.position
  position_le : c.position ≤ buffer.length
  depth_le : c.depth ≤ maxDepth

variable {buffer : Bytes} {call : Call} {answer : Answer}

theorem On.start (buffer : Bytes) : On buffer (Cursor.ofBytes buffer) :=
  ⟨rfl, Nat.zero_le _, Nat.zero_le _⟩

theorem On.position_add_remaining (h : On buffer c) : c.position + c.remaining = buffer.length := by
  have := h.position_le
  rw [Cursor.remaining, h.rest, List.length_drop]
  omega

/-- Bytes are taken off a buffer from front to back. -/
theorem On.took {depth : Nat} {bs : Bytes} (h : On buffer c)
    (ht : Took { c with depth := depth } c' bs) (hdepth : depth ≤ maxDepth) : On buffer c' := by
  have hrest : buffer.drop c.position = bs ++ c'.rest := h.rest.symm.trans ht.rest
  have hposition : c'.position = c.position + bs.length := ht.position
  have hlen := congrArg List.length hrest
  rw [List.length_drop, List.length_append] at hlen
  have := h.position_le
  refine ⟨?_, by omega, le_of_eq_of_le ht.depth hdepth⟩
  rw [hposition, ← List.drop_drop, hrest, List.drop_left]

/-- A call that succeeds closes all levels that it opens. -/
theorem took_call (h : call.read c = .ok answer c') : ∃ bs, Took c c' bs := by
  cases call with
  | bytes n | array n =>
    obtain ⟨bs, c₁, hread, h⟩ := bind_ok.1 h
    obtain ⟨rfl, rfl⟩ := pure_ok.1 h
    exact ⟨bs, (took_bytes hread).1⟩
  | byte =>
    obtain ⟨b, c₁, hread, h⟩ := bind_ok.1 h
    obtain ⟨rfl, rfl⟩ := pure_ok.1 h
    exact ⟨[b], took_byte hread⟩
  | varint =>
    obtain ⟨n, c₁, hread, h⟩ := bind_ok.1 h
    obtain ⟨rfl, rfl⟩ := pure_ok.1 h
    obtain ⟨bs, ht, -⟩ := took_varint hread
    exact ⟨bs, ht⟩
  | «section» =>
    obtain ⟨s, c₁, hread, h⟩ := bind_ok.1 h
    obtain ⟨rfl, rfl⟩ := pure_ok.1 h
    obtain ⟨bs, ht, -, -⟩ := (form_of_within _).1 s c c₁ hread
    exact ⟨bs, ht⟩

/-- A call that fails takes nothing and opens nothing, but that a section stops inside. -/
theorem call_error (h : call.read c = .error e c') :
    call ≠ .section ∧ c' = c ∨
      call = .section ∧ Stops (maxDepth - c.depth) (.counted .section) c c' e := by
  cases call with
  | bytes n | array n => exact .inl ⟨nofun, (bytes_error (map_error.1 h)).1⟩
  | byte => exact .inl ⟨nofun, (byte_error (map_error.1 h)).1⟩
  | varint => exact .inl ⟨nofun, (varint_error (map_error.1 h)).1⟩
  | «section» => exact .inr ⟨rfl, (stops_within _).1 e c c' (map_error.1 h)⟩

/-- One call keeps the cursor on its buffer and never moves it back. -/
theorem on_leaves (call : Call) (h : On buffer c) :
    On buffer (call.leaves c) ∧ c.position ≤ (call.leaves c).position := by
  unfold Call.leaves
  cases hread : call.read c with
  | ok answer c' =>
    obtain ⟨bs, ht⟩ := took_call hread
    exact ⟨h.took ht h.depth_le, by rw [ht.position]; exact Nat.le_add_right _ _⟩
  | error e c' =>
    rcases call_error hread with ⟨-, rfl⟩ | ⟨-, pre, opened, -, ht, hle, -⟩
    · exact ⟨h, Nat.le_refl _⟩
    · have hdepth : c.depth + opened.length ≤ maxDepth := by
        have := h.depth_le
        omega
      exact ⟨h.took ht hdepth, by rw [ht.position]; exact Nat.le_add_right _ _⟩

/-- And so does any sequence of calls. -/
theorem on_behind (calls : List Call) (h : On buffer c) :
    On buffer (behind calls c) ∧ c.position ≤ (behind calls c).position := by
  induction calls generalizing c with
  | nil => exact ⟨h, Nat.le_refl _⟩
  | cons call calls ih =>
    obtain ⟨hon, hle⟩ := on_leaves call h
    obtain ⟨hon', hle'⟩ := ih hon
    exact ⟨hon', Nat.le_trans hle hle'⟩

/-! ## One more call -/

/-- What is known of a cursor on a buffer and of whatever is called on it next. -/
structure Disciplined (buffer : Bytes) (c : Cursor) : Prop where
  position_le : c.position ≤ buffer.length
  position_add_remaining : c.position + c.remaining = buffer.length
  depth_le : c.depth ≤ maxDepth
  /-- The position never decreases. -/
  forward : ∀ calls, c.position ≤ (behind calls c).position
  /-- What succeeds restores the depth. -/
  restores : ∀ (call : Call) (answer : Answer) (c' : Cursor),
    call.read c = .ok answer c' → c'.depth = c.depth
  /-- What fails and is no section leaves the position and the depth, and all else. -/
  keeps : ∀ (call : Call) (e : StorageError) (c' : Cursor),
    call ≠ .section → call.read c = .error e c' → c' = c
  /-- A section that fails leaves the depth raised by the number of the objects and arrays that are open
  where it stops, and there is no doubt which these are. -/
  raises : ∀ e c', Call.section.read c = .error e c' → ∃ pre opened,
    c.rest = pre ++ c'.rest ∧ c'.position = c.position + pre.length ∧
      Stopped (.counted .section) pre e opened ∧
      (∀ opened', Stopped (.counted .section) pre e opened' → opened' = opened) ∧
      c'.depth = c.depth + opened.length
  /-- A section is accepted only if it is nested no deeper than the levels that are left. -/
  accepted_only : ∀ (s : Section) (c' : Cursor),
    Call.section.read c = .ok (.tree s) c' → s.depth + c.depth ≤ maxDepth
  accepts : ∀ (s : Section) (bs rest : Bytes), (Value.object s).Form bs → c.rest = bs ++ rest →
    s.depth + c.depth ≤ maxDepth →
    Call.section.read c = .ok (.tree s) ⟨rest, c.position + bs.length, c.depth⟩
  refuses : ∀ (s : Section) (bs rest : Bytes), (Value.object s).Form bs → c.rest = bs ++ rest →
    maxDepth < s.depth + c.depth → ∃ c', Call.section.read c = .error .depthExceeded c'

theorem raises_of_error (h : Call.section.read c = .error e c') : ∃ pre opened,
    c.rest = pre ++ c'.rest ∧ c'.position = c.position + pre.length ∧
      Stopped (.counted .section) pre e opened ∧
      (∀ opened', Stopped (.counted .section) pre e opened' → opened' = opened) ∧
      c'.depth = c.depth + opened.length := by
  rcases call_error h with ⟨hne, -⟩ | ⟨-, pre, opened, hstop, ht, -, -⟩
  · exact absurd rfl hne
  · exact ⟨pre, opened, ht.rest, ht.position, hstop, fun opened' h' => h'.unique hstop, ht.depth⟩

theorem depth_of_accepted {s : Section} (hdepth : c.depth ≤ maxDepth)
    (h : Call.section.read c = .ok (.tree s) c') : s.depth + c.depth ≤ maxDepth := by
  obtain ⟨s', c₁, hread, h⟩ := bind_ok.1 h
  obtain ⟨hs, -⟩ := pure_ok.1 h
  cases hs
  obtain ⟨bs, -, -, hlevels⟩ := (form_of_within _).1 s c c₁ hread
  have hlevels : s.depth ≤ maxDepth - c.depth := hlevels
  omega

/-- A form in front of a cursor is read if there are levels enough for it, and is else refused for the
depth. -/
theorem section_of_form_behind {s : Section} {bs rest : Bytes} (h : (Value.object s).Form bs)
    (hrest : c.rest = bs ++ rest) (hdepth : c.depth ≤ maxDepth) :
    (s.depth + c.depth ≤ maxDepth →
      Call.section.read c = .ok (.tree s) ⟨rest, c.position + bs.length, c.depth⟩) ∧
    (maxDepth < s.depth + c.depth → ∃ c', Call.section.read c = .error .depthExceeded c') := by
  have hgives := (gives_within (maxDepth - c.depth)).1 s bs h
  have hc : c = ⟨bs ++ rest, c.position, c.depth⟩ := by rw [← hrest]
  have hread : Read.section c = sectionWithin (maxDepth - c.depth) ⟨bs ++ rest, c.position, c.depth⟩ := by
    rw [← hc]
    rfl
  constructor
  · intro hle
    rw [upTo_of_le (by omega)] at hgives
    exact bind_of_ok (hread.trans (hgives rest c.position c.depth)) _
  · intro hlt
    rw [upTo_of_lt (by omega)] at hgives
    obtain ⟨c', herror⟩ := hgives rest c.position c.depth
    exact ⟨c', bind_of_error (hread.trans herror) _⟩

/-- **Reads in sequence.** Behind any calls on any buffer, whether they succeed or fail, the position is
inside the buffer and no call moves it back. What succeeds restores the depth. A read of bytes, a byte
or a number that fails leaves the cursor as it was. A section that fails leaves the depth raised by
exactly the number of the objects and arrays that are open where it stops. The depth never exceeds the
limit, and a section that follows is accepted just if its own depth still fits under it. -/
theorem disciplined_behind (buffer : Bytes) (calls : List Call) :
    Disciplined buffer (behind calls (Cursor.ofBytes buffer)) := by
  obtain ⟨hon, -⟩ := on_behind calls (On.start buffer)
  refine
    { position_le := hon.position_le
      position_add_remaining := hon.position_add_remaining
      depth_le := hon.depth_le
      forward := fun more => (on_behind more hon).2
      restores := fun call answer c' h => ?_
      keeps := fun call e c' hne h => ?_
      raises := fun e c' h => raises_of_error h
      accepted_only := fun s c' h => depth_of_accepted hon.depth_le h
      accepts := fun s bs rest h hrest => (section_of_form_behind h hrest hon.depth_le).1
      refuses := fun s bs rest h hrest => (section_of_form_behind h hrest hon.depth_le).2 }
  · obtain ⟨bs, ht⟩ := took_call h
    exact ht.depth
  · rcases call_error h with ⟨-, hc⟩ | ⟨rfl, -⟩
    · exact hc
    · exact absurd rfl hne

/-- A section with one entry, an array of one section whose only entry has no tag that stands for
anything, and behind that a section without entries. -/
def brokenBuffer : Bytes := [4, 0, 0x8c, 4, 4, 0, 0, 0]

/-- The first section stops in front of the last byte, with three levels open. Then two bytes are not
there, the one that is there is a section, and the depth stays raised. -/
theorem disciplined_behind_broken :
    (∃ pre opened, brokenBuffer = pre ++ [0] ∧ 7 = 0 + pre.length ∧
      Stopped (.counted .section) pre (.unknownType 0) opened ∧
      (∀ opened', Stopped (.counted .section) pre (.unknownType 0) opened' → opened' = opened) ∧
      3 = 0 + opened.length) ∧
    (Call.bytes 2).leaves ⟨[0], 7, 3⟩ = ⟨[0], 7, 3⟩ ∧
    Call.section.read ⟨[0], 7, 3⟩ = .ok (.tree []) ⟨[], 8, 3⟩ := by
  have hfirst : Call.section.read (Cursor.ofBytes brokenBuffer) =
      .error (.unknownType 0) ⟨[0], 7, 3⟩ := rfl
  have hsecond : (Call.bytes 2).read ⟨[0], 7, 3⟩ = .error (.truncated 2 1) ⟨[0], 7, 3⟩ := rfl
  have hbehind : behind [.section] (Cursor.ofBytes brokenBuffer) = ⟨[0], 7, 3⟩ := by
    simp only [behind, Call.leaves, hfirst]
  have hnext := disciplined_behind brokenBuffer [.section]
  rw [hbehind] at hnext
  refine ⟨(disciplined_behind brokenBuffer []).raises _ _ hfirst, ?_, ?_⟩
  · simp only [Call.leaves, hsecond]
  · exact hnext.accepts [] [0] [] (.object (.one (by decide)) .nil) rfl (by decide)

end Read

end LevinNet.Storage
