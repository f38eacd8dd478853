import LevinNet.Proofs.Storage.Sequence

/-
How many steps the reader takes.

   1. A `Metered` read also tells how many steps it takes on each cursor. A step is a read off the
      cursor, a call of one of the readers, or one turn of a loop. The readers are written once more
      with their steps; without the steps they are the readers (`read_within`).
   2. `Costs m ok err` bounds the steps by what is taken: four for each byte, and `ok` more if the read
      succeeds or `err` more if it fails. Each primitive and each combinator has one law.
   3. A section or an array that is read has paid for all its steps with its bytes, wherever in it the
      reader fails, up to two steps (`costs_within`). The induction is the one of the reader.
-/
namespace LevinNet.Storage

/-- A read, and how many steps it takes on each cursor. -/
structure Metered (α : Type) where
  read : Read α
  steps : Cursor → Nat

namespace Metered

/-- What comes behind a read that fails takes no step. -/
instance : Monad Metered where
  pure a := ⟨pure a, fun _ => 0⟩
  bind m f :=
    { read := m.read >>= fun a => (f a).read
      steps := fun c =>
        match m.read c with
        | .ok a c' => m.steps c + (f a).steps c'
        | .error _ _ => m.steps c }

variable {α β : Type}

/-- A read off the cursor is one step. -/
def once (r : Read α) : Metered α := ⟨r, fun _ => 1⟩

/-- What reads nothing takes no step: it fails, or opens or closes a level. -/
def free (r : Read α) : Metered α := ⟨r, fun _ => 0⟩

/-- A call of a reader, or a turn of a loop, is one step more. -/
def call (m : Metered α) : Metered α := ⟨m.read, fun c => m.steps c + 1⟩

/-! ## The readers with their steps -/

/-- All values but strings and objects are one read. -/
def value (readSection : Metered Section) : Kind → Metered Value
  | .string => call do
    let n ← once (Read.count 1)
    return .string (← once (Read.bytes n))
  | .object => call do return .object (← readSection)
  | .array => call (free (throw (.unknownType Kind.array.tag)))
  | k => call (once (Read.value readSection.read k))

def tagged (readSection : Metered Section) (readArray : Kind → Metered Value) (tag : UInt8) :
    Metered Value :=
  call <| match Kind.ofTag? (tag % 128) with
    | none => free (throw (.unknownType tag))
    | some k =>
      if 128 ≤ tag then readArray k
      else if k = .array then free (throw (.unknownType tag))
      else value readSection k

def entry (readSection : Metered Section) (readArray : Kind → Metered Value) :
    Metered (String × Value) :=
  call do
    let length ← once Read.byte
    let label ← once (Read.bytes length.toNat)
    match Utf8.decode? label with
    | none => free (throw .invalidName)
    | some name =>
      let tag ← once Read.byte
      let v ← tagged readSection readArray tag
      return (name, v)

def element (readSection : Metered Section) (readArray : Kind → Metered Value) :
    Kind → Metered Value
  | .array => call do
    let tag ← once Read.byte
    if tag < 128 then free (throw (.unknownType tag)) else tagged readSection readArray tag
  | k => call (value readSection k)

def times (n : Nat) (m : Metered α) : Metered (List α) :=
  match n with
  | 0 => pure []
  | n + 1 => do
    let a ← m
    let others ← times n m
    return a :: others

mutual

def sectionWithin : (levels : Nat) → Metered Section
  | 0 => call (free (throw .depthExceeded))
  | levels + 1 => call do
    free Read.descend
    let n ← once (Read.count 3)
    let entries ← times n (entry (sectionWithin levels) (arrayWithin levels))
    free Read.ascend
    return entries

def arrayWithin : (levels : Nat) → Kind → Metered Value
  | 0, _ => call (free (throw .depthExceeded))
  | levels + 1, k => call do
    free Read.descend
    let n ← once (Read.count k.minSize)
    let items ← times n (element (sectionWithin levels) (arrayWithin levels) k)
    free Read.ascend
    match Value.arrayOf k items with
    | .ok v => return v
    | .error e => free (throw e)

end

/-- A section, with the levels that the cursor has left. -/
def «section» : Metered Section where
  read c := (sectionWithin (maxDepth - c.depth)).read c
  steps c := (sectionWithin (maxDepth - c.depth)).steps c

/-! ## Without their steps they are the readers -/

@[simp] theorem read_pure (a : α) : (pure a : Metered α).read = pure a := rfl

@[simp] theorem read_bind (m : Metered α) (f : α → Metered β) :
    (m >>= f).read = m.read >>= fun a => (f a).read := rfl

@[simp] theorem read_once (r : Read α) : (once r).read = r := rfl

@[simp] theorem read_free (r : Read α) : (free r).read = r := rfl

@[simp] theorem read_call (m : Metered α) : (call m).read = m.read := rfl

section
variable (readSection : Metered Section) (readArray : Kind → Metered Value)

theorem read_value (k : Kind) : (value readSection k).read = Read.value readSection.read k := by
  cases k <;> rfl

theorem read_tagged (tag : UInt8) :
    (tagged readSection readArray tag).read =
      Read.tagged readSection.read (fun k => (readArray k).read) tag := by
  rw [tagged, Read.tagged, read_call]
  cases Kind.ofTag? (tag % 128) with
  | none => rfl
  | some k => simp only [apply_ite Metered.read, read_free, read_value]

theorem read_entry :
    (entry readSection readArray).read =
      Read.entry readSection.read (fun k => (readArray k).read) := by
  rw [entry, Read.entry, read_call]
  simp only [read_bind, read_once]
  congr 1
  funext length
  congr 1
  funext label
  cases Utf8.decode? label with
  | none => rfl
  | some name => simp only [read_bind, read_once, read_pure, read_tagged]

theorem read_element (k : Kind) :
    (element readSection readArray k).read =
      Read.element readSection.read (fun k => (readArray k).read) k := by
  by_cases hk : k = .array
  · subst hk
    rw [element, Read.element, read_call]
    simp only [read_bind, read_once, apply_ite Metered.read, read_free, read_tagged]
  · rw [Read.element_eq_value hk, ← read_value]
    cases k <;> first | rfl | exact absurd rfl hk

end

theorem read_times (n : Nat) (m : Metered α) : (times n m).read = Read.times n m.read := by
  induction n with
  | zero => rfl
  | succ n ih =>
    rw [times, Read.times]
    simp only [read_bind, read_pure, ih]

theorem read_within (levels : Nat) :
    (sectionWithin levels).read = Read.sectionWithin levels ∧
      ∀ k, (arrayWithin levels k).read = Read.arrayWithin levels k := by
  induction levels with
  | zero => exact ⟨by rw [sectionWithin, Read.sectionWithin]; rfl,
      fun k => by rw [arrayWithin, Read.arrayWithin]; rfl⟩
  | succ levels ih =>
    obtain ⟨hs, ha⟩ := ih
    constructor
    · rw [sectionWithin, Read.sectionWithin]
      simp only [read_call, read_bind, read_free, read_once, read_pure, read_times, read_entry, hs, ha]
    · intro k
      rw [arrayWithin, Read.arrayWithin]
      simp only [read_call, read_bind, read_free, read_once, read_times, read_element, hs, ha]
      congr 1
      funext _
      congr 1
      funext n
      congr 1
      funext items
      congr 1
      funext _
      cases Value.arrayOf k items <;> rfl

theorem read_section : Metered.section.read = Read.section := by
  funext c
  show (sectionWithin (maxDepth - c.depth)).read c = Read.sectionWithin (maxDepth - c.depth) c
  rw [(read_within _).1]

/-! ## What the steps are paid with -/

/-- The steps are paid with the bytes that are taken, four for each byte: of a read that succeeds up to
`ok` steps, and of one that fails up to `err` steps. -/
structure Costs (m : Metered α) (ok err : Int) : Prop where
  ok : ∀ c a c', m.read c = .ok a c' →
    (m.steps c : Int) + 4 * c'.remaining ≤ 4 * c.remaining + ok
  error : ∀ c e c', m.read c = .error e c' →
    (m.steps c : Int) + 4 * c'.remaining ≤ 4 * c.remaining + err

variable {m : Metered α} {ok err : Int}

theorem Costs.mono {ok' err' : Int} (h : Costs m ok err) (hok : ok ≤ ok') (herr : err ≤ err') :
    Costs m ok' err' := by
  constructor
  · intro c a c' hread
    have := h.ok c a c' hread
    omega
  · intro c e c' hread
    have := h.error c e c' hread
    omega

/-! ### Combinators -/

theorem steps_bind_of_ok {f : α → Metered β} {c c' : Cursor} {a : α} (h : m.read c = .ok a c') :
    (m >>= f).steps c = m.steps c + (f a).steps c' := by
  show (match m.read c with
    | .ok a c' => m.steps c + (f a).steps c'
    | .error _ _ => m.steps c) = _
  rw [h]

theorem steps_bind_of_error {f : α → Metered β} {c c' : Cursor} {e : StorageError}
    (h : m.read c = .error e c') : (m >>= f).steps c = m.steps c := by
  show (match m.read c with
    | .ok a c' => m.steps c + (f a).steps c'
    | .error _ _ => m.steps c) = _
  rw [h]

theorem costs_pure (a : α) (hok : 0 ≤ ok) : Costs (pure a) ok err := by
  constructor
  · intro c b c' h
    obtain ⟨-, rfl⟩ := Read.pure_ok.1 h
    show ((0 : Nat) : Int) + _ ≤ _
    omega
  · intro c e c' h
    exact (Read.pure_error.1 h).elim

theorem costs_throw (e : StorageError) (herr : 0 ≤ err) :
    Costs (free (throw e) : Metered α) ok err := by
  constructor
  · intro c a c' h
    exact (Read.throw_ok.1 h).elim
  · intro c e' c' h
    obtain ⟨-, rfl⟩ := Read.throw_error.1 h
    show ((0 : Nat) : Int) + _ ≤ _
    omega

/-- What comes behind a read is paid with what the read leaves over. -/
theorem costs_bind {f : α → Metered β} {own late : Int} (hm : Costs m own late)
    (hf : ∀ a, Costs (f a) (ok - own) (err - own)) (hlate : late ≤ err) :
    Costs (m >>= f) ok err := by
  constructor
  · intro c b c' h
    obtain ⟨a, c₁, ha, hb⟩ := Read.bind_ok.1 h
    have hfirst := hm.ok c a c₁ ha
    have hthen := (hf a).ok c₁ b c' hb
    rw [steps_bind_of_ok ha]
    omega
  · intro c e c' h
    rcases Read.bind_error.1 h with he | ⟨a, c₁, ha, he⟩
    · have hfirst := hm.error c e c' he
      rw [steps_bind_of_error he]
      omega
    · have hfirst := hm.ok c a c₁ ha
      have hthen := (hf a).error c₁ e c' he
      rw [steps_bind_of_ok ha]
      omega

theorem costs_call (h : Costs m (ok - 1) (err - 1)) : Costs (call m) ok err := by
  constructor
  · intro c a c' hread
    have := h.ok c a c' hread
    show ((m.steps c + 1 : Nat) : Int) + _ ≤ _
    omega
  · intro c e c' hread
    have := h.error c e c' hread
    show ((m.steps c + 1 : Nat) : Int) + _ ≤ _
    omega

/-- A loop whose turns pay for themselves pays for itself, however many turns there are. -/
theorem costs_times (h : Costs m 0 err) (n : Nat) : Costs (times n m) 0 err := by
  induction n with
  | zero => exact costs_pure [] (by omega)
  | succ n ih =>
    refine costs_bind h (fun a => costs_bind ih (fun others => costs_pure _ (by omega)) ?_) ?_
    · omega
    · omega

/-! ### Primitive reads -/

/-- A read takes at least so many bytes if it succeeds, and puts none back if it fails. -/
structure Takes (least : Nat) (r : Read α) : Prop where
  ok : ∀ c a c', r c = .ok a c' → c'.remaining + least ≤ c.remaining
  error : ∀ c e c', r c = .error e c' → c'.remaining ≤ c.remaining

theorem remaining_of_took {c c' : Cursor} {bs : Bytes} (h : Read.Took c c' bs) :
    c'.remaining + bs.length = c.remaining := by
  rw [Cursor.remaining, Cursor.remaining, h.rest, List.length_append, Nat.add_comm]

theorem takes_byte : Takes 1 Read.byte := by
  constructor
  · intro c b c' h
    exact Nat.le_of_eq (remaining_of_took (Read.took_byte h))
  · intro c e c' h
    exact Nat.le_of_eq (congrArg Cursor.remaining (Read.byte_error h).1)

theorem takes_bytes (n : Nat) : Takes n (Read.bytes n) := by
  constructor
  · intro c bs c' h
    obtain ⟨ht, rfl⟩ := Read.took_bytes h
    exact Nat.le_of_eq (remaining_of_took ht)
  · intro c e c' h
    exact Nat.le_of_eq (congrArg Cursor.remaining (Read.bytes_error h).1)

theorem Takes.map {least : Nat} {r : Read α} (h : Takes least r) (f : α → β) :
    Takes least (r >>= fun a => pure (f a)) := by
  constructor
  · intro c b c' hread
    obtain ⟨a, c₁, ha, hb⟩ := Read.bind_ok.1 hread
    obtain ⟨-, rfl⟩ := Read.pure_ok.1 hb
    exact h.ok c a c₁ ha
  · intro c e c' hread
    exact h.error c e c' (Read.map_error.1 hread)

theorem takes_count (container : Container) : Takes 1 (Read.count container.minSize) := by
  constructor
  · intro c n c' h
    obtain ⟨count, ht, hform⟩ := Read.took_count h
    have := Varint.length_pos_of_form hform
    have := remaining_of_took ht
    omega
  · intro c e c' h
    obtain ⟨-, pre, ht, -⟩ := Read.count_error h
    have := remaining_of_took ht
    omega

/-- All values but strings, objects and arrays are a byte or a number. -/
theorem takes_value (readSection : Read Section) {k : Kind} (hk : k ∉ [.string, .object, .array]) :
    Takes 1 (Read.value readSection k) := by
  have hnumber : ∀ (width : Nat) (f : Nat → Value),
      Takes (width + 1) (Read.number (width + 1) >>= fun n => pure (f n)) :=
    fun width f => ((takes_bytes (width + 1)).map Bytes.toNat).map f
  have hword : ∀ (width : Nat) (f : Nat → Value),
      Takes 1 (Read.number (width + 1) >>= fun n => pure (f n)) := by
    intro width f
    refine ⟨fun c a c' h => ?_, (hnumber width f).error⟩
    have := (hnumber width f).ok c a c' h
    omega
  cases k with
  | string | object | array => simp at hk
  | uint8 | bool => exact takes_byte.map _
  | _ => exact hword _ _

theorem costs_once {r : Read α} {least : Nat} (h : Takes least r) :
    Costs (once r) (1 - 4 * least) 1 := by
  constructor
  · intro c a c' hread
    have := h.ok c a c' hread
    show ((1 : Nat) : Int) + _ ≤ _
    omega
  · intro c e c' hread
    have := h.error c e c' hread
    show ((1 : Nat) : Int) + _ ≤ _
    omega

theorem costs_byte : Costs (once Read.byte) (-3) 1 := costs_once takes_byte

theorem costs_bytes (n : Nat) : Costs (once (Read.bytes n)) 1 1 :=
  (costs_once (takes_bytes n)).mono (by omega) (by omega)

theorem costs_count (container : Container) : Costs (once (Read.count container.minSize)) (-3) 1 :=
  costs_once (takes_count container)

theorem costs_level {r : Read Unit} (hr : r = Read.descend ∨ r = Read.ascend) :
    Costs (free r) 0 0 := by
  constructor
  · intro c a c' h
    rcases hr with rfl | rfl
    · cases h
      show ((0 : Nat) : Int) + _ ≤ _
      simp only [Cursor.remaining]
      omega
    · cases h
      show ((0 : Nat) : Int) + _ ≤ _
      simp only [Cursor.remaining]
      omega
  · intro c e c' h
    rcases hr with rfl | rfl <;> cases h

/-! ### Values and members -/

section
variable {readSection : Metered Section} {readArray : Kind → Metered Value}

theorem costs_value (hs : Costs readSection (-2) 2) (k : Kind) : Costs (value readSection k) (-1) 3 := by
  cases k with
  | string =>
    refine costs_call (costs_bind (costs_count .string) (fun n => ?_) (by omega))
    exact costs_bind (costs_bytes n) (fun bs => costs_pure _ (by omega)) (by omega)
  | object =>
    exact costs_call (costs_bind hs (fun s => costs_pure _ (by omega)) (by omega))
  | array => exact costs_call (costs_throw _ (by omega))
  | _ => exact costs_call ((costs_once (takes_value _ (by simp))).mono (by omega) (by omega))

theorem costs_tagged (hs : Costs readSection (-2) 2) (ha : ∀ k, Costs (readArray k) (-2) 2)
    (tag : UInt8) : Costs (tagged readSection readArray tag) 0 4 := by
  refine costs_call ?_
  split
  · exact costs_throw _ (by omega)
  · next k _ =>
    split
    · exact (ha k).mono (by omega) (by omega)
    · split
      · exact costs_throw _ (by omega)
      · exact (costs_value hs k).mono (by omega) (by omega)

theorem costs_entry (hs : Costs readSection (-2) 2) (ha : ∀ k, Costs (readArray k) (-2) 2) :
    Costs (entry readSection readArray) 0 2 := by
  refine costs_call (costs_bind costs_byte (fun length => ?_) (by omega))
  refine costs_bind (costs_bytes _) (fun label => ?_) (by omega)
  split
  · exact costs_throw _ (by omega)
  · refine costs_bind costs_byte (fun tag => ?_) (by omega)
    exact costs_bind (costs_tagged hs ha tag) (fun v => costs_pure _ (by omega)) (by omega)

theorem costs_element (hs : Costs readSection (-2) 2) (ha : ∀ k, Costs (readArray k) (-2) 2)
    (k : Kind) : Costs (element readSection readArray k) 0 4 := by
  by_cases hk : k = .array
  · subst hk
    refine costs_call (costs_bind costs_byte (fun tag => ?_) (by omega))
    split
    · exact costs_throw _ (by omega)
    · exact (costs_tagged hs ha tag).mono (by omega) (by omega)
  · have hcall : element readSection readArray k = call (value readSection k) := by
      cases k <;> first | rfl | exact absurd rfl hk
    rw [hcall]
    exact costs_call (costs_value hs k)

end

/-! ### Levels -/

/-- A section or an array that is read leaves two steps over, and one that fails is short of two. -/
theorem costs_within (levels : Nat) :
    Costs (sectionWithin levels) (-2) 2 ∧ ∀ k, Costs (arrayWithin levels k) (-2) 2 := by
  have hdescend := costs_level (.inl rfl)
  have hascend := costs_level (.inr rfl)
  induction levels with
  | zero =>
    constructor
    · rw [sectionWithin]
      exact costs_call (costs_throw _ (by omega))
    · intro k
      rw [arrayWithin]
      exact costs_call (costs_throw _ (by omega))
  | succ levels ih =>
    obtain ⟨hs, ha⟩ := ih
    constructor
    · rw [sectionWithin]
      refine costs_call (costs_bind hdescend (fun _ => ?_) (by omega))
      refine costs_bind (costs_count .section) (fun n => ?_) (by omega)
      refine costs_bind (costs_times (costs_entry hs ha) n) (fun entries => ?_) (by omega)
      exact costs_bind hascend (fun _ => costs_pure _ (by omega)) (by omega)
    · intro k
      rw [arrayWithin]
      refine costs_call (costs_bind hdescend (fun _ => ?_) (by omega))
      refine costs_bind (costs_count (.array k)) (fun n => ?_) (by omega)
      refine costs_bind (costs_times (costs_element hs ha k) n) (fun items => ?_) (by omega)
      refine costs_bind hascend (fun _ => ?_) (by omega)
      split
      · exact costs_pure _ (by omega)
      · exact costs_throw _ (by omega)

/-- However a read ends, its steps are paid with the bytes that are left in front of it. -/
theorem Costs.steps_le (h : Costs m (-2) 2) (c : Cursor) : m.steps c ≤ 4 * c.remaining + 2 := by
  cases hread : m.read c with
  | ok a c' =>
    have := h.ok c a c' hread
    omega
  | error e c' =>
    have := h.error c e c' hread
    omega

end Metered

end LevinNet.Storage
