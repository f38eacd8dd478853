/-
Maps keyed by address text, kept in the order of their keys. The order is part of the type, so a map
has one entry for each key and two maps with the same look-ups are the same map. One law per
operation says what it does to the look-ups.
-/
namespace LevinNet

structure AddressMap (α : Type) where
  /-- The entries, by key. -/
  entries : List (String × α)
  sorted : entries.Pairwise fun a b => a.1 < b.1
  deriving DecidableEq, Repr

namespace AddressMap

variable {α : Type}

/-- Replace the entry of a key, or put a new one in its place in the order. -/
def insertEntry (key : String) (a : α) : List (String × α) → List (String × α)
  | [] => [(key, a)]
  | entry :: entries =>
    if key = entry.1 then (key, a) :: entries
    else if key < entry.1 then (key, a) :: entry :: entries
    else entry :: insertEntry key a entries

/-- The first value of a key. -/
def lookup (key : String) : List (String × α) → Option α
  | [] => none
  | entry :: entries => if entry.1 = key then some entry.2 else lookup key entries

theorem mem_insertEntry {key : String} {a : α} {entries : List (String × α)} {e : String × α}
    (h : e ∈ insertEntry key a entries) : e = (key, a) ∨ e ∈ entries := by
  induction entries with
  | nil => simpa [insertEntry] using h
  | cons entry entries ih =>
    unfold insertEntry at h
    split at h
    · rcases List.mem_cons.1 h with h | h
      · exact .inl h
      · exact .inr (List.mem_cons_of_mem _ h)
    · split at h
      · rcases List.mem_cons.1 h with h | h
        · exact .inl h
        · exact .inr h
      · rcases List.mem_cons.1 h with h | h
        · exact .inr (h ▸ List.mem_cons_self)
        · rcases ih h with h | h
          · exact .inl h
          · exact .inr (List.mem_cons_of_mem _ h)

theorem sorted_insertEntry (key : String) (a : α) {entries : List (String × α)}
    (h : entries.Pairwise fun a b => a.1 < b.1) :
    (insertEntry key a entries).Pairwise fun a b => a.1 < b.1 := by
  induction entries with
  | nil => simp [insertEntry]
  | cons entry entries ih =>
    obtain ⟨hfirst, hrest⟩ := List.pairwise_cons.1 h
    unfold insertEntry
    split
    · next heq => exact List.pairwise_cons.2 ⟨fun e he => heq ▸ hfirst e he, hrest⟩
    · next hne =>
      split
      · next hlt =>
        refine List.pairwise_cons.2 ⟨fun e he => ?_, h⟩
        rcases List.mem_cons.1 he with rfl | he
        · exact hlt
        · exact String.lt_trans hlt (hfirst e he)
      · next hlt =>
        refine List.pairwise_cons.2 ⟨fun e he => ?_, ih hrest⟩
        rcases mem_insertEntry he with rfl | he
        · exact Std.lt_of_le_of_ne (String.not_lt.1 hlt) (Ne.symm hne)
        · exact hfirst e he

def empty : AddressMap α := ⟨[], .nil⟩

instance : Inhabited (AddressMap α) := ⟨empty⟩

/-- The value of a key. -/
def get? (m : AddressMap α) (key : String) : Option α := lookup key m.entries

def contains (m : AddressMap α) (key : String) : Bool := (m.get? key).isSome

/-- Set the value of a key. -/
def insert (m : AddressMap α) (key : String) (a : α) : AddressMap α :=
  ⟨insertEntry key a m.entries, sorted_insertEntry key a m.sorted⟩

/-- Drop a key and its value. -/
def erase (m : AddressMap α) (key : String) : AddressMap α :=
  ⟨m.entries.filter fun entry => entry.1 != key, m.sorted.filter _⟩

def keys (m : AddressMap α) : List String := m.entries.map (·.1)

def values (m : AddressMap α) : List α := m.entries.map (·.2)

def size (m : AddressMap α) : Nat := m.entries.length

def isEmpty (m : AddressMap α) : Bool := m.entries.isEmpty

@[simp] theorem get?_empty (key : String) : (empty : AddressMap α).get? key = none := rfl

theorem lookup_insertEntry (key key' : String) (a : α) (entries : List (String × α)) :
    lookup key' (insertEntry key a entries) = if key = key' then some a else lookup key' entries := by
  induction entries with
  | nil => rfl
  | cons entry entries ih =>
    unfold insertEntry
    split
    · next h =>
      simp only [lookup, ← h]
      split <;> rfl
    · split
      · rfl
      · next hne _ =>
        simp only [lookup, ih]
        grind

/-- A look-up after an insertion. -/
@[simp] theorem get?_insert (m : AddressMap α) (key key' : String) (a : α) :
    (m.insert key a).get? key' = if key = key' then some a else m.get? key' :=
  lookup_insertEntry key key' a m.entries

theorem lookup_filter (key key' : String) (entries : List (String × α)) :
    lookup key' (entries.filter fun entry => entry.1 != key) =
      if key = key' then none else lookup key' entries := by
  induction entries with
  | nil => simp [lookup]
  | cons entry entries ih =>
    rw [List.filter_cons]
    split <;> simp only [lookup, ih] <;> grind

/-- A look-up after an erasure. -/
@[simp] theorem get?_erase (m : AddressMap α) (key key' : String) :
    (m.erase key).get? key' = if key = key' then none else m.get? key' :=
  lookup_filter key key' m.entries

/-- What is left after an erasure was there before. -/
theorem get?_of_erase {m : AddressMap α} {key key' : String} {a : α}
    (h : (m.erase key).get? key' = some a) : m.get? key' = some a := by
  rw [get?_erase] at h
  split at h
  · cases h
  · exact h

@[simp] theorem contains_empty (key : String) : (empty : AddressMap α).contains key = false := rfl

@[simp] theorem contains_insert (m : AddressMap α) (key key' : String) (a : α) :
    (m.insert key a).contains key' = (decide (key = key') || m.contains key') := by
  rw [contains, contains, get?_insert]
  by_cases h : key = key' <;> simp [h]

@[simp] theorem contains_erase (m : AddressMap α) (key key' : String) :
    (m.erase key).contains key' = (!decide (key = key') && m.contains key') := by
  rw [contains, contains, get?_erase]
  by_cases h : key = key' <;> simp [h]

theorem contains_of_get? {m : AddressMap α} {key : String} {a : α} (h : m.get? key = some a) :
    m.contains key = true := by
  rw [contains, h, Option.isSome_some]

theorem exists_of_contains {m : AddressMap α} {key : String} (h : m.contains key = true) :
    ∃ a, m.get? key = some a :=
  Option.isSome_iff_exists.1 h

theorem lookup_isSome_iff (key : String) (entries : List (String × α)) :
    (lookup key entries).isSome = true ↔ key ∈ entries.map (·.1) := by
  induction entries with
  | nil => simp [lookup]
  | cons entry entries ih =>
    rw [lookup, List.map_cons, List.mem_cons]
    by_cases h : entry.1 = key
    · simp [h]
    · rw [if_neg h, ih]
      constructor
      · exact .inr
      · rintro (hkey | hmem)
        · exact absurd hkey.symm h
        · exact hmem

theorem mem_keys_iff {m : AddressMap α} {key : String} : key ∈ m.keys ↔ m.contains key = true :=
  (lookup_isSome_iff key m.entries).symm

theorem size_erase_le (m : AddressMap α) (key : String) : (m.erase key).size ≤ m.size :=
  List.length_filter_le _ _

/-- An erasure of a key that is there makes a map smaller. -/
theorem size_erase_lt {m : AddressMap α} {key : String} (h : m.contains key = true) :
    (m.erase key).size < m.size := by
  obtain ⟨entry, hentry, rfl⟩ := List.mem_map.1 (mem_keys_iff.2 h)
  exact List.length_filter_lt_length_iff_exists.2 ⟨entry, hentry, by simp⟩

/-- A map is empty if it has no keys. -/
theorem isEmpty_iff {m : AddressMap α} : m.isEmpty = true ↔ ∀ key, m.contains key = false := by
  rw [isEmpty, List.isEmpty_iff]
  constructor
  · intro h key
    rw [contains, get?, h]
    rfl
  · intro h
    cases he : m.entries with
    | nil => rfl
    | cons entry entries =>
      have hkey : m.contains entry.1 = true := by
        rw [contains, get?, he, lookup, if_pos rfl]
        rfl
      rw [h entry.1] at hkey
      cases hkey

end AddressMap

end LevinNet
