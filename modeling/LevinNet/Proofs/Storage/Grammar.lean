import LevinNet.Proofs.Storage.VarintForm
import LevinNet.Storage.Error
import LevinNet.Storage.Value

/-
The grammar of storage trees, as a relation between trees and byte strings that mentions no reader
and no writer. A tree may have many forms: a count may stand in any width that holds it, and a true
bool in any byte but zero. Names, tags and fixed-width numbers have one form each.

What is proved here is how long forms are at least: an entry takes three bytes (`length_of_entries`),
and an element of an array what its kind says (`minSize_le_of_items`). These are the bounds by which a
reader may refuse a count before it reads what is counted.
-/
namespace LevinNet.Storage

mutual

/-- `bs` is a form of a value, without its tag. -/
inductive Value.Form : Value → Bytes → Prop where
  | int64 (n : Int64) : Value.Form (.int64 n) (Bytes.ofNat 8 n.toUInt64.toNat)
  | int32 (n : Int32) : Value.Form (.int32 n) (Bytes.ofNat 4 n.toUInt32.toNat)
  | int16 (n : Int16) : Value.Form (.int16 n) (Bytes.ofNat 2 n.toUInt16.toNat)
  | int8 (n : Int8) : Value.Form (.int8 n) (Bytes.ofNat 1 n.toUInt8.toNat)
  | uint64 (n : UInt64) : Value.Form (.uint64 n) (Bytes.ofNat 8 n.toNat)
  | uint32 (n : UInt32) : Value.Form (.uint32 n) (Bytes.ofNat 4 n.toNat)
  | uint16 (n : UInt16) : Value.Form (.uint16 n) (Bytes.ofNat 2 n.toNat)
  | uint8 (n : UInt8) : Value.Form (.uint8 n) [n]
  | double (x : Double) : Value.Form (.double x) (Bytes.ofNat 8 x.bits.toNat)
  | bool (b : UInt8) : Value.Form (.bool (b != 0)) [b]
  | string {bs count : Bytes} :
    Varint.Form bs.length count → Value.Form (.string bs) (count ++ bs)
  | object {entries : Section} {count body : Bytes} :
    Varint.Form entries.length count → EntriesForm entries body →
    Value.Form (.object entries) (count ++ body)
  | array {k : Kind} {items : List Value} {count body : Bytes} :
    Varint.Form items.length count → ItemsForm k items body →
    Value.Form (.array k items) (count ++ body)

/-- `bs` is a form of some entries: each a length byte, the name, a tag and the value. -/
inductive EntriesForm : Section → Bytes → Prop where
  | nil : EntriesForm [] []
  | cons {name : String} {v : Value} {body : Bytes} {entries : Section} {others : Bytes} :
    (Utf8.encode name).length ≤ maxNameLength → Value.Form v body → EntriesForm entries others →
    EntriesForm ((name, v) :: entries)
      (UInt8.ofNat (Utf8.encode name).length :: (Utf8.encode name ++ v.tag :: (body ++ others)))

/-- `bs` is a form of some elements of an array of a kind. Elements that are arrays themselves state
their own tags, all others have none. -/
inductive ItemsForm : Kind → List Value → Bytes → Prop where
  | nil {k : Kind} : ItemsForm k [] []
  | cons {v : Value} {body : Bytes} {items : List Value} {others : Bytes} :
    v.kind ≠ .array → Value.Form v body → ItemsForm v.kind items others →
    ItemsForm v.kind (v :: items) (body ++ others)
  | tagged {v : Value} {body : Bytes} {items : List Value} {others : Bytes} :
    v.kind = .array → Value.Form v body → ItemsForm .array items others →
    ItemsForm .array (v :: items) (v.tag :: (body ++ others))

end

/-- `bs` is a form of a section that is nested no deeper than is read. -/
structure Section.Form (s : Section) (bs : Bytes) : Prop where
  form : (Value.object s).Form bs
  shallow : s.depth ≤ maxDepth

/-! ## The least sizes of forms -/

/-- A value takes at least as many bytes as its kind, but that the tag of an array is not counted. -/
theorem minSize_le_of_form {v : Value} {bs : Bytes} (h : v.Form bs) (hk : v.kind ≠ .array) :
    v.kind.minSize ≤ bs.length := by
  cases h with
  | string hc | object hc _ =>
    have := Varint.length_pos_of_form hc
    simp only [Value.kind, Kind.minSize, List.length_append]
    omega
  | array hc _ => exact absurd rfl hk
  | _ => simp [Value.kind, Kind.minSize]

theorem length_pos_of_form {v : Value} {bs : Bytes} (h : v.Form bs) : 0 < bs.length := by
  cases h with
  | string hc | object hc _ | array hc _ =>
    have := Varint.length_pos_of_form hc
    simp only [List.length_append]
    omega
  | _ => simp

/-- An entry takes at least the byte of its length, its tag and one byte of its value. -/
theorem length_of_entries {entries : Section} {bs : Bytes} (h : EntriesForm entries bs) :
    entries.length * 3 ≤ bs.length := by
  induction entries generalizing bs with
  | nil => simp
  | cons entry entries ih =>
    cases h with
    | cons _ hv hes =>
      have := length_pos_of_form hv
      have := ih hes
      simp only [List.length_cons, List.length_append]
      omega

theorem minSize_le_of_items {k : Kind} {items : List Value} {bs : Bytes} (h : ItemsForm k items bs) :
    items.length * k.minSize ≤ bs.length := by
  induction items generalizing bs with
  | nil => simp
  | cons v items ih =>
    cases h with
    | cons hk hv his =>
      have := minSize_le_of_form hv hk
      have := ih his
      simp only [List.length_cons, Nat.succ_mul, List.length_append]
      omega
    | tagged _ hv his =>
      have := length_pos_of_form hv
      have := ih his
      simp only [Kind.minSize] at this
      simp only [List.length_cons, List.length_append, Kind.minSize]
      omega

/-! ## Kinds of elements -/

theorem kind_of_mem_items {k : Kind} {items : List Value} {bs : Bytes} (h : ItemsForm k items bs) :
    ∀ v ∈ items, v.kind = k := by
  induction items generalizing bs with
  | nil => intro v hv; simp at hv
  | cons w items ih =>
    intro v hv
    cases h with
    | cons _ _ his =>
      rcases List.mem_cons.1 hv with rfl | hv
      · rfl
      · exact ih his v hv
    | tagged hk _ his =>
      rcases List.mem_cons.1 hv with rfl | hv
      · exact hk
      · exact ih his v hv

end LevinNet.Storage
