/-
The kinds of value that portable storage knows, their tags on the wire and their names.
-/
namespace LevinNet.Storage

/-- What a value or an array element is. -/
inductive Kind where
  | int64 | int32 | int16 | int8
  | uint64 | uint32 | uint16 | uint8
  | double | string | bool | object | array
  deriving DecidableEq, Repr

namespace Kind

/-- The tag that stands for the kind on the wire. -/
def tag : Kind → UInt8
  | .int64 => 1
  | .int32 => 2
  | .int16 => 3
  | .int8 => 4
  | .uint64 => 5
  | .uint32 => 6
  | .uint16 => 7
  | .uint8 => 8
  | .double => 9
  | .string => 10
  | .bool => 11
  | .object => 12
  | .array => 13

/-- The kind that a tag stands for. -/
def ofTag? (tag : UInt8) : Option Kind :=
  match tag.toNat with
  | 1 => some .int64
  | 2 => some .int32
  | 3 => some .int16
  | 4 => some .int8
  | 5 => some .uint64
  | 6 => some .uint32
  | 7 => some .uint16
  | 8 => some .uint8
  | 9 => some .double
  | 10 => some .string
  | 11 => some .bool
  | 12 => some .object
  | 13 => some .array
  | _ => none

/-- The tag of an array whose elements are of this kind: the element's tag with its top bit set. -/
def arrayTag (k : Kind) : UInt8 := k.tag + 128

/-- The kind's name. -/
def name : Kind → String
  | .int64 => "int64"
  | .int32 => "int32"
  | .int16 => "int16"
  | .int8 => "int8"
  | .uint64 => "uint64"
  | .uint32 => "uint32"
  | .uint16 => "uint16"
  | .uint8 => "uint8"
  | .double => "double"
  | .string => "string"
  | .bool => "bool"
  | .object => "object"
  | .array => "array"

/-- The kind of a name. -/
def ofName? (s : String) : Option Kind :=
  [int64, int32, int16, int8, uint64, uint32, uint16, uint8, double, string, bool, object, array].find?
    fun k => k.name = s

/-- The fewest bytes that one element of the kind takes inside an array: a string or an object is at
least its count, a nested array its tag and its count. -/
def minSize : Kind → Nat
  | .int64 | .uint64 | .double => 8
  | .int32 | .uint32 => 4
  | .int16 | .uint16 => 2
  | .int8 | .uint8 | .bool | .string | .object => 1
  | .array => 2

@[simp] theorem ofTag?_tag (k : Kind) : ofTag? k.tag = some k := by
  cases k <;> rfl

/-- Below the top bit, the tag of an array is that of its elements. -/
@[simp] theorem ofTag?_arrayTag_mod (k : Kind) : ofTag? (k.arrayTag % 128) = some k := by
  cases k <;> rfl

@[simp] theorem ofTag?_tag_mod (k : Kind) : ofTag? (k.tag % 128) = some k := by
  cases k <;> rfl

theorem le_arrayTag (k : Kind) : 128 ≤ k.arrayTag := by
  cases k <;> decide

theorem not_le_tag (k : Kind) : ¬ 128 ≤ k.tag := by
  cases k <;> decide

theorem tag_of_ofTag? {t : UInt8} {k : Kind} (h : ofTag? t = some k) : k.tag = t := by
  unfold ofTag? at h
  split at h <;> first
    | cases h; apply UInt8.toNat_inj.1; simp_all [tag]
    | cases h

/-- A tag without the top bit is that of the kind in its low bits. -/
theorem tag_of_ofTag?_mod {t : UInt8} {k : Kind} (h : ofTag? (t % 128) = some k)
    (hlt : ¬ 128 ≤ t) : k.tag = t := by
  rw [tag_of_ofTag? h, ← UInt8.toNat_inj, UInt8.toNat_mod]
  exact Nat.mod_eq_of_lt (UInt8.lt_iff_toNat_lt.1 (UInt8.not_le.1 hlt))

/-- A tag with the top bit is that of the arrays of the kind in its low bits. -/
theorem arrayTag_of_ofTag?_mod {t : UInt8} {k : Kind} (h : ofTag? (t % 128) = some k)
    (hle : 128 ≤ t) : k.arrayTag = t := by
  have hlt := t.toNat_lt
  rw [UInt8.le_iff_toNat_le] at hle
  rw [arrayTag, tag_of_ofTag? h, ← UInt8.toNat_inj, UInt8.toNat_add, UInt8.toNat_mod]
  simp only [UInt8.reduceToNat] at hle ⊢
  omega

end Kind

end LevinNet.Storage
