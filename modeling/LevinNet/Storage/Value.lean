import LevinNet.Bytes
import LevinNet.Text.Utf8
import LevinNet.Storage.Kind

/-
The values of portable storage. A section is a list of named entries, in order; names may repeat,
and a look-up finds the first. An array states the kind of its elements, also when it has none.
-/
namespace LevinNet.Storage

/-- A double, held as the 64 bits of its binary form. -/
structure Double where
  bits : UInt64
  deriving DecidableEq, Repr

namespace Double

/-- Whether the bits write no number: the exponent is all ones and the fraction is not zero. -/
def isNaN (x : Double) : Bool :=
  x.bits.toNat % 0x8000000000000000 > 0x7ff0000000000000

/-- Whether the bits write zero, of either sign. -/
def isZero (x : Double) : Bool :=
  x.bits.toNat % 0x8000000000000000 == 0

/-- Equality of numbers: nothing equals a NaN, and the two zeros are equal. -/
def sameNumber (x y : Double) : Bool :=
  !x.isNaN && !y.isNaN && (x.bits == y.bits || (x.isZero && y.isZero))

end Double

/-- A value. The entries of an object are the entries of its section. -/
inductive Value where
  | int64 (n : Int64)
  | int32 (n : Int32)
  | int16 (n : Int16)
  | int8 (n : Int8)
  | uint64 (n : UInt64)
  | uint32 (n : UInt32)
  | uint16 (n : UInt16)
  | uint8 (n : UInt8)
  | double (x : Double)
  | string (bytes : Bytes)
  | bool (b : Bool)
  | object (entries : List (String × Value))
  | array (kind : Kind) (items : List Value)

/-- Named values in order. -/
abbrev Section := List (String × Value)

namespace Value

/-- The kind of a value. -/
def kind : Value → Kind
  | .int64 _ => .int64
  | .int32 _ => .int32
  | .int16 _ => .int16
  | .int8 _ => .int8
  | .uint64 _ => .uint64
  | .uint32 _ => .uint32
  | .uint16 _ => .uint16
  | .uint8 _ => .uint8
  | .double _ => .double
  | .string _ => .string
  | .bool _ => .bool
  | .object _ => .object
  | .array _ _ => .array

/-- The tag in front of a value on the wire; that of an array tells the kind of its elements. -/
def tag : Value → UInt8
  | .array k _ => k.arrayTag
  | v => v.kind.tag

theorem exists_of_kind_array {v : Value} (h : v.kind = .array) : ∃ k items, v = .array k items := by
  cases v with
  | array k items => exact ⟨k, items, rfl⟩
  | _ => cases h

/-- All values but arrays have the tags of their kinds. -/
theorem tag_of_kind_ne {v : Value} (h : v.kind ≠ .array) : v.tag = v.kind.tag := by
  cases v with
  | array k items => exact absurd rfl h
  | _ => rfl

/-- A text as a string value. -/
def text (s : String) : Value := .string (Utf8.encode s)

/-- An array of objects. -/
def ofSections (sections : List Section) : Value :=
  .array .object (sections.map .object)

/-! ## Accessors: each answers for its own kind only -/

def int64? : Value → Option Int64
  | .int64 n => some n
  | _ => none

def uint8? : Value → Option UInt8
  | .uint8 n => some n
  | _ => none

def uint16? : Value → Option UInt16
  | .uint16 n => some n
  | _ => none

def uint32? : Value → Option UInt32
  | .uint32 n => some n
  | _ => none

def uint64? : Value → Option UInt64
  | .uint64 n => some n
  | _ => none

/-- The number of an unsigned value of any width. -/
def unsigned? : Value → Option Nat
  | .uint8 n => some n.toNat
  | .uint16 n => some n.toNat
  | .uint32 n => some n.toNat
  | .uint64 n => some n.toNat
  | _ => none

def double? : Value → Option Double
  | .double x => some x
  | _ => none

def bool? : Value → Option Bool
  | .bool b => some b
  | _ => none

def bytes? : Value → Option Bytes
  | .string bs => some bs
  | _ => none

/-- The text of a string value whose bytes are well-formed UTF-8. -/
def text? (v : Value) : Option String := v.bytes?.bind Utf8.decode?

def section? : Value → Option Section
  | .object entries => some entries
  | _ => none

/-- The element kind and the elements of an array. -/
def array? : Value → Option (Kind × List Value)
  | .array k items => some (k, items)
  | _ => none

/-! ## Equality as numbers: like structural equality, but doubles compare as numbers -/

mutual

def same : Value → Value → Bool
  | .int64 a, .int64 b => a == b
  | .int32 a, .int32 b => a == b
  | .int16 a, .int16 b => a == b
  | .int8 a, .int8 b => a == b
  | .uint64 a, .uint64 b => a == b
  | .uint32 a, .uint32 b => a == b
  | .uint16 a, .uint16 b => a == b
  | .uint8 a, .uint8 b => a == b
  | .double a, .double b => a.sameNumber b
  | .string a, .string b => a == b
  | .bool a, .bool b => a == b
  | .object a, .object b => sameEntries a b
  | .array k a, .array l b => k == l && sameItems a b
  | _, _ => false

def sameEntries : List (String × Value) → List (String × Value) → Bool
  | [], [] => true
  | (n, v) :: a, (m, w) :: b => n == m && same v w && sameEntries a b
  | _, _ => false

def sameItems : List Value → List Value → Bool
  | [], [] => true
  | v :: a, w :: b => same v w && sameItems a b
  | _, _ => false

end

/-! ## Shape of a tree -/

mutual

/-- How many objects and arrays stand inside one another, the value itself included. -/
def depth : Value → Nat
  | .object entries => entriesDepth entries + 1
  | .array _ items => itemsDepth items + 1
  | _ => 0

/-- The greatest depth among the values of some entries. -/
def entriesDepth : List (String × Value) → Nat
  | [] => 0
  | (_, v) :: entries => max v.depth (entriesDepth entries)

/-- The greatest depth among some elements. -/
def itemsDepth : List Value → Nat
  | [] => 0
  | v :: items => max v.depth (itemsDepth items)

end

mutual

/-- Whether every array in the tree holds only values of its declared kind. -/
def Uniform : Value → Prop
  | .object entries => UniformEntries entries
  | .array k items => UniformItems k items
  | _ => True

def UniformEntries : List (String × Value) → Prop
  | [] => True
  | (_, v) :: entries => v.Uniform ∧ UniformEntries entries

def UniformItems (k : Kind) : List Value → Prop
  | [] => True
  | v :: items => v.kind = k ∧ v.Uniform ∧ UniformItems k items

end

end Value

namespace Section

/-- The first value of a name. -/
def value? (s : Section) (name : String) : Option Value :=
  (s.find? fun entry => entry.1 == name).map (·.2)

/-- The section under a name, if the first value of the name is an object. -/
def section? (s : Section) (name : String) : Option Section :=
  (s.value? name).bind Value.section?

/-- The value under some names, one section inside the other. -/
def path? (s : Section) : List String → Option Value
  | [] => none
  | [name] => s.value? name
  | name :: names => (s.section? name).bind (path? · names)

/-- The section with one more entry at its end. -/
def push (s : Section) (name : String) (v : Value) : Section :=
  s ++ [(name, v)]

/-- How many sections and arrays stand inside one another, the section itself included. -/
def depth (s : Section) : Nat := Value.entriesDepth s + 1

/-- Whether every array in the section holds only values of its declared kind. -/
def Uniform (s : Section) : Prop := Value.UniformEntries s

end Section

end LevinNet.Storage
