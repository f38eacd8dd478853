/-
Byte strings and fixed-width little-endian numbers. `ofNat width n` writes the low `width` bytes of a
number and `toNat` reads a byte string back; the laws say that each undoes the other, up to the
bytes that do not fit.
-/
namespace LevinNet

/-- A byte string, first byte first. -/
abbrev Bytes := List UInt8

namespace Bytes

/-- The `width` low-order bytes of a number, least significant first. -/
def ofNat : (width : Nat) → Nat → Bytes
  | 0, _ => []
  | width + 1, n => UInt8.ofNat n :: ofNat width (n / 256)

/-- The number that a byte string writes, least significant byte first. -/
def toNat : Bytes → Nat
  | [] => 0
  | b :: bs => b.toNat + 256 * toNat bs

/-- The `width` low-order bytes of a number, most significant first. -/
def ofNatBig (width n : Nat) : Bytes := (ofNat width n).reverse

/-- How many numbers `width` bytes can write. -/
def bound : (width : Nat) → Nat
  | 0 => 1
  | width + 1 => 256 * bound width

/-- Whether the string has at least `n` bytes; looks at no more than those. -/
def holds : (n : Nat) → Bytes → Bool
  | 0, _ => true
  | _ + 1, [] => false
  | n + 1, _ :: bs => holds n bs

@[simp] theorem length_ofNat (width n : Nat) : (ofNat width n).length = width := by
  induction width generalizing n with
  | zero => rfl
  | succ width ih => simp [ofNat, ih]

theorem toNat_lt (bs : Bytes) : toNat bs < bound bs.length := by
  induction bs with
  | nil => exact Nat.one_pos
  | cons b bs ih =>
    have hb := b.toNat_lt
    simp only [toNat, List.length_cons, bound]
    omega

/-- Reading back what was written gives the number, less what does not fit. -/
theorem toNat_ofNat (width n : Nat) : toNat (ofNat width n) = n % bound width := by
  induction width generalizing n with
  | zero => simp only [ofNat, toNat, bound, Nat.mod_one]
  | succ width ih =>
    have hb : (UInt8.ofNat n).toNat = n % 256 := UInt8.toNat_ofNat'
    rw [ofNat, toNat, ih, hb, bound, Nat.mod_mul]

/-- A byte string is the written form of the number that it writes. -/
theorem ofNat_toNat (bs : Bytes) : ofNat bs.length (toNat bs) = bs := by
  induction bs with
  | nil => rfl
  | cons b bs ih =>
    have hb := b.toNat_lt
    have h0 : UInt8.ofNat (b.toNat + 256 * toNat bs) = b := by
      apply UInt8.toNat_inj.1
      simp only [UInt8.toNat_ofNat']
      omega
    have h1 : (b.toNat + 256 * toNat bs) / 256 = toNat bs := by omega
    simp only [List.length_cons, ofNat, toNat, h0, h1, ih]

theorem holds_iff (n : Nat) (bs : Bytes) : holds n bs = true ↔ n ≤ bs.length := by
  induction n generalizing bs with
  | zero => simp [holds]
  | succ n ih => cases bs <;> simp [holds, ih]

end Bytes

end LevinNet
