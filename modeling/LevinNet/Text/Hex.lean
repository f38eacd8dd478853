/-
Hexadecimal text of numbers, in lower case.
-/
namespace LevinNet.Hex

/-- The hexadecimal digits of a number, with zeros in front up to `width` digits. -/
def padded (width n : Nat) : String :=
  let digits := Nat.toDigits 16 n
  String.ofList (List.replicate (width - digits.length) '0' ++ digits)

/-- The digits after a `0x`. -/
def literal (width n : Nat) : String :=
  "0x" ++ padded width n

end LevinNet.Hex
