/-
Numbers at the front of a text. All digits that stand there belong to the number; too many of them,
a zero in front where none may stand, or a value outside the range make it no number at all.
-/
namespace LevinNet.Digits

/-- The value of a digit in a base up to sixteen. -/
def value? (base : Nat) (c : Char) : Option Nat :=
  let v :=
    if '0' ≤ c ∧ c ≤ '9' then c.toNat - '0'.toNat
    else if 'a' ≤ c ∧ c ≤ 'f' then c.toNat - 'a'.toNat + 10
    else if 'A' ≤ c ∧ c ≤ 'F' then c.toNat - 'A'.toNat + 10
    else base
  if v < base then some v else none

/-- The number that digits write. -/
def number (base : Nat) (digits : List Char) : Nat :=
  digits.foldl (fun n c => base * n + (value? base c).getD 0) 0

/-- What a number in a text may look like. -/
structure Format where
  base : Nat
  /-- The most digits that may stand there. -/
  maxDigits : Option Nat
  /-- Whether a number of two or more digits may begin with zero. -/
  leadingZeros : Bool
  /-- The least value that is out of range. -/
  bound : Nat

/-- The number at the front of a text, and the text behind it. -/
def read (f : Format) (cs : List Char) : Option (Nat × List Char) :=
  let isDigit c := (value? f.base c).isSome
  let digits := cs.takeWhile isDigit
  let n := number f.base digits
  if digits.isEmpty then none
  else if f.maxDigits.any (· < digits.length) then none
  else if !f.leadingZeros && digits.head? == some '0' && digits.length != 1 then none
  else if f.bound ≤ n then none
  else some (n, cs.dropWhile isDigit)

/-- The text behind a given character. -/
def skip (c : Char) : List Char → Option (List Char)
  | [] => none
  | d :: cs => if d = c then some cs else none

/-- A decimal number that is the whole text, with a plus sign in front or without. -/
def whole? (bound : Nat) (s : String) : Option Nat :=
  let cs := match s.toList with
    | '+' :: cs => cs
    | cs => cs
  match read ⟨10, none, true, bound⟩ cs with
  | some (n, []) => some n
  | _ => none

end LevinNet.Digits
