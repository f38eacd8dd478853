import LevinNet.Text.EscapeTable
import LevinNet.Text.Lowercase

/-
Quoted text: between double quotes, with a backslash in front of what cannot stand there as it is.
Characters without a visible form are written by number.
-/
namespace LevinNet.Quoted

/-- A character by its number. -/
def numbered (c : Char) : List Char :=
  ['\\', 'u', '\x7b'] ++ Nat.toDigits 16 c.toNat ++ ['\x7d']

/-- What stands for a character between the quotes. -/
def escape (c : Char) : List Char :=
  match c with
  | '\x00' => ['\\', '0']
  | '\t' => ['\\', 't']
  | '\r' => ['\\', 'r']
  | '\n' => ['\\', 'n']
  | '"' => ['\\', '"']
  | '\\' => ['\\', '\\']
  | c =>
    if c.toNat < 0x20 || c.toNat == 0x7f || Letter.inRanges escapedRanges c then numbered c
    else [c]

/-- A text in quotes. -/
def text (s : String) : String :=
  String.ofList ('"' :: s.toList.flatMap escape ++ ['"'])

end LevinNet.Quoted
