import LevinNet.Text.CaseTable

/-
Lower case of a whole text. Each character has its own lower case but two: the dotted capital I
becomes two characters, and a capital sigma becomes a final sigma at the end of a word.
-/
namespace LevinNet.Letter

/-- Whether a character stands in one of the ranges. -/
def inRanges (ranges : Array (Nat × Nat)) (c : Char) : Bool :=
  ranges.any fun r => r.1 ≤ c.toNat && c.toNat ≤ r.2

/-- The lower case of a character that has one of one character, else the character. -/
def lower (c : Char) : Char :=
  let n := c.toNat
  match caseRuns.find? fun r => r.first ≤ n && n ≤ r.last && (n - r.first) % r.step == 0 with
  | some r => Char.ofNat (n + r.shift).toNat
  | none => c

/-- Whether the first character that is not passed over is a cased letter. -/
def casedAhead (cs : List Char) : Bool :=
  match cs.dropWhile (inRanges ignorableRanges) with
  | [] => false
  | c :: _ => inRanges casedRanges c

/-- The lower case of a text, given what stands before it in reverse. -/
def lowerAll (before : List Char) : List Char → List Char
  | [] => []
  | c :: cs =>
    let here :=
      if c = 'Σ' then [if casedAhead before && !casedAhead cs then 'ς' else 'σ']
      else if c = 'İ' then ['i', '\u0307']
      else [lower c]
    here ++ lowerAll (c :: before) cs

/-- The lower case of a text. -/
def lowercase (s : String) : String := String.ofList (lowerAll [] s.toList)

end LevinNet.Letter
