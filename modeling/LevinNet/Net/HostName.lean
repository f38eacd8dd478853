/-
Names of hosts: labels with points between them, and a point at the end or none. A text that is no
such name is never asked for.
-/
namespace LevinNet.HostName

/-- Whether a character may stand in a label. -/
def isLabelChar (c : Char) : Bool := c.isAlphanum || c == '-' || c == '_'

/-- Whether a text is a label: one to 63 characters. -/
def isLabel (s : String) : Bool := 0 < s.length && s.length ≤ 63 && s.toList.all isLabelChar

/-- The labels that a text writes. A point at the end is no label, and the point alone has none. -/
def labels (s : String) : List String :=
  if s = "." then []
  else
    let parts := s.splitOn "."
    if 1 < parts.length && parts.getLast? == some "" then parts.dropLast else parts

/-- Whether a text is a name: labels of at most 253 characters with their points, with no hyphen in
front. -/
def isName (s : String) : Bool :=
  let ls := labels s
  ls.all isLabel && (".".intercalate ls).length ≤ 253 && s.toList.head? != some '-'

end LevinNet.HostName
