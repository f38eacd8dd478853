import LevinNet.Frame.Header

/-
What can go wrong while frames are moved, and the texts for it.
-/
namespace LevinNet

inductive FrameError where
  /-- The byte source or sink failed; the text is its own. -/
  | io (text : String)
  | header (cause : HeaderError)
  /-- The header announces more bytes than the reader takes. -/
  | payloadTooLarge (length ceiling : Nat)
  /-- The header announces more bytes than can be allocated. No error comes back from this: it stops the
  program, or unwinds it to where that is caught. -/
  | capacityOverflow
  deriving DecidableEq, Repr

namespace FrameError

/-- Whether the bytes themselves are at fault. -/
def isFraming : FrameError → Bool
  | .io _ | .capacityOverflow => false
  | .header _ | .payloadTooLarge _ _ => true

/-- The text of a frame error. -/
def message : FrameError → String
  | .io text => s!"IO error: {text}"
  | .header cause => s!"Malformed header: {cause.message}"
  | .payloadTooLarge length ceiling => s!"Payload of {length} bytes exceeds maximum of {ceiling}"
  | .capacityOverflow => "capacity overflow"

/-- The texts of the errors underneath, outermost first. -/
def causes : FrameError → List String
  | .io text => [text]
  | .header cause => [cause.message]
  | .payloadTooLarge _ _ | .capacityOverflow => []

end FrameError

end LevinNet
