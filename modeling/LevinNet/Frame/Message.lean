import LevinNet.Frame.Command
import LevinNet.Frame.Header
import LevinNet.Storage.Blob

/-
Messages: a header and the payload that it announces. Every way to build one makes the header's
length the length of the payload.
-/
namespace LevinNet

structure Message where
  header : Header
  payload : Bytes
  deriving DecidableEq, Repr

namespace Message

/-- The return code of success; negative codes are failures. -/
def returnOk : Int32 := 0

/-- A request with a payload. -/
def requestWith (c : Command) (expectsResponse : Bool) (payload : Bytes) : Message where
  header := {
    length := UInt64.ofNat payload.length
    expectsResponse
    command := c.id
    returnCode := returnOk
    flags := .request
    version := 0 }
  payload

/-- A request without a payload. -/
def request (c : Command) (expectsResponse : Bool) : Message :=
  requestWith c expectsResponse []

/-- A request whose payload is the name of the command. -/
def namedRequest (c : Command) (expectsResponse : Bool) : Message :=
  requestWith c expectsResponse (Utf8.encode c.name)

/-- A request that carries a storage tree. -/
def storageRequest (c : Command) (expectsResponse : Bool) (root : Storage.Section) :
    Except StorageError Message := do
  let payload ← Storage.encode root
  return requestWith c expectsResponse payload

/-- A response that carries a storage tree. -/
def storageResponse (command : UInt32) (returnCode : Int32) (root : Storage.Section) :
    Except StorageError Message := do
  let payload ← Storage.encode root
  return {
    header := {
      length := UInt64.ofNat payload.length
      expectsResponse := false
      command
      returnCode
      flags := .response
      version := 0 }
    payload }

/-- A message of a header and a payload, if the header announces that many bytes. -/
def ofParts? (header : Header) (payload : Bytes) : Option Message :=
  if header.length.toNat = payload.length then some ⟨header, payload⟩ else none

/-- The command of a message, if it is a known one. -/
def command? (m : Message) : Option Command := Command.ofId? m.header.command

/-- The storage tree in the payload. -/
def storage (m : Message) : Except StorageError Storage.Section := Storage.decode m.payload

/-- The written form of a message. -/
def encode (m : Message) : Bytes := m.header.encode ++ m.payload

/-- One line about a message. -/
def text (m : Message) : String :=
  let subject := match m.command? with
    | some c => c.text
    | none => s!"unknown ({Hex.literal 4 m.header.command.toNat})"
  let code := toString m.header.returnCode.toInt
  s!"{subject} [{m.header.flags.text}] {m.payload.length} bytes, return code {code}"

end Message

end LevinNet
