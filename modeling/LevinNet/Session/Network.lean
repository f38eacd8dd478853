import LevinNet.Bytes
import LevinNet.Text.Lowercase

/-
The networks that a peer can belong to, and what tells them apart on the wire.
-/
namespace LevinNet

inductive Network where
  | mainnet
  | testnet
  | stagenet
  deriving DecidableEq, Repr

namespace Network

def name : Network → String
  | .mainnet => "mainnet"
  | .testnet => "testnet"
  | .stagenet => "stagenet"

/-- The name with a capital letter. -/
def title : Network → String
  | .mainnet => "Mainnet"
  | .testnet => "Testnet"
  | .stagenet => "Stagenet"

/-- The sixteen bytes that mark a handshake of the network. -/
def id : Network → Bytes
  | .mainnet => Bytes.ofNatBig 16 0x1230f171610441611731008216a1a110
  | .testnet => Bytes.ofNatBig 16 0x1230f171610441611731008216a1a111
  | .stagenet => Bytes.ofNatBig 16 0x1230f171610441611731008216a1a112

/-- The port that peers of the network listen on. -/
def defaultPort : Network → UInt16
  | .mainnet => 18080
  | .testnet => 28080
  | .stagenet => 38080

/-- The id of the network's first block. -/
def genesisId : Network → Bytes
  | .mainnet =>
    Bytes.ofNatBig 32 0x418015bb9ae982a1975da7d79277c2705727a56894ba0fb246adaabb1f4632e3
  | .testnet =>
    Bytes.ofNatBig 32 0x48ca7cd3c8de5b6a4d53d2861fbdaedca141553559f9be9520068053cda8430b
  | .stagenet =>
    Bytes.ofNatBig 32 0x76ee3cc98646292206cd3e86f74d88b4dcc1d937088645e9b0cbca84b7ce74eb

/-- The network of a name, in any letter case, or the text of the error. -/
def parse (s : String) : Except String Network :=
  match Letter.lowercase s with
  | "mainnet" | "main" => .ok .mainnet
  | "testnet" | "test" => .ok .testnet
  | "stagenet" | "stage" => .ok .stagenet
  | other => .error s!"unknown network: {other}"

end Network

end LevinNet
