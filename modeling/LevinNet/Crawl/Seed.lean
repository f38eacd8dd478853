import LevinNet.Dial.Host
import LevinNet.Peer
import LevinNet.Session.Network

/-
Seeds: the texts from which a crawl starts. A seed is an endpoint, an address that listens on the
network's port, or a name with a port or without, which has to have an IPv4 address.
-/
namespace LevinNet.Seed

/-- The first IPv4 endpoint among some addresses. -/
def firstV4 : List SocketAddress → Option Endpoint
  | [] => none
  | .v4 e :: _ => some e
  | .v6 _ _ _ :: addresses => firstV4 addresses

/-- The peer that a seed stands for, or the reason why it stands for none. -/
def resolve (host : Host) (network : Network) (seed : String) : Except String Peer :=
  match Endpoint.parse? seed with
  | some e => .ok (.ofEndpoint e)
  | none =>
    match Ipv4.parse? seed with
    | some ip => .ok (.ofEndpoint ⟨ip, network.defaultPort⟩)
    | none =>
      let withPort :=
        if seed.toList.contains ':' then seed else s!"{seed}:{network.defaultPort.toNat}"
      match host.resolve withPort with
      | .error reason => .error reason
      | .ok addresses =>
        match firstV4 addresses with
        | some e => .ok (.ofEndpoint e)
        | none => .error "no IPv4 address"

end LevinNet.Seed
