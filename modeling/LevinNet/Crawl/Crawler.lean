import LevinNet.Crawl.Schedule
import LevinNet.Crawl.Seed
import LevinNet.Dial.Open
import LevinNet.Dial.ProxyCheck

/-
Crawlers: how a crawl is set up, and whole crawls from seed texts. A crawl fails before it touches any
peer, for want of seeds, for a seed that stands for no peer, or for an unusable proxy, in this order;
failures of single peers are part of its report. The connections that are attempted on the way are
logged.
-/
namespace LevinNet

structure Crawler where
  network : Network
  workers : Nat
  /-- How long a handshake may take. -/
  peerTimeout : Duration
  /-- How long a dial may take. -/
  dialTimeout : Duration
  deadline : Option Duration
  proxy : Option SocketAddress
  stopWhenQuiescent : Bool
  deriving DecidableEq

/-- Why a crawl did not start. -/
inductive CrawlError where
  | noSeeds
  | seedResolution (seed reason : String)
  | proxy (cause : SessionError)
  deriving DecidableEq, Repr

namespace CrawlError

/-- The text of a crawl error. -/
def message : CrawlError → String
  | .noSeeds => "No seed peers given"
  | .seedResolution seed reason => s!"Cannot resolve seed {seed}: {reason}"
  | .proxy cause => s!"Proxy unusable: {cause.message}"

/-- The texts of the errors underneath, outermost first. -/
def causes : CrawlError → List String
  | .proxy cause => cause.message :: cause.causes
  | _ => []

end CrawlError

/-- An attempt to connect. -/
inductive Dial where
  | proxy (address : SocketAddress)
  /-- To the peer of an address, directly or through the proxy. -/
  | peer (address : String)
  deriving DecidableEq

/-- What comes of something that may connect. -/
structure Dialled (α : Type) where
  /-- The attempts to connect, in order. -/
  dials : List Dial
  result : α

/-- What comes of a crawl that was prepared. -/
inductive CrawlOutcome where
  /-- A time that is set lies beyond the end of the clock. No error is returned: the program panics once
  the workers are started, and gives them up, with whatever visits they began by then. -/
  | overflow
  /-- It came as far as this. -/
  | crawled (s : Crawl.System)

/-- The addresses that visits were begun to, in order, as far as they are known. -/
def CrawlOutcome.attempts : CrawlOutcome → List String
  | .overflow => []
  | .crawled s => s.attempts.reverse

namespace Crawler

/-- A crawler of a network with nothing else set. -/
def new (n : Network) : Crawler where
  network := n
  workers := 250
  peerTimeout := .ofSeconds 20
  dialTimeout := Config.defaultDialTimeout
  deadline := none
  proxy := none
  stopWhenQuiescent := true

/-- A crawler that dials through a proxy; a text that is no address is refused. -/
def withProxy (c : Crawler) (proxy : String) : Except String Crawler :=
  match SocketAddress.parse? proxy with
  | some a => .ok { c with proxy := some a }
  | none => .error s!"Invalid proxy address: {proxy}"

/-- A crawler with a number of workers, at least one. -/
def withWorkers (c : Crawler) (n : Nat) : Crawler := { c with workers := max n 1 }

/-- All settings of a crawler. -/
def text (c : Crawler) : String :=
  let optional (t : Option String) := match t with
    | some t => s!"Some({t})"
    | none => "None"
  s!"Crawler \x7b network: {c.network.title}, max_concurrent_tasks: {c.workers}, " ++
    s!"peer_timeout: {c.peerTimeout.text}, connection_timeout: {c.dialTimeout.text}, " ++
    s!"deadline: {optional (c.deadline.map (·.text))}, " ++
    s!"proxy: {optional (c.proxy.map (·.text))}, " ++
    s!"stop_when_quiescent: {c.stopWhenQuiescent} \x7d"

def settings (c : Crawler) : Crawl.Settings := ⟨c.workers, c.stopWhenQuiescent⟩

/-- How the crawler's sessions are configured. -/
def config (c : Crawler) : Config :=
  { Config.nonListening c.network with dialTimeout := c.dialTimeout, proxy := c.proxy }

/-- The peers that some seeds stand for, or the error of the first that stands for none. -/
def resolveSeeds (c : Crawler) (host : Host) : List String → Except CrawlError (List Peer)
  | [] => .ok []
  | seed :: seeds =>
    match Seed.resolve host c.network seed with
    | .error reason => .error (.seedResolution seed reason)
    | .ok p => (c.resolveSeeds host seeds).map (p :: ·)

/-- What has to hold before any peer is touched: the seeds, resolved, and a usable proxy. -/
def prepare (c : Crawler) (host : Host) (seeds : List String) :
    Dialled (Except CrawlError (List Peer)) :=
  if seeds.isEmpty then ⟨[], .error .noSeeds⟩
  else
    match c.resolveSeeds host seeds with
    | .error e => ⟨[], .error e⟩
    | .ok peers =>
      match c.proxy with
      | none => ⟨[], .ok peers⟩
      | some proxy =>
        let check := ProxyCheck.run proxy c.dialTimeout (host.reach proxy)
        ⟨[.proxy proxy], (check.result.mapError .proxy).map fun _ => peers⟩

/-- A visit to an endpoint from a host. -/
def meet (c : Crawler) (host : Host) (localId localTime : UInt64) (e : Endpoint) : Dialogue Reply :=
  let opening := Session.open host c.config (.ofEndpoint e) localId localTime
  match opening.result with
  | .error cause => ⟨.unreached cause, opening.written, opening.nanos⟩
  | .ok s =>
    let (result, s) := s.handshake c.peerTimeout
    let reply := match result with
      | .error cause => .failed cause
      | .ok d => .directory d
    ⟨reply, opening.written ++ s.sink.written, s.clock⟩

/-- How an endpoint behaves when it is visited from a host. -/
def encounter (c : Crawler) (host : Host) (localId localTime : UInt64) (e : Endpoint) : Encounter :=
  let d := c.meet host localId localTime e
  .ends d.result d.nanos

/-- The world as a host sees it, where no endpoint but the listed ones advertises peers. -/
def world (c : Crawler) (host : Host) (localId localTime : UInt64) (listed : List Endpoint) :
    Crawl.World where
  encounter := c.encounter host localId localTime
  advertised :=
    let each := listed.map fun e => Crawl.World.advertisedBy (c.encounter host localId localTime e)
    each.foldl (· + ·) 0

/-- Crawl a world from some peers, as far as the crawl comes by the instant `horizon`. -/
def crawlWith (c : Crawler) (w : Crawl.World) (cancel : Option Duration) (horizon : Duration)
    (peers : List Peer) : Crawl.System :=
  Crawl.crawl c.settings w ⟨c.deadline, cancel⟩ horizon peers

/-- How long it takes to the first line about the progress of a crawl. -/
def progressInterval : Duration := .ofSeconds 30

/-- Whether a time that a crawl sets, on a clock that has been running for `uptime`, lies beyond the end of
the clock: it counts seconds in 63 bits. -/
def beyondClock (c : Crawler) (uptime : Duration) : Bool :=
  let beyond (d : Duration) : Bool :=
    (Duration.ofSeconds 0x8000000000000000).nanos ≤ uptime.nanos + d.nanos
  c.deadline.any beyond || beyond progressInterval

/-- What comes of a crawl from some peers. -/
def outcome (c : Crawler) (host : Host) (w : Crawl.World) (cancel : Option Duration)
    (horizon : Duration) (peers : List Peer) : CrawlOutcome :=
  if c.beyondClock host.uptime then .overflow else .crawled (c.crawlWith w cancel horizon peers)

/-- Crawl from some seeds: fail as `prepare` does, or crawl the world that the host sees. Every visit that
is begun is an attempt to connect. -/
def crawlUntil (c : Crawler) (host : Host) (w : Crawl.World) (cancel : Option Duration)
    (horizon : Duration) (seeds : List String) : Dialled (Except CrawlError CrawlOutcome) :=
  let prepared := c.prepare host seeds
  match prepared.result with
  | .error e => ⟨prepared.dials, .error e⟩
  | .ok peers =>
    let outcome := c.outcome host w cancel horizon peers
    ⟨prepared.dials ++ outcome.attempts.map .peer, .ok outcome⟩

end Crawler

end LevinNet
