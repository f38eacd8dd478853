import LevinNet.CommandLine.Run
import LevinNet.Live.Recording
import LevinNet.Live.SocksClient
import Std.Async.Signal
import Std.Time

/-
Crawls on real sockets. The moves are those of a schedule; what a visit comes to is known once its
attempt is recorded, and until then the visit is one that never ends.
-/
namespace LevinNet.Live

open Std.Async (Async AsyncTask)

/-- Names and the addresses that they have. -/
abbrev Names := AddressMap (Except String (Array Std.Net.IPAddr))

/-- A host that knows some names, and of which every attempt is the same, its clock just started. -/
def hostOf (names : Names) (reach : Attempt String) (tunnel : Attempt TunnelFailure)
    (noDelay : Option String) : Host where
  reach _ := reach
  tunnel _ _ := tunnel
  noDelay _ := noDelay
  lookup name port :=
    match names.get? name with
    | some (.ok addresses) => .ok (addresses.toList.map (ofNetAddress port))
    | some (.error reason) => .error reason
    | none => Host.lookupLocally name port
  uptime := ⟨0⟩

/-- Look up the names in some seeds; a text with a null character is none. -/
def lookUp (seeds : List String) : Async Names := do
  let mut names : Names := .empty
  for seed in seeds do
    let name := ((Host.splitPort seed).map (·.1)).getD seed
    if let .error _ := Host.lookupLocally name 0 then
      unless names.contains name || name.toList.contains '\x00' do
        names := names.insert name (← addressesOf name)
  return names

/-- The peers of some seeds, once the proxy is found to be usable. -/
def prepare (c : Crawler) (seeds : List String) : Async (Except CrawlError (List Peer)) := do
  let names ← lookUp seeds
  let host attempt := hostOf names attempt .unanswered none
  match ({ c with proxy := none }.prepare (host .unanswered) seeds).result, c.proxy with
  | .ok _, some proxy =>
    let (_, attempt) ← record proxy c.dialTimeout failureText (fun _ => return .ok ()) fun _ =>
      ProxyCheck.run proxy c.dialTimeout
    return (c.prepare (host attempt) seeds).result
  | result, _ => return result

/-- A number of 64 random bits. -/
def randomId : IO UInt64 := do
  let bytes ← IO.getRandomBytes 8
  return UInt64.ofNat (Bytes.toNat bytes.data.toList)

/-- The seconds since the epoch. -/
def unixTime : IO UInt64 := do
  let now ← Std.Time.Timestamp.now
  return UInt64.ofNat now.toSecondsSinceUnixEpoch.val.toNat

/-- Visit an endpoint, directly or through the proxy. -/
def visit (c : Crawler) (e : Endpoint) : Async Encounter := do
  let localId ← randomId
  let localTime ← unixTime
  let meet host := c.meet host localId localTime e
  let host ← match c.proxy with
    | none =>
      let host noDelay attempt := hostOf .empty attempt .unanswered noDelay
      let (noDelay, attempt) ← record (.v4 e) c.dialTimeout failureText
        (fun socket => return .ok (← setNoDelay socket))
        fun noDelay attempt => meet (host noDelay.join attempt)
      pure (host noDelay.join attempt)
    | some proxy =>
      let host noDelay attempt := hostOf .empty .unanswered attempt noDelay
      let (noDelay, attempt) ← record proxy c.dialTimeout (⟨.other, failureText ·⟩)
        (fun socket => do
          match ← SocksClient.negotiate socket e with
          | .ok () => return .ok (← setNoDelay socket)
          | .error failure => return .error failure)
        fun noDelay attempt => meet (host noDelay.join attempt)
      pure (host noDelay.join attempt)
  return c.encounter host localId localTime e

/-- The visits that are being made. -/
abbrev Visits := List (Endpoint × AsyncTask Encounter)

/-- The visits that are still being made, and the encounters known with those that have ended. -/
def collect (visits : Visits) (known : AddressMap Encounter) :
    BaseIO (Visits × AddressMap Encounter) := do
  let mut pending := []
  let mut known := known
  for (e, task) in visits do
    if ← IO.hasFinished task then
      known := known.insert e.text <| match task.get with
        | .ok encounter => encounter
        | .error _ => .fatal
    else pending := (e, task) :: pending
  return (pending, known)

/-- Make all moves of a crawl, as they become possible, until it is over. -/
partial def drive (c : Crawler) (interrupted : IO Bool) (started : Nat) (t : Crawl.Schedule)
    (visits : Visits) (known : AddressMap Encounter) : IO Report := do
  if let some report := t.system.report? then return report
  let world := Crawl.World.ofList known .never
  let cancel := if ← interrupted then some ⟨t.clock⟩ else none
  match Crawl.Schedule.nextAction world ⟨c.deadline, cancel⟩ t with
  | some action =>
    let next := (Crawl.Schedule.act c.settings world t action).getD t
    let begun := match action with
      | .work i .begin => next.system.workers[i]?
      | _ => none
    match begun with
    | some (.visiting p) =>
      let task ← (visit c p.endpoint).toIO
      drive c interrupted started next ((p.endpoint, task) :: visits) known
    | _ => drive c interrupted started next visits known
  | none =>
    IO.sleep 5
    let (visits, known) ← collect visits known
    drive c interrupted started { t with clock := ← since started } visits known

/-- Crawl from some peers until the crawl is over or the program is interrupted. -/
def crawl (c : Crawler) (peers : List Peer) : IO Report := do
  let signal ← (← Std.Async.Signal.Waiter.mk .sigint false).wait
  drive c (IO.hasFinished signal) (← IO.monoNanosNow) ⟨.start peers, 0, []⟩ [] .empty

/-- Run a job to the end of the program. -/
def run (job : CommandLine.Job) : IO CommandLine.Exit := do
  match ← (prepare job.crawler job.seeds).block with
  | .error e => return CommandLine.crawlFailure e
  | .ok peers =>
    if job.crawler.beyondClock ⟨← IO.monoNanosNow⟩ then return CommandLine.clockExit
    return ⟨0, CommandLine.reportText (← crawl job.crawler peers), none⟩

end LevinNet.Live
