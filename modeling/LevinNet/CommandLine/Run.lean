import LevinNet.CommandLine.Options
import LevinNet.Crawl.Crawler
import LevinNet.Text.Quoted

/-
The command line: a crawl from the given seeds, with one line for each visit and one line of totals.
-/
namespace LevinNet.CommandLine

/-- How the program ends. -/
structure Exit where
  status : Nat
  output : String
  /-- The line of an error. -/
  error : Option String := none
  deriving DecidableEq, Repr

/-- A crawl set up from options. -/
structure Job where
  crawler : Crawler
  seeds : List String

/-- The end of a program whose arguments cannot be used. -/
def usageExit : Exit := ⟨2, "", none⟩

/-- The end of a program that fails with a quoted reason. -/
def failure (reason : String) : Exit := ⟨1, "", some s!"Error: {reason}"⟩

/-- The crawl that options set up; a proxy that is no address is an error. -/
def Job.ofOptions (o : Options) : Except Exit Job :=
  let base := { Crawler.new (o.network.getD .mainnet) with
    peerTimeout := .ofSeconds (o.peerTimeout.getD 20)
    deadline := o.deadline.map .ofSeconds }
  let base := base.withWorkers (o.tasks.getD 250)
  match o.proxy with
  | none => .ok ⟨base, o.seeds⟩
  | some proxy =>
    match base.withProxy proxy with
    | .ok c => .ok ⟨c, o.seeds⟩
    | .error _ => .error (failure s!"InvalidProxy({Quoted.text proxy})")

/-- The crawl that arguments set up, or the end of the program. -/
def job (args : List String) : Except Exit Job :=
  match Options.parse args with
  | .error .usage => .error usageExit
  | .error .information => .error ⟨0, "", none⟩
  | .ok o => Job.ofOptions o

/-- The end of a program whose crawl did not start. -/
def crawlFailure (e : CrawlError) : Exit :=
  failure (Quoted.text s!"Crawler error: {e.message}")

/-- The end of a program that stops at a deadline beyond the end of the clock. -/
def clockExit : Exit := ⟨101, "", none⟩

/-- Visits in the order of their endpoints. -/
def inOrder (visits : List Visit) : List Visit :=
  visits.mergeSort fun v w =>
    v.peer.ip.toNat < w.peer.ip.toNat ||
      (v.peer.ip.toNat == w.peer.ip.toNat && v.peer.port.toNat ≤ w.peer.port.toNat)

/-- The text of a report. -/
def reportText (r : Report) : String :=
  let lines := (inOrder r.visits.values).map fun v => v.text ++ "\n"
  let total := s!"{r.size} peers visited, {r.reachable.length} reachable, "
  String.join lines ++ total ++ s!"{r.unreachable.length} unreachable\n"

/-- Run a crawl over the world that a host sees; no end if the crawl is not over by the instant
`horizon`. -/
def Job.run (j : Job) (host : Host) (w : Crawl.World) (horizon : Duration) : Option Exit :=
  match (j.crawler.crawlUntil host w none horizon j.seeds).result with
  | .error e => some (crawlFailure e)
  | .ok .overflow => some clockExit
  | .ok (.crawled s) => s.report?.map fun r => ⟨0, reportText r, none⟩

end LevinNet.CommandLine
