import LevinNet.Proofs.Crawl.Outcomes
import LevinNet.Proofs.Wire.Arrival

/-
What makes a proxy usable.

   1. `instants` tells when each byte of a source arrives, and `arrivedBy` which bytes have arrived by
      a limit. Neither mentions a consumer. They are what a wait that takes whatever comes has in the
      end (`arrive_eq_arrivedBy`).
   2. So a read of exactly `n` bytes comes to the first `n` bytes that arrive, if so many arrive by its
      limit, and to no bytes otherwise. Where the source cuts them, and what is behind them, makes no
      difference (`exactly_eq_got_iff`).
   3. A proxy passes the check if and only if it takes up the greeting in time (`run_eq_ok_iff`). Whatever
      else comes of it is the proxy's failure, and aborts a crawl through it (`usable_iff`).
-/
namespace LevinNet

namespace Source

/-- The bytes that events bring to one who waits from the instant `clock` on, each with the instant at
which it arrives. Nothing is told of what is behind a failure. -/
def instants : List Event → (clock : Nat) → List (UInt8 × Nat)
  | [], _ => []
  | .bytes bs :: events, clock => bs.map (fun b => (b, clock)) ++ instants events clock
  | .silence nanos :: events, clock => instants events (clock + nanos)
  | .silenceUntil instant :: events, clock => instants events (max clock instant)
  | .failure _ :: _, _ => []

/-- The bytes that have arrived by the instant `limit`, in order. -/
def arrivedBy (limit : Nat) (events : List Event) (clock : Nat) : Bytes :=
  ((instants events clock).filter fun x => x.2 ≤ limit).map (·.1)

variable {α : Type} {ending : Ending} {limit clock n : Nat} {events : List Event}

/-! ## Instants -/

theorem instants_silence {event : Event} {instant : Nat} (h : event.endOf clock = some instant)
    (events : List Event) : instants (event :: events) clock = instants events (max clock instant) := by
  cases event with
  | silence nanos =>
    cases h
    rw [instants, Nat.max_eq_right (Nat.le_add_right clock nanos)]
  | silenceUntil instant =>
    cases h
    rw [instants]
  | bytes | failure => cases h

/-- No byte arrives before the wait begins. -/
theorem le_of_mem_instants {x : UInt8 × Nat} (h : x ∈ instants events clock) : clock ≤ x.2 := by
  induction events generalizing clock with
  | nil => cases h
  | cons event events ih =>
    cases event with
    | bytes bs =>
      rw [instants, List.mem_append, List.mem_map] at h
      rcases h with ⟨b, -, rfl⟩ | h
      · exact Nat.le_refl clock
      · exact ih h
    | silence | silenceUntil =>
      rw [instants_silence rfl] at h
      have hle := ih h
      omega
    | failure text => cases h

theorem arrivedBy_bytes (h : clock ≤ limit) (bs : Bytes) (events : List Event) :
    arrivedBy limit (.bytes bs :: events) clock = bs ++ arrivedBy limit events clock := by
  have hall : (bs.map fun b => (b, clock)).filter (fun x => x.2 ≤ limit)
      = bs.map fun b => (b, clock) := by
    apply List.filter_eq_self.2
    intro x hx
    obtain ⟨b, -, rfl⟩ := List.mem_map.1 hx
    exact decide_eq_true h
  rw [arrivedBy, instants, List.filter_append, hall, List.map_append, List.map_map]
  show bs.map id ++ _ = _
  rw [List.map_id]
  rfl

/-- Behind a silence that ends after the limit, nothing arrives by the limit. -/
theorem arrivedBy_of_lt (h : limit < clock) : arrivedBy limit events clock = [] := by
  have hnone : (instants events clock).filter (fun x => x.2 ≤ limit) = [] := by
    apply List.filter_eq_nil_iff.2
    intro x hx
    have hle := le_of_mem_instants hx
    simp only [decide_eq_true_eq]
    omega
  rw [arrivedBy, hnone, List.map_nil]

theorem arrivedBy_silence {event : Event} {instant : Nat} (h : event.endOf clock = some instant)
    (events : List Event) :
    arrivedBy limit (event :: events) clock = arrivedBy limit events (max clock instant) := by
  rw [arrivedBy, instants_silence h]
  rfl

/-- A wait that takes whatever comes ends with the bytes that arrive by its limit. -/
theorem arrive_eq_arrivedBy (α : Type) (ending : Ending) (h : clock ≤ limit) (events : List Event)
    (got : Bytes) :
    (arrive α ending limit events clock got).state = got ++ arrivedBy limit events clock := by
  induction events generalizing clock got with
  | nil => cases ending <;> exact (List.append_nil got).symm
  | cons event events ih =>
    cases event with
    | bytes bs =>
      calc (arrive α ending limit (.bytes bs :: events) clock got).state
          = (got ++ bs) ++ arrivedBy limit events clock := by rw [arrive_bytes, ih h]
        _ = got ++ arrivedBy limit (.bytes bs :: events) clock := by
          rw [arrivedBy_bytes h, List.append_assoc]
    | silence | silenceUntil =>
      rw [arrive_silence rfl, arrivedBy_silence rfl]
      split
      · next hle => exact ih (Nat.max_le.2 ⟨h, hle⟩) got
      · next hlate =>
        rw [arrivedBy_of_lt (by omega), List.append_nil]
    | failure text => exact (List.append_nil got).symm

/-! ## Reads of a fixed length -/

/-- The first `n` bytes of a string, and what is behind them. -/
def cut (n : Nat) (bs : Bytes) : Option (Bytes × Bytes) :=
  if n ≤ bs.length then some (bs.take n, bs.drop n) else none

/-- A read of `n` bytes can be stopped at any byte, and goes on from what it has. -/
theorem resumable_collect (n : Nat) :
    Resumable (fun got bs => collect got n bs) (fun s got => s = got ∧ got.length < n) (cut n) [] where
  short := by
    rintro s got ⟨-, hlt⟩
    exact if_neg (Nat.not_le.2 hlt)
  more := by
    rintro s got bs s' ⟨rfl, hlt⟩ hfeed
    simp only [collect] at hfeed
    split at hfeed
    · cases hfeed
      refine ⟨rfl, ?_⟩
      rw [List.length_append]
      omega
    · cases hfeed
  done := by
    rintro s got bs a s' rest ⟨rfl, hlt⟩ hfeed
    simp only [collect] at hfeed
    split at hfeed
    · cases hfeed
    · next hlong =>
      cases hfeed
      have hle : n ≤ (s ++ bs).length := by
        rw [List.length_append]
        omega
      refine ⟨?_, rfl⟩
      rw [cut, if_pos hle, List.take_append, List.drop_append,
        List.take_of_length_le (Nat.le_of_lt hlt), List.drop_of_length_le (Nat.le_of_lt hlt),
        List.nil_append]
  extend := by
    intro bs a rest behind hcut
    simp only [cut] at hcut
    split at hcut
    · next hle =>
      cases hcut
      have hmore : n ≤ (bs ++ behind).length := by
        rw [List.length_append]
        omega
      rw [cut, if_pos hmore, List.take_append_of_le_length hle, List.drop_append_of_le_length hle]
    · cases hcut

/-- A read of exactly `n` bytes comes to the first `n` that arrive, if so many arrive by its limit. -/
theorem exactly_eq_got_iff (hn : 0 < n) (h : clock ≤ limit) (s : Source) {bs : Bytes} :
    (s.exactly n limit clock).outcome = .got bs ↔
      bs.length = n ∧ bs <+: arrivedBy limit s.events clock := by
  have hstate := arrive_eq_arrivedBy Bytes s.ending h s.events []
  rw [List.nil_append] at hstate
  have hfresh : ([] : Bytes) = [] ∧ ([] : Bytes).length < n := ⟨rfl, hn⟩
  by_cases hle : n ≤ (arrivedBy limit s.events clock).length
  · have hcut : cut n (arrive Bytes s.ending limit s.events clock []).state
        = some ((arrivedBy limit s.events clock).take n, (arrivedBy limit s.events clock).drop n) := by
      rw [hstate]
      exact if_pos hle
    have hgot : (s.exactly n limit clock).outcome = .got ((arrivedBy limit s.events clock).take n) :=
      (pull_of_some (resumable_collect n) hfresh hcut).1
    rw [hgot, Outcome.got.injEq]
    constructor
    · rintro rfl
      exact ⟨List.length_take_of_le hle, List.take_prefix n _⟩
    · rintro ⟨rfl, hprefix⟩
      exact (List.prefix_iff_eq_take.1 hprefix).symm
  · have hcut : cut n (arrive Bytes s.ending limit s.events clock []).state = none := by
      rw [hstate]
      exact if_neg hle
    have houtcome : (s.exactly n limit clock).outcome
        = (arrive Bytes s.ending limit s.events clock []).outcome :=
      (pull_of_none (resumable_collect n) hfresh hcut).1
    constructor
    · intro hgot
      exact absurd (houtcome.symm.trans hgot) (arrive_ne_got _ _ _ _)
    · rintro ⟨rfl, hprefix⟩
      exact absurd hprefix.length_le hle

end Source

namespace ProxyCheck

/-- A proxy accepts the connection in time. -/
inductive Connects (limit : Duration) : Attempt String → Prop where
  | intro {nanos : Nat} {source : Source} (h : nanos ≤ limit.nanos) :
    Connects limit (.accepted nanos source)

/-- A proxy takes up the greeting in time: it accepts the connection, and the first two bytes that arrive
by the limit are its version and the method without authentication. -/
inductive TakesUp (limit : Duration) : Attempt String → Prop where
  | intro {nanos : Nat} {source : Source} (h : nanos ≤ limit.nanos)
    (hreply : [5, 0] <+: Source.arrivedBy limit.nanos source.events nanos) :
    TakesUp limit (.accepted nanos source)

variable {limit : Duration} {attempt : Attempt String}

theorem TakesUp.connects (h : TakesUp limit attempt) : Connects limit attempt := by
  cases h with
  | intro h hreply => exact .intro h

/-- A proxy that is not connected to in time has failed, and nothing was written to it. -/
theorem run_of_not_connects (proxy : SocketAddress) (h : ¬ Connects limit attempt) :
    (run proxy limit attempt).written = [] ∧
      ∃ text, (run proxy limit attempt).result = .error (.proxyFailed text) := by
  cases attempt with
  | fails nanos reason =>
    by_cases hle : nanos ≤ limit.nanos
    · simp only [run, Attempt.within, if_pos hle]
      exact ⟨trivial, _, rfl⟩
    · simp only [run, Attempt.within, if_neg hle]
      exact ⟨trivial, _, rfl⟩
  | accepted nanos source =>
    have hlate : ¬ nanos ≤ limit.nanos := fun hle => h (.intro hle)
    simp only [run, Attempt.within, if_neg hlate]
    exact ⟨trivial, _, rfl⟩
  | unanswered => exact ⟨rfl, _, rfl⟩

/-- A proxy that is connected to is greeted; it passes if it takes the greeting up, and has failed
otherwise. -/
theorem run_of_connects (proxy : SocketAddress) (h : Connects limit attempt) :
    (run proxy limit attempt).written = greeting ∧
      ((run proxy limit attempt).result = .ok () ∧ TakesUp limit attempt ∨
        ¬ TakesUp limit attempt ∧
          ∃ text, (run proxy limit attempt).result = .error (.proxyFailed text)) := by
  cases h with
  | @intro nanos source hle =>
    have hreply : TakesUp limit (.accepted nanos source) ↔
        (source.exactly 2 limit.nanos nanos).outcome = .got accepted := by
      rw [Source.exactly_eq_got_iff Nat.two_pos hle]
      constructor
      · rintro ⟨-, hprefix⟩
        exact ⟨rfl, hprefix⟩
      · rintro ⟨-, hprefix⟩
        exact .intro hle hprefix
    rw [hreply]
    simp only [run, Attempt.within, if_pos hle]
    refine ⟨trivial, ?_⟩
    cases (source.exactly 2 limit.nanos nanos).outcome with
    | got reply =>
      by_cases haccepted : reply = accepted
      · subst haccepted
        exact .inl ⟨rfl, rfl⟩
      · refine .inr ⟨fun heq => haccepted (Source.Outcome.got.inj heq), ?_⟩
        simp only [if_neg haccepted]
        exact ⟨_, rfl⟩
    | closed | failed | late => exact .inr ⟨nofun, _, rfl⟩

/-- A proxy passes the check if and only if it takes up the greeting in time. -/
theorem run_eq_ok_iff (proxy : SocketAddress) :
    (run proxy limit attempt).result = .ok () ↔ TakesUp limit attempt := by
  by_cases h : Connects limit attempt
  · rcases (run_of_connects proxy h).2 with ⟨hok, htakes⟩ | ⟨hnot, text, herror⟩
    · exact ⟨fun _ => htakes, fun _ => hok⟩
    · rw [herror]
      exact ⟨nofun, fun htakes => absurd htakes hnot⟩
  · obtain ⟨-, text, herror⟩ := run_of_not_connects proxy h
    rw [herror]
    exact ⟨nofun, fun htakes => absurd htakes.connects h⟩

/-- Whatever else comes of a check is the proxy's failure. -/
theorem exists_proxyFailed (proxy : SocketAddress) (h : ¬ TakesUp limit attempt) :
    ∃ text, (run proxy limit attempt).result = .error (.proxyFailed text) := by
  by_cases hconnects : Connects limit attempt
  · rcases (run_of_connects proxy hconnects).2 with ⟨-, htakes⟩ | ⟨-, hfailed⟩
    · exact absurd htakes h
    · exact hfailed
  · exact (run_of_not_connects proxy hconnects).2

/-- **Usable proxies.** Whatever comes of the attempt to reach a proxy, whatever bytes it sends, however
they are cut and delayed, and for every limit:

1. the greeting is written, and nothing else, if the proxy is connected to in time, and nothing at all if
   it is not;
2. the proxy passes if and only if it is connected to and the first two bytes that arrive by the limit
   are `05 00`, whatever follows them;
3. otherwise the check fails with `proxyFailed`, whatever went wrong, and every crawl through this proxy
   whose seeds are resolved is aborted with this very error. -/
theorem usable_iff (proxy : SocketAddress) (limit : Duration) (attempt : Attempt String) :
    let d := run proxy limit attempt
    (Connects limit attempt → d.written = [5, 1, 0]) ∧
    (¬ Connects limit attempt → d.written = []) ∧
    (d.result = .ok () ↔ TakesUp limit attempt) ∧
    (¬ TakesUp limit attempt → ∃ text, d.result = .error (.proxyFailed text) ∧
      ∀ (c : Crawler) (host : Host) (w : Crawl.World) (cancel : Option Duration) (horizon : Duration)
        (seeds : List String), c.proxy = some proxy → c.dialTimeout = limit →
        host.reach proxy = attempt → seeds ≠ [] → (∃ peers, c.Resolved host seeds peers) →
        (c.crawlUntil host w cancel horizon seeds).result = .error (.proxy (.proxyFailed text))) := by
  intro d
  refine ⟨fun h => (run_of_connects proxy h).1, fun h => (run_of_not_connects proxy h).1,
    run_eq_ok_iff proxy, ?_⟩
  intro h
  obtain ⟨text, htext⟩ := exists_proxyFailed proxy h
  refine ⟨text, htext, ?_⟩
  intro c host w cancel horizon seeds hproxy hlimit hreach hseeds hpeers
  have hcheck : c.checkProxy host = .error (.proxyFailed text) := by
    simp only [Crawler.checkProxy, hproxy, hlimit, hreach]
    exact htext
  rw [Crawler.result_crawlUntil_eq_error_iff, Crawler.prepared_proxy_iff]
  exact ⟨hseeds, hpeers, hcheck⟩

/-- A host whose proxies send one byte of the reply and then nothing more. -/
def halfReplying : Host :=
  { Host.offline with reach := fun _ => .accepted 5 ⟨[.silence 7, .bytes [5]], .silent⟩ }

/-- A reply that is cut in two, and has more behind it, is taken up; half a reply is the proxy's failure,
after the greeting was written, and aborts a crawl. -/
theorem usable_iff_halfReplying :
    let proxy : SocketAddress := .v4 ⟨⟨9, 9, 9, 9⟩, 9050⟩
    let w := Crawler.proxied.world halfReplying 7 9 []
    (run proxy ⟨30⟩ (.accepted 5 ⟨[.bytes [5], .silence 25, .bytes [], .bytes [0, 1]], .closed⟩)).result
      = .ok () ∧
    (run proxy Crawler.proxied.dialTimeout (halfReplying.reach proxy)).written = [5, 1, 0] ∧
    ∃ text, (run proxy Crawler.proxied.dialTimeout (halfReplying.reach proxy)).result
        = .error (.proxyFailed text) ∧
      (Crawler.proxied.crawlUntil halfReplying w none ⟨10⟩ ["1.1.1.1:80"]).result
        = .error (.proxy (.proxyFailed text)) := by
  intro proxy w
  have hcut : TakesUp ⟨30⟩
      (.accepted 5 ⟨[.bytes [5], .silence 25, .bytes [], .bytes [0, 1]], .closed⟩) :=
    .intro (by decide) (by decide)
  have hconnects : Connects Crawler.proxied.dialTimeout (halfReplying.reach proxy) :=
    .intro (by decide)
  have hhalf : ¬ TakesUp Crawler.proxied.dialTimeout (halfReplying.reach proxy) := by
    rintro ⟨-, hreply⟩
    revert hreply
    decide
  have hseed : Seed.resolve halfReplying .mainnet "1.1.1.1:80" = .ok (.ofEndpoint ⟨⟨1, 1, 1, 1⟩, 80⟩) := by
    decide +kernel
  obtain ⟨hwritten, -, -, hfailed⟩ :=
    usable_iff proxy Crawler.proxied.dialTimeout (halfReplying.reach proxy)
  obtain ⟨text, htext, haborted⟩ := hfailed hhalf
  refine ⟨(usable_iff proxy ⟨30⟩ _).2.2.1.2 hcut, hwritten hconnects, text, htext, ?_⟩
  exact haborted Crawler.proxied halfReplying w none ⟨10⟩ ["1.1.1.1:80"] rfl rfl rfl
    (List.cons_ne_nil _ _) ⟨_, .cons hseed .nil⟩

end ProxyCheck

end LevinNet
