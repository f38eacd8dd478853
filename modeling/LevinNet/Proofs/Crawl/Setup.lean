import LevinNet.Crawl.Crawler
import Mathlib.Data.List.Forall2

/-
What has to hold before a crawl touches any peer.

   1. A seed stands for a peer if it has an IPv4 address, in its text or by its name
      (`resolve_eq_error_iff`). The seeds are resolved if each of them is, and if not the first that stands
      for none fails (`resolveSeeds_eq_ok_iff`, `resolveSeeds_eq_error_iff`).
   2. A crawl is prepared in three steps that can fail: there are seeds, they are resolved, and the proxy
      is checked (`result_prepare`). So each error stands for the first thing that is wrong
      (`result_prepare_eq_iff`).
   3. Nothing but the proxy is dialled (`dials_prepare`), and nothing depends on how any peer behaves
      (`prepare_congr`).
-/
namespace LevinNet

namespace Seed

variable {host : Host} {network : Network} {seed : String}

/-- The text under which a seed is looked up: itself, or with the network's port behind it. -/
def lookupText (network : Network) (seed : String) : String :=
  if seed.toList.contains ':' then seed else s!"{seed}:{network.defaultPort.toNat}"

/-- A seed has an IPv4 address: its text is one, with a port or without, or its name has one among its
addresses. -/
def HasV4 (host : Host) (network : Network) (seed : String) : Prop :=
  (Endpoint.parse? seed).isSome ∨ (Ipv4.parse? seed).isSome ∨
    ∃ addresses e, host.resolve (lookupText network seed) = .ok addresses ∧ .v4 e ∈ addresses

theorem firstV4_eq_none_iff {addresses : List SocketAddress} :
    firstV4 addresses = none ↔ ∀ e, .v4 e ∉ addresses := by
  induction addresses with
  | nil => simp [firstV4]
  | cons address addresses ih =>
    cases address with
    | v4 e =>
      simp only [firstV4, reduceCtorEq, false_iff, not_forall, not_not]
      exact ⟨e, List.mem_cons_self⟩
    | v6 ip scope port => simp [firstV4, ih]

/-- A seed that is no address itself is looked up. -/
theorem resolve_of_name (he : Endpoint.parse? seed = none) (hip : Ipv4.parse? seed = none) :
    resolve host network seed = (host.resolve (lookupText network seed)).bind fun addresses =>
      match firstV4 addresses with
      | some e => .ok (.ofEndpoint e)
      | none => .error "no IPv4 address" := by
  simp only [resolve, he, hip, lookupText]
  split
  · next reason h =>
    rw [h]
    rfl
  · next addresses h =>
    rw [h]
    rfl

/-- A seed stands for no peer if and only if it has no IPv4 address. -/
theorem resolve_eq_error_iff :
    (∃ reason, resolve host network seed = .error reason) ↔ ¬ HasV4 host network seed := by
  rw [HasV4]
  cases he : Endpoint.parse? seed with
  | some e => simp [resolve, he]
  | none =>
    cases hip : Ipv4.parse? seed with
    | some ip => simp [resolve, he, hip]
    | none =>
      rw [resolve_of_name he hip]
      cases host.resolve (lookupText network seed) with
      | error reason => simp [Except.bind]
      | ok addresses =>
        have hfirst : firstV4 addresses = none ↔ ∀ e, .v4 e ∉ addresses := firstV4_eq_none_iff
        cases h : firstV4 addresses with
        | none => simpa [Except.bind, h] using hfirst.1 h
        | some e => simpa [Except.bind, h] using hfirst

end Seed

namespace Crawler

variable {c : Crawler} {host : Host} {seeds : List String} {peers : List Peer} {seed reason : String}

/-! ## Seeds -/

/-- Each of the seeds stands for its peer. -/
abbrev Resolved (c : Crawler) (host : Host) : List String → List Peer → Prop :=
  List.Forall₂ fun seed p => Seed.resolve host c.network seed = .ok p

/-- The first of the seeds that stands for no peer, and why it does not. -/
inductive Unresolved (c : Crawler) (host : Host) : List String → String → String → Prop where
  | here {seed reason : String} {seeds : List String}
    (h : Seed.resolve host c.network seed = .error reason) :
    Unresolved c host (seed :: seeds) seed reason
  | later {first : String} {p : Peer} {seeds : List String} {seed reason : String}
    (hfirst : Seed.resolve host c.network first = .ok p) (h : Unresolved c host seeds seed reason) :
    Unresolved c host (first :: seeds) seed reason

theorem resolveSeeds_eq_ok_iff :
    c.resolveSeeds host seeds = .ok peers ↔ c.Resolved host seeds peers := by
  induction seeds generalizing peers with
  | nil =>
    rw [resolveSeeds, Resolved, List.forall₂_nil_left_iff, Except.ok.injEq]
    exact eq_comm
  | cons first seeds ih =>
    rw [resolveSeeds, Resolved, List.forall₂_cons_left_iff]
    change _ ↔ ∃ p others, _ ∧ c.Resolved host seeds others ∧ _
    simp only [← ih]
    cases Seed.resolve host c.network first with
    | error reason => simp
    | ok p => cases c.resolveSeeds host seeds <;> simp [Except.map, eq_comm]

theorem resolveSeeds_eq_error_iff {e : CrawlError} : c.resolveSeeds host seeds = .error e ↔
    ∃ seed reason, c.Unresolved host seeds seed reason ∧ e = .seedResolution seed reason := by
  induction seeds with
  | nil =>
    constructor
    · intro h
      cases h
    · rintro ⟨seed, reason, ⟨⟩, -⟩
  | cons first seeds ih =>
    rw [resolveSeeds]
    cases hfirst : Seed.resolve host c.network first with
    | error reason =>
      constructor
      · intro h
        cases h
        exact ⟨first, reason, .here hfirst, rfl⟩
      · rintro ⟨seed, reason', hunresolved, rfl⟩
        cases hunresolved with
        | here h =>
          rw [hfirst] at h
          cases h
          rfl
        | later h =>
          rw [hfirst] at h
          cases h
    | ok p =>
      have hrest : (c.resolveSeeds host seeds).map (p :: ·) = .error e ↔
          c.resolveSeeds host seeds = .error e := by
        cases c.resolveSeeds host seeds <;> simp [Except.map]
      rw [hrest, ih]
      constructor
      · rintro ⟨seed, reason, hunresolved, rfl⟩
        exact ⟨seed, reason, .later hfirst hunresolved, rfl⟩
      · rintro ⟨seed, reason, hunresolved, rfl⟩
        cases hunresolved with
        | here h =>
          rw [hfirst] at h
          cases h
        | later _ h => exact ⟨seed, reason, h, rfl⟩

/-! ## Three steps -/

/-- The check of the proxy, if one is configured. -/
def checkProxy (c : Crawler) (host : Host) : Except SessionError Unit :=
  match c.proxy with
  | none => .ok ()
  | some proxy => (ProxyCheck.run proxy c.dialTimeout (host.reach proxy)).result

/-- The seeds are resolved first, and then the proxy is checked. -/
theorem result_prepare (hseeds : seeds ≠ []) :
    (c.prepare host seeds).result = (c.resolveSeeds host seeds).bind fun peers =>
      ((c.checkProxy host).mapError .proxy).map fun _ => peers := by
  rw [prepare, if_neg (by simpa using hseeds), checkProxy]
  cases c.resolveSeeds host seeds with
  | error e => rfl
  | ok peers => cases c.proxy <;> rfl

/-- How a crawl from some seeds is prepared: the first thing that is wrong, or the peers of the seeds if
nothing is. -/
inductive Prepared (c : Crawler) (host : Host) (seeds : List String) :
    Except CrawlError (List Peer) → Prop where
  | noSeeds (hseeds : seeds = []) : Prepared c host seeds (.error .noSeeds)
  | unresolved {seed reason : String} (h : c.Unresolved host seeds seed reason) :
    Prepared c host seeds (.error (.seedResolution seed reason))
  | unusable {peers : List Peer} {e : SessionError} (hseeds : seeds ≠ [])
    (hpeers : c.Resolved host seeds peers) (h : c.checkProxy host = .error e) :
    Prepared c host seeds (.error (.proxy e))
  | ready {peers : List Peer} (hseeds : seeds ≠ []) (hpeers : c.Resolved host seeds peers)
    (h : c.checkProxy host = .ok ()) : Prepared c host seeds (.ok peers)

theorem prepared (c : Crawler) (host : Host) (seeds : List String) :
    c.Prepared host seeds (c.prepare host seeds).result := by
  by_cases hseeds : seeds = []
  · subst hseeds
    exact .noSeeds rfl
  · rw [result_prepare hseeds]
    cases hresolved : c.resolveSeeds host seeds with
    | error e =>
      obtain ⟨seed, reason, hunresolved, rfl⟩ := resolveSeeds_eq_error_iff.1 hresolved
      exact .unresolved hunresolved
    | ok peers =>
      have hpeers := resolveSeeds_eq_ok_iff.1 hresolved
      cases hproxy : c.checkProxy host with
      | error e => exact .unusable hseeds hpeers hproxy
      | ok _ => exact .ready hseeds hpeers hproxy

/-- How a crawl is prepared is settled by what is wrong. -/
theorem result_prepare_eq_iff {result : Except CrawlError (List Peer)} :
    (c.prepare host seeds).result = result ↔ c.Prepared host seeds result := by
  constructor
  · rintro rfl
    exact prepared c host seeds
  · intro h
    cases h with
    | noSeeds hseeds =>
      rw [hseeds]
      rfl
    | unresolved h =>
      have hseeds : seeds ≠ [] := by
        rintro rfl
        cases h
      rw [result_prepare hseeds, resolveSeeds_eq_error_iff.2 ⟨_, _, h, rfl⟩]
      rfl
    | unusable hseeds hpeers h | ready hseeds hpeers h =>
      rw [result_prepare hseeds, resolveSeeds_eq_ok_iff.2 hpeers, h]
      rfl

theorem prepared_noSeeds_iff : c.Prepared host seeds (.error .noSeeds) ↔ seeds = [] :=
  ⟨fun | .noSeeds h => h, .noSeeds⟩

theorem prepared_seedResolution_iff : c.Prepared host seeds (.error (.seedResolution seed reason)) ↔
    c.Unresolved host seeds seed reason :=
  ⟨fun | .unresolved h => h, .unresolved⟩

theorem prepared_proxy_iff {e : SessionError} : c.Prepared host seeds (.error (.proxy e)) ↔
    seeds ≠ [] ∧ (∃ peers, c.Resolved host seeds peers) ∧ c.checkProxy host = .error e :=
  ⟨fun | .unusable hseeds hpeers h => ⟨hseeds, ⟨_, hpeers⟩, h⟩,
    fun ⟨hseeds, ⟨_, hpeers⟩, h⟩ => .unusable hseeds hpeers h⟩

theorem prepared_ok_iff : c.Prepared host seeds (.ok peers) ↔
    seeds ≠ [] ∧ c.Resolved host seeds peers ∧ c.checkProxy host = .ok () :=
  ⟨fun | .ready hseeds hpeers h => ⟨hseeds, hpeers, h⟩,
    fun ⟨hseeds, hpeers, h⟩ => .ready hseeds hpeers h⟩

/-! ## Before any peer -/

/-- Nothing but the configured proxy is dialled while a crawl is prepared, and that only once all seeds
are resolved. -/
theorem dials_prepare {d : Dial} (h : d ∈ (c.prepare host seeds).dials) :
    (∃ proxy, c.proxy = some proxy ∧ d = .proxy proxy) ∧ ∃ peers, c.Resolved host seeds peers := by
  unfold prepare at h
  split at h
  · cases h
  · split at h
    · cases h
    · next peers hpeers =>
      split at h
      · cases h
      · next proxy hproxy =>
        exact ⟨⟨proxy, hproxy, List.mem_singleton.1 h⟩, peers, resolveSeeds_eq_ok_iff.1 hpeers⟩

/-- Two hosts that differ at most in how peers behave: a name has the same addresses in both, and the
proxy, if one is configured, is the same. -/
structure SameSetup (c : Crawler) (host host' : Host) : Prop where
  lookup : host'.lookup = host.lookup
  proxy : ∀ proxy, c.proxy = some proxy → host'.reach proxy = host.reach proxy

/-- How peers behave makes no difference to how a crawl is prepared. -/
theorem prepare_congr {host' : Host} (h : c.SameSetup host host') (seeds : List String) :
    c.prepare host' seeds = c.prepare host seeds := by
  have hresolve (seed : String) :
      Seed.resolve host' c.network seed = Seed.resolve host c.network seed := by
    simp only [Seed.resolve, Host.resolve, h.lookup]
  have hresolveSeeds : c.resolveSeeds host' seeds = c.resolveSeeds host seeds := by
    induction seeds with
    | nil => rfl
    | cons seed seeds ih => rw [resolveSeeds, resolveSeeds, hresolve, ih]
  rw [prepare, prepare, hresolveSeeds]
  cases hproxy : c.proxy with
  | none => rfl
  | some proxy => simp only [h.proxy proxy hproxy]

end Crawler

end LevinNet
