import LevinNet.Proofs.Crawl.Ledger
import LevinNet.Proofs.Crawl.Provenance
import LevinNet.Proofs.Crawl.Scheduled
import LevinNet.Proofs.Net.EndpointText

/-
A crawl that ends because it is quiescent has visited all there is, and nothing twice.

   1. `OnItsWay` says that a peer is known, or in the channel of what was found, or pending with the
      supervisor; no move takes a peer off this way (`onItsWay_moved`).
   2. `Lossless` says that what a finished visit advertised is on its way, and known once the visit is
      recorded by the supervisor in its loop: it takes in all that was found before it records. It
      holds in every run (`lossless_of_reachable`).
   3. So a quiescent crawl has recorded exactly the peers that can be discovered, one attempt each, with
      what each replied (`quiescent_report`).
-/
namespace LevinNet.Crawl

namespace System

variable {c : Settings} {world : Endpoint → Encounter} {seeds : List Peer} {s s' : System}

/-! ## On the way to the queue -/

/-- A peer is known, or will be once the supervisor has taken in what was found. -/
def OnItsWay (s : System) (q : Peer) : Prop :=
  s.Knows q.address ∨ (∃ peers ∈ s.found, q ∈ peers) ∨ q ∈ s.supervisor.pending

/-- A peer that is queued is known. -/
theorem knows_enqueue {p : Peer} (hloop : s'.supervisor.ending? = none)
    (hfrontier : s'.frontier = (s.frontier.enqueue p).2) : s'.Knows p.address := by
  rw [knows_iff, recorded_of_loop hloop]
  cases hknows : s.frontier.knows p.address with
  | true =>
    rw [hfrontier, Frontier.enqueue_of_knows hknows]
    simp only [Frontier.knows, Bool.or_eq_true] at hknows
    rcases hknows with (hvisited | hflight) | hwaiting
    · exact .inr (.inr hvisited)
    · exact .inr (.inl hflight)
    · exact .inl hwaiting
  | false =>
    rw [hfrontier, Frontier.enqueue_of_new hknows]
    simp

theorem onItsWay_moved (hs : s.Tidy) (h : Moved c world s s') {q : Peer} (hq : s.OnItsWay q) :
    s'.OnItsWay q := by
  rcases hq with hknown | ⟨peers, hpeers, hq⟩ | hpending
  · exact .inl (knows_of_moved hs h hknown)
  · cases h with
    | takeFound h hfound =>
      rw [hfound] at hpeers
      rcases List.mem_cons.1 hpeers with rfl | hpeers
      · exact .inr (.inr hq)
      · exact .inr (.inl ⟨peers, hpeers, hq⟩)
    | sendFound hw => exact .inr (.inl ⟨peers, List.mem_append_left _ hpeers, hq⟩)
    | _ => exact .inr (.inl ⟨peers, hpeers, hq⟩)
  · cases h with
    | seed h =>
      rw [h] at hpending
      rcases List.mem_cons.1 hpending with rfl | hpending
      · exact .inl (knows_enqueue rfl rfl)
      · exact .inr (.inr hpending)
    | queue h =>
      rw [h] at hpending
      rcases List.mem_cons.1 hpending with rfl | hpending
      · exact .inl (knows_enqueue rfl rfl)
      · exact .inr (.inr hpending)
    | @takeFound peers found visit h hfound =>
      rw [h] at hpending
      cases visit <;> cases hpending
    | spawn h | takeVisit h | queued h | settle h | record h | goOn h | quiesce h | interrupt h
    | signal h | join h | report h =>
      rw [h] at hpending
      cases hpending
    | drain | pace | take | begin | finish | die | sendFound | sendVisit | quit =>
      exact .inr (.inr hpending)

/-! ## What finished visits advertised -/

/-- All that the peer of a visit advertises is on its way. -/
def Covers (world : Endpoint → Encounter) (s : System) (v : Visit) : Prop :=
  ∀ reply nanos, world v.peer.endpoint = .ends reply nanos → ∀ q ∈ reply.advertised, s.OnItsWay q

/-- All that the peer of a visit advertises is known. -/
def KnowsAll (world : Endpoint → Encounter) (s : System) (v : Visit) : Prop :=
  ∀ reply nanos, world v.peer.endpoint = .ends reply nanos → ∀ q ∈ reply.advertised,
    s.Knows q.address

theorem covers_moved (hs : s.Tidy) (h : Moved c world s s') {v : Visit} (hv : s.Covers world v) :
    s'.Covers world v :=
  fun reply nanos hworld q hq => onItsWay_moved hs h (hv reply nanos hworld q hq)

theorem knowsAll_moved (hs : s.Tidy) (h : Moved c world s s') {v : Visit}
    (hv : s.KnowsAll world v) : s'.KnowsAll world v :=
  fun reply nanos hworld q hq => knows_of_moved hs h (hv reply nanos hworld q hq)

/-- The supervisor is in its loop, or left it for quiescence. -/
def NotInterrupted (s : System) : Prop :=
  ∀ why, s.supervisor.ending? = some why → why = .quiescent

/-- No seed and no advertised peer is lost. -/
structure Lossless (world : Endpoint → Encounter) (seeds : List Peer) (s : System) : Prop where
  seeds : ∀ p ∈ seeds, s.Knows p.address ∨ ∃ rest, s.supervisor = .seeding rest ∧ p ∈ rest
  reporting : ∀ v, .reporting v ∈ s.workers → s.Covers world v
  visits : ∀ v ∈ s.visits, s.Covers world v
  hand : ∀ v ∈ s.supervisor.hand, s.Covers world v
  recording : ∀ v, s.supervisor = .recording v → s.KnowsAll world v
  recorded : s.NotInterrupted → ∀ a v, s.recorded.get? a = some v → s.KnowsAll world v

theorem lossless_start (world : Endpoint → Encounter) (seeds : List Peer) :
    (System.start seeds).Lossless world seeds where
  seeds := fun p hp => .inr ⟨seeds, rfl, hp⟩
  reporting := fun _ h => absurd h List.not_mem_nil
  visits := fun _ h => absurd h List.not_mem_nil
  hand := fun _ h => absurd h List.not_mem_nil
  recording := fun _ h => by cases h
  recorded := fun _ _ _ h => by cases h

/-- Each seed is known, or the supervisor still has it to queue. -/
theorem seeds_of_moved (hs : s.Tidy) (h : Moved c world s s') {p : Peer}
    (hp : s.Knows p.address ∨ ∃ rest, s.supervisor = .seeding rest ∧ p ∈ rest) :
    s'.Knows p.address ∨ ∃ rest, s'.supervisor = .seeding rest ∧ p ∈ rest := by
  rcases hp with hknown | ⟨rest, hrest, hmem⟩
  · exact .inl (knows_of_moved hs h hknown)
  · cases h with
    | seed h =>
      rw [h] at hrest
      cases hrest
      rcases List.mem_cons.1 hmem with rfl | hmem
      · exact .inl (knows_enqueue rfl rfl)
      · exact .inr ⟨_, rfl, hmem⟩
    | spawn h =>
      -- the crawl goes on from the seeds only when none is left
      rw [h] at hrest
      cases hrest
      cases hmem
    | @takeFound peers found visit h hfound =>
      rw [h] at hrest
      cases visit <;> cases hrest
    | takeVisit h | queue h | queued h | settle h | record h | goOn h | quiesce h | interrupt h
    | signal h | join h | report h =>
      rw [h] at hrest
      cases hrest
    | drain | pace | take | begin | finish | die | sendFound | sendVisit | quit =>
      exact .inr ⟨rest, hrest, hmem⟩

/-- A worker reports a visit only after all that its peer advertises is on its way. -/
theorem covers_of_reporting (htidy : s.Tidy) (htraced : s.Traced world seeds)
    (hs : ∀ v, .reporting v ∈ s.workers → s.Covers world v) (h : Moved c world s s') {v : Visit}
    (hv : .reporting v ∈ s'.workers) : s'.Covers world v := by
  cases worker_of_moved h hv with
  | kept hv => exact covers_moved htidy h (hs v hv)
  | free hfree => simp at hfree
  | took hp hw | began hp hw | died hp hw => cases hw
  | @finished p reply nanos v' found hp hworld ho hw =>
    -- a visit that found nothing is reported at once
    have hmade : MadeOf world (Heard world seeds) v' found :=
      ⟨p, reply, nanos, htraced.workers _ hp, hworld, ho⟩
    cases found with
    | cons q found => cases hw
    | nil =>
      cases hw
      intro reply' nanos' hworld' q hq
      exact absurd ((hmade.mem_iff hworld').2 hq) List.not_mem_nil
  | @sent v' found hv' hfound hw =>
    -- what was found is sent before the visit is
    cases hw
    have hmade : MadeOf world (Heard world seeds) v found := htraced.workers _ hv'
    intro reply' nanos' hworld' q hq
    exact .inr (.inl ⟨found, hfound, (hmade.mem_iff hworld').2 hq⟩)

/-- The supervisor comes to record a visit only once all that its peer advertises is known: it leaves
a visit in its hand until nothing that was found is left to queue. -/
theorem knowsAll_of_recording (htidy : s.Tidy) (hs : s.Lossless world seeds)
    (h : Moved c world s s') {v : Visit} (hv : s'.supervisor = .recording v) :
    s'.KnowsAll world v := by
  have hmove := h
  cases h with
  | settle h hfound =>
    cases hv
    intro reply nanos hworld q hq
    have hway := hs.hand v (by rw [h]; exact List.mem_cons_self) reply nanos hworld q hq
    rcases hway with hknown | ⟨peers, hpeers, -⟩ | hpending
    · exact knows_of_moved htidy hmove hknown
    · rw [hfound] at hpeers
      cases hpeers
    · rw [h] at hpending
      cases hpending
  | @queued visit h => cases visit <;> cases hv
  | seed | spawn | takeFound | takeVisit | queue | record | goOn | quiesce | interrupt | signal
  | join | report => cases hv
  | drain h => rw [h] at hv; cases hv
  | pace | take | begin | finish | die | sendFound | sendVisit | quit =>
    exact knowsAll_moved htidy hmove (hs.recording v hv)

/-- While the loop is not interrupted, all that the peer of a recorded visit advertises is known. -/
theorem knowsAll_of_recorded (htidy : s.Tidy)
    (hquiet : s.supervisor.ending? = some .quiescent → s.visits = [])
    (hs : s.Lossless world seeds) (h : Moved c world s s') (hgoing : s'.NotInterrupted)
    {a : String} {v : Visit} (hv : s'.recorded.get? a = some v) : s'.KnowsAll world v := by
  have hbefore : s.NotInterrupted := fun why hwhy => hgoing why (ending_keeps h hwhy)
  rcases recorded_of_moved h hv with hv | ⟨-, hrecording | ⟨hv, why, hdraining⟩⟩
  · exact knowsAll_moved htidy h (hs.recorded hbefore a v hv)
  · exact knowsAll_moved htidy h (hs.recording v hrecording)
  · -- a visit that is recorded on the way out comes from the channel, which was empty
    have hwhy : s.supervisor.ending? = some why := by rw [hdraining]; rfl
    rw [hquiet (by rw [hwhy, hbefore why hwhy])] at hv
    cases hv

theorem lossless_moved (htidy : s.Tidy) (htraced : s.Traced world seeds)
    (hquiet : s.supervisor.ending? = some .quiescent → s.visits = [])
    (hs : s.Lossless world seeds) (h : Moved c world s s') : s'.Lossless world seeds where
  seeds p hp := seeds_of_moved htidy h (hs.seeds p hp)
  reporting v hv := covers_of_reporting htidy htraced hs.reporting h hv
  visits v hv := by
    rcases visits_of_moved h hv with hv | hv
    · exact covers_moved htidy h (hs.visits v hv)
    · exact covers_moved htidy h (hs.reporting v hv)
  hand v hv := by
    rcases hand_of_moved h hv with hv | hv
    · exact covers_moved htidy h (hs.hand v hv)
    · exact covers_moved htidy h (hs.visits v hv)
  recording v hv := knowsAll_of_recording htidy hs h hv
  recorded hgoing a v hv := knowsAll_of_recorded htidy hquiet hs h hgoing hv

/-- Nothing is lost in any run. -/
theorem lossless_of_reachable (h : Reachable c world seeds s) : s.Lossless world seeds := by
  induction h with
  | start => exact lossless_start world seeds
  | @step s s' a hs hstep ih =>
    refine lossless_moved (tidy_of_reachable hs) (traced_of_reachable hs) ?_ ih
      (moved_of_step hstep)
    intro hended
    rw [List.eq_nil_iff_forall_not_mem]
    intro v hv
    have hpos := inFlight_of_mem_visits (balanced_of_reachable hs v.address) hv
    have hzero := (quiet_of_reachable hs hended v.address).2
    omega

end System

/-! ## What a quiescent crawl reports -/

/-- The least set of endpoints with those of the seeds and all that a member's directory advertises. -/
inductive Discoverable (world : Endpoint → Encounter) (seeds : List Peer) : Endpoint → Prop where
  | seed {p : Peer} (h : p ∈ seeds) : Discoverable world seeds p.endpoint
  | advertised {e : Endpoint} {d : Directory} {nanos : Nat} {q : Peer}
    (he : Discoverable world seeds e) (hworld : world e = .ends (.directory d) nanos)
    (hq : q ∈ d.peers.values) : Discoverable world seeds q.endpoint

variable {c : Settings} {world : Endpoint → Encounter} {seeds : List Peer} {s : System}

theorem discoverable_of_heard {p : Peer} (h : Heard world seeds p) :
    Discoverable world seeds p.endpoint := by
  induction h with
  | seed h => exact .seed h
  | @advertised p q reply nanos hp hworld hq ih =>
    cases reply with
    | directory d => exact .advertised ih hworld hq
    | unreached e => cases hq
    | failed e => cases hq

namespace System

/-- What a recorded visit says is what the endpoint's behaviour gives. -/
theorem reply_of_recorded (h : Reachable c world seeds s) {a : String} {v : Visit}
    (hv : s.recorded.get? a = some v) :
    Discoverable world seeds v.peer.endpoint ∧ v.peer.endpoint.text = a ∧
      ∃ reply nanos, world v.peer.endpoint = .ends reply nanos ∧ v.error = reply.error? ∧
        v.discovered = reply.discovered := by
  obtain ⟨found, p, reply, nanos, hp, hworld, ho⟩ := (traced_of_reachable h).recorded a v hv
  have hendpoint := ho.endpoint_eq
  rw [hendpoint]
  refine ⟨discoverable_of_heard hp, ?_, reply, nanos, hworld, ho.verdict⟩
  rw [← hendpoint]
  exact (tidy_of_reachable h).recorded_key a v hv

/-- After quiescence, whatever is known is recorded. -/
theorem recorded_of_knows (h : Reachable c world seeds s)
    (hended : s.supervisor.ending? = some .quiescent) {a : String} (ha : s.Knows a) :
    s.recorded.contains a = true := by
  obtain ⟨hwaiting, hflight⟩ := quiet_of_reachable h hended a
  simp only [ledger, Bool.toNat_eq_zero] at hwaiting hflight
  rcases knows_iff.1 ha with hknown | hknown | hknown
  · rw [hwaiting] at hknown
    cases hknown
  · rw [hflight] at hknown
    cases hknown
  · exact hknown

/-- After quiescence, every endpoint that can be discovered is recorded. -/
theorem recorded_of_discoverable (h : Reachable c world seeds s)
    (hended : s.supervisor.ending? = some .quiescent) {e : Endpoint}
    (he : Discoverable world seeds e) : s.recorded.contains e.text = true := by
  have hlossless := lossless_of_reachable h
  have hgoing : s.NotInterrupted := fun why hwhy => Option.some.inj (hwhy.symm.trans hended)
  induction he with
  | @seed p hp =>
    apply recorded_of_knows h hended
    rcases hlossless.seeds p hp with hknown | ⟨rest, hrest, -⟩
    · exact hknown
    · rw [hrest] at hended
      cases hended
  | @advertised e d nanos q he hworld hq ih =>
    obtain ⟨v, hv⟩ := AddressMap.exists_of_contains ih
    -- the visit under the text of `e` is one of `e`
    have hve : v.peer.endpoint = e := Endpoint.text_inj.1 (reply_of_recorded h hv).2.1
    apply recorded_of_knows h hended
    exact hlossless.recorded hgoing _ v hv (.directory d) nanos (by rw [hve, hworld]) q hq

/-- After quiescence, what was attempted is what is recorded, each once. -/
theorem count_attempts (h : Reachable c world seeds s)
    (hended : s.supervisor.ending? = some .quiescent) (a : String) :
    s.attempts.count a = (s.recorded.contains a).toNat := by
  obtain ⟨-, hflight⟩ := quiet_of_reachable h hended a
  obtain ⟨-, -, -, hle, hge⟩ := balanced_of_reachable h a
  simp only [ledger] at hflight hle hge
  omega

theorem recorded_of_finished {why : Ending} {r : Report} (hs : s.supervisor = .finished why r) :
    s.recorded = r.visits := by
  rw [recorded, hs]

/-- The keys of a quiescent report are the texts of the endpoints that can be discovered. -/
theorem mem_keys_report {r : Report} (h : Reachable c world seeds s)
    (hs : s.supervisor = .finished .quiescent r) (a : String) :
    a ∈ r.visits.keys ↔ ∃ e, Discoverable world seeds e ∧ e.text = a := by
  have hended : s.supervisor.ending? = some .quiescent := by rw [hs]; rfl
  rw [AddressMap.mem_keys_iff, ← recorded_of_finished hs]
  constructor
  · intro ha
    obtain ⟨v, hv⟩ := AddressMap.exists_of_contains ha
    obtain ⟨he, htext, -⟩ := reply_of_recorded h hv
    exact ⟨v.peer.endpoint, he, htext⟩
  · rintro ⟨e, he, rfl⟩
    exact recorded_of_discoverable h hended he

/-- **Crawl completeness.** Whatever the order of moves, a crawl that ended because it was quiescent
reports exactly the endpoints that can be discovered from the seeds, attempted each of them once and
nothing else, and reports of each what its behaviour gives. So all such runs agree. -/
theorem quiescent_report {r : Report} (h : Reachable c world seeds s)
    (hs : s.supervisor = .finished .quiescent r) :
    (∀ a, a ∈ r.visits.keys ↔ ∃ e, Discoverable world seeds e ∧ e.text = a) ∧
    s.attempts.Nodup ∧ (∀ a, a ∈ s.attempts ↔ a ∈ r.visits.keys) ∧
    (∀ e, Discoverable world seeds e → ∃ reply nanos v, world e = .ends reply nanos ∧
      r.visits.get? e.text = some v ∧ v.peer.endpoint = e ∧ v.error = reply.error? ∧
      v.discovered = reply.discovered) ∧
    ∀ c' s' r', Reachable c' world seeds s' → s'.supervisor = .finished .quiescent r' →
      (∀ a, a ∈ r'.visits.keys ↔ a ∈ r.visits.keys) ∧ s'.attempts.Perm s.attempts ∧
      ∀ a v v', r.visits.get? a = some v → r'.visits.get? a = some v' →
        v'.peer.endpoint = v.peer.endpoint ∧ v'.error = v.error ∧ v'.discovered = v.discovered := by
  have hended : s.supervisor.ending? = some .quiescent := by rw [hs]; rfl
  have hrecorded := recorded_of_finished hs
  refine ⟨mem_keys_report h hs, ?_, fun a => ?_, fun e he => ?_, fun c' s' r' h' hs' => ?_⟩
  · rw [List.nodup_iff_count]
    intro a
    rw [count_attempts h hended]
    exact Bool.toNat_le _
  · rw [← List.count_pos_iff, count_attempts h hended, hrecorded, AddressMap.mem_keys_iff]
    cases r.visits.contains a <;> simp
  · obtain ⟨v, hv⟩ := AddressMap.exists_of_contains (recorded_of_discoverable h hended he)
    obtain ⟨-, htext, reply, nanos, hworld, herror, hdiscovered⟩ := reply_of_recorded h hv
    have hve : v.peer.endpoint = e := Endpoint.text_inj.1 htext
    rw [hve] at hworld
    rw [hrecorded] at hv
    exact ⟨reply, nanos, v, hworld, hv, hve, herror, hdiscovered⟩
  · have hended' : s'.supervisor.ending? = some .quiescent := by rw [hs']; rfl
    have hrecorded' := recorded_of_finished hs'
    have hkeys : ∀ a, a ∈ r'.visits.keys ↔ a ∈ r.visits.keys :=
      fun a => (mem_keys_report h' hs' a).trans (mem_keys_report h hs a).symm
    refine ⟨hkeys, List.perm_iff_count.2 fun a => ?_, fun a v v' hv hv' => ?_⟩
    · have hcontains : s'.recorded.contains a = s.recorded.contains a := by
        rw [hrecorded, hrecorded', Bool.eq_iff_iff, ← AddressMap.mem_keys_iff,
          ← AddressMap.mem_keys_iff]
        exact hkeys a
      rw [count_attempts h' hended', count_attempts h hended, hcontains]
    · rw [← hrecorded] at hv
      rw [← hrecorded'] at hv'
      obtain ⟨-, htext, reply, nanos, hworld, herror, hdiscovered⟩ := reply_of_recorded h hv
      obtain ⟨-, htext', reply', nanos', hworld', herror', hdiscovered'⟩ :=
        reply_of_recorded h' hv'
      have hsame : v'.peer.endpoint = v.peer.endpoint :=
        Endpoint.text_inj.1 (htext'.trans htext.symm)
      rw [hsame, hworld] at hworld'
      cases hworld'
      exact ⟨hsame, herror'.trans herror.symm, hdiscovered'.trans hdiscovered.symm⟩

/-- A world in which a first peer advertises itself and a second, which fails its handshake. -/
def sampleWorld : World where
  encounter e :=
    if e = ⟨⟨1, 1, 1, 1⟩, 80⟩ then
      let first : Peer := { ip := ⟨1, 1, 1, 1⟩, port := 80 }
      let second : Peer := { ip := ⟨2, 2, 2, 2⟩, port := 80 }
      .ends (.directory { peers :=
        (AddressMap.empty.insert first.address first).insert second.address second }) 5
    else .ends (.failed .timeout) 7
  advertised := 2

/-- What the first peer of the sample advertises, as it is handed on. -/
def sampleFound : List Peer :=
  [{ ip := ⟨2, 2, 2, 2⟩, port := 80 }, { ip := ⟨1, 1, 1, 1⟩, port := 80 }]

/-- The first peer of the sample, named twice. -/
def sampleSeeds : List Peer :=
  List.replicate 2 { ip := ⟨1, 1, 1, 1⟩, port := 80 }

/-- The report of a crawl that ended because it was quiescent. -/
def quiescentReport? (s : System) : Option Report :=
  match s.supervisor with
  | .finished .quiescent r => some r
  | _ => none

theorem finished_of_quiescentReport? {r : Report} (h : s.quiescentReport? = some r) :
    s.supervisor = .finished .quiescent r := by
  unfold quiescentReport? at h
  split at h <;> cases h
  assumption

/-- The sample is crawled to quiescence by two workers. -/
theorem quiescent_report_sample : ∃ s r,
    Reachable ⟨2, true⟩ sampleWorld.encounter sampleSeeds s ∧
    s.supervisor = .finished .quiescent r ∧ r.visits.keys = ["1.1.1.1:80", "2.2.2.2:80"] ∧
    ∀ a, a ∈ r.visits.keys ↔
      ∃ e, Discoverable sampleWorld.encounter sampleSeeds e ∧ e.text = a := by
  have hrun : (crawl ⟨2, true⟩ sampleWorld {} ⟨1000⟩ sampleSeeds).quiescentReport?.map
      (·.visits.keys) = some ["1.1.1.1:80", "2.2.2.2:80"] := by
    decide +kernel
  obtain ⟨r, hr, hkeys⟩ := Option.map_eq_some_iff.1 hrun
  have hreach := reachable_crawl ⟨2, true⟩ sampleWorld {} ⟨1000⟩ sampleSeeds
  have hfinished := finished_of_quiescentReport? hr
  exact ⟨_, r, hreach, hfinished, hkeys, (quiescent_report hreach hfinished).1⟩

end System

end LevinNet.Crawl
