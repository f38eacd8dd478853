import LevinNet.Wire.Source

/-
What a wait comes to, told from the bytes that arrive in it.

   1. `arrive` is a wait that takes whatever comes: it has the timing of every other wait on the same
      source and no opinion on the bytes. No byte is lost in it (`arrive_bytes_eq`), and with enough
      patience it goes on to a failure or to the end of the source (`exists_limit`).
   2. `Resumable` says that a consumer can be stopped at any byte: there is a reading of whole byte
      strings, `front`, which finds the first value of a string, and each state of the consumer holds
      the bytes of a value that is not complete.
   3. A wait of such a consumer is then a function of the bytes that arrive behind those it holds
      (`pull_of_none`, `pull_of_some`). Where the source cuts the bytes, and where earlier waits stopped,
      makes no difference. What is behind a value arrives as it would have without it
      (`arrive_pull_of_some`).
-/
namespace LevinNet

namespace Source

variable {σ α : Type} {feed : σ → Bytes → Fed σ α} {ending : Ending} {limit : Nat}

/-! ## Silences -/

/-- The instant at which a silence ends that a read meets. -/
def Event.endOf (clock : Nat) : Event → Option Nat
  | .silence nanos => some (clock + nanos)
  | .silenceUntil instant => some instant
  | _ => none

/-- A silence is waited out, or the limit comes first. -/
theorem pull_silence {event : Event} {clock instant : Nat} (h : event.endOf clock = some instant)
    (events : List Event) (s : σ) :
    pull feed ending limit (event :: events) clock s =
      if instant ≤ limit then pull feed ending limit events (max clock instant) s
      else ⟨.late, s, .silenceUntil instant :: events, max clock limit⟩ := by
  cases event with
  | silence nanos =>
    cases h
    rw [pull, Nat.max_eq_right (Nat.le_add_right clock nanos)]
  | silenceUntil instant =>
    cases h
    rw [pull]
  | bytes | failure => cases h

theorem bytesOf_silence {event : Event} (clock : Nat) (h : (event.endOf clock).isSome)
    (events : List Event) : bytesOf (event :: events) = bytesOf events := by
  cases event with
  | silence | silenceUntil => rfl
  | bytes | failure => cases h

/-! ## What a wait leaves -/

/-- A wait makes no events. -/
theorem length_pull_le (events : List Event) (clock : Nat) (s : σ) :
    (pull feed ending limit events clock s).events.length ≤ events.length := by
  induction events generalizing clock s with
  | nil => cases ending <;> exact Nat.le_refl 0
  | cons event events ih =>
    cases event with
    | bytes bs =>
      cases hf : feed s bs with
      | more s' =>
        simp only [pull, hf]
        exact Nat.le_succ_of_le (ih clock s')
      | done a s' rest => simp [pull, hf]
    | silence | silenceUntil =>
      rw [pull_silence rfl]
      split
      · exact Nat.le_succ_of_le (ih _ s)
      · simp
    | failure text => simp [pull]

/-- A failure that a wait meets, or leaves for later, is one of the source. -/
theorem failure_of_pull {events : List Event} {clock : Nat} {s : σ} {text : String}
    (h : (pull feed ending limit events clock s).outcome = .failed text ∨
      .failure text ∈ (pull feed ending limit events clock s).events) :
    .failure text ∈ events := by
  induction events generalizing clock s with
  | nil => cases ending <;> simp [pull] at h
  | cons event events ih =>
    cases event with
    | bytes bs =>
      cases hf : feed s bs with
      | more s' =>
        simp only [pull, hf] at h
        exact List.mem_cons_of_mem _ (ih h)
      | done a s' rest => simpa [pull, hf] using h
    | silence | silenceUntil =>
      rw [pull_silence rfl] at h
      split at h
      · exact List.mem_cons_of_mem _ (ih h)
      · simpa using h
    | failure other =>
      simp only [pull, Outcome.failed.injEq] at h
      rcases h with rfl | h
      · exact List.mem_cons_self
      · exact List.mem_cons_of_mem _ h

/-! ## Taking whatever comes -/

/-- Wait until the instant `limit` and keep all that comes, behind the bytes `got`. -/
def arrive (α : Type) (ending : Ending) (limit : Nat) (events : List Event) (clock : Nat)
    (got : Bytes) : Pull Bytes α :=
  pull (fun got bs => .more (got ++ bs)) ending limit events clock got

theorem arrive_bytes (bs : Bytes) (events : List Event) (clock : Nat) (got : Bytes) :
    arrive α ending limit (.bytes bs :: events) clock got
      = arrive α ending limit events clock (got ++ bs) := rfl

theorem arrive_silence {event : Event} {clock instant : Nat} (h : event.endOf clock = some instant)
    (events : List Event) (got : Bytes) :
    arrive α ending limit (event :: events) clock got =
      if instant ≤ limit then arrive α ending limit events (max clock instant) got
      else ⟨.late, got, .silenceUntil instant :: events, max clock limit⟩ :=
  pull_silence h events got

/-- All that is to come has come or is still to come, in this order. -/
theorem arrive_bytes_eq (α : Type) (ending : Ending) (limit : Nat) (events : List Event)
    (clock : Nat) (got : Bytes) :
    ∃ came, (arrive α ending limit events clock got).state = got ++ came ∧
      bytesOf events = came ++ bytesOf (arrive α ending limit events clock got).events := by
  induction events generalizing clock got with
  | nil => cases ending <;> exact ⟨[], by simp [arrive, pull, bytesOf]⟩
  | cons event events ih =>
    cases event with
    | bytes bs =>
      obtain ⟨came, hstate, hbytes⟩ := ih clock (got ++ bs)
      refine ⟨bs ++ came, ?_, ?_⟩
      · rw [arrive_bytes, hstate, List.append_assoc]
      · rw [arrive_bytes, bytesOf, hbytes, List.append_assoc]
    | silence | silenceUntil =>
      rw [arrive_silence rfl, bytesOf_silence clock rfl]
      split
      · exact ih _ got
      · exact ⟨[], (List.append_nil got).symm, rfl⟩
    | failure text => exact ⟨[], (List.append_nil got).symm, rfl⟩

/-- What was kept before makes no difference to what comes. -/
theorem arrive_append (events : List Event) (clock : Nat) (got more : Bytes) :
    arrive α ending limit events clock (got ++ more) =
      { arrive α ending limit events clock more with
        state := got ++ (arrive α ending limit events clock more).state } := by
  induction events generalizing clock more with
  | nil => cases ending <;> rfl
  | cons event events ih =>
    cases event with
    | bytes bs =>
      rw [arrive_bytes, arrive_bytes, List.append_assoc]
      exact ih clock (more ++ bs)
    | silence | silenceUntil =>
      rw [arrive_silence rfl, arrive_silence rfl]
      split
      · exact ih _ more
      · rfl
    | failure text => rfl

theorem arrive_kept (events : List Event) (clock : Nat) (got : Bytes) :
    arrive α ending limit events clock got =
      { arrive α ending limit events clock [] with
        state := got ++ (arrive α ending limit events clock []).state } := by
  rw [← arrive_append, List.append_nil]

/-- A wait that takes whatever comes is never done. -/
theorem arrive_ne_got (events : List Event) (clock : Nat) (got : Bytes) (value : α) :
    (arrive α ending limit events clock got).outcome ≠ .got value := by
  induction events generalizing clock got with
  | nil => cases ending <;> simp [arrive, pull]
  | cons event events ih =>
    cases event with
    | bytes bs => exact ih clock (got ++ bs)
    | silence | silenceUntil =>
      rw [arrive_silence rfl]
      split
      · exact ih _ got
      · simp
    | failure text => simp [arrive, pull]

/-- With a limit that is late enough, a wait stops at a failure of the source or at its end. -/
theorem exists_limit (α : Type) (ending : Ending) (events : List Event) (clock : Nat)
    (got : Bytes) :
    ∃ patience, ∀ limit, patience ≤ limit →
      let a := arrive α ending limit events clock got
      (∃ text, a.outcome = .failed text ∧ a.events.length < events.length) ∨ a.events = [] := by
  induction events generalizing clock got with
  | nil => exact ⟨0, fun limit _ => .inr (by cases ending <;> rfl)⟩
  | cons event events ih =>
    have later : ∀ {a : Pull Bytes α},
        (∃ text, a.outcome = .failed text ∧ a.events.length < events.length) ∨ a.events = [] →
        (∃ text, a.outcome = .failed text ∧ a.events.length < (event :: events).length) ∨
          a.events = [] := by
      rintro a (⟨text, htext, hlt⟩ | hend)
      · exact .inl ⟨text, htext, by rw [List.length_cons]; omega⟩
      · exact .inr hend
    -- the limit has to be behind the end of every silence that comes before
    have quiet : ∀ {instant}, event.endOf clock = some instant →
        ∃ patience, ∀ limit, patience ≤ limit →
          let a := arrive α ending limit (event :: events) clock got
          (∃ text, a.outcome = .failed text ∧ a.events.length < (event :: events).length) ∨
            a.events = [] := by
      intro instant hend
      obtain ⟨patience, hpatience⟩ := ih (max clock instant) got
      refine ⟨max patience instant, fun limit hlimit => ?_⟩
      rw [arrive_silence hend, if_pos (show instant ≤ limit by omega)]
      exact later (hpatience limit (by omega))
    cases event with
    | bytes bs =>
      obtain ⟨patience, hpatience⟩ := ih clock (got ++ bs)
      exact ⟨patience, fun limit hlimit => later (hpatience limit hlimit)⟩
    | silence | silenceUntil => exact quiet rfl
    | failure text => exact ⟨0, fun limit _ => .inl ⟨text, rfl, by simp [arrive, pull]⟩⟩

/-! ## Consumers that can be stopped anywhere -/

/-- `holds` tells which bytes of a value under way a state keeps, and `front` reads the first value
of a whole byte string, and what is behind it. -/
structure Resumable (feed : σ → Bytes → Fed σ α) (holds : σ → Bytes → Prop)
    (front : Bytes → Option (α × Bytes)) (fresh : σ) : Prop where
  /-- What a state holds is less than a value. -/
  short : ∀ {s got}, holds s got → front got = none
  more : ∀ {s got bs s'}, holds s got → feed s bs = .more s' → holds s' (got ++ bs)
  done : ∀ {s got bs a s' rest}, holds s got → feed s bs = .done a s' rest →
    front (got ++ bs) = some (a, rest) ∧ s' = fresh
  /-- What is behind a value does not change it. -/
  extend : ∀ {bs a rest} (behind), front bs = some (a, rest) →
    front (bs ++ behind) = some (a, rest ++ behind)

variable {holds : σ → Bytes → Prop} {front : Bytes → Option (α × Bytes)} {fresh : σ}

/-- A wait in which less than a value arrives ends as every wait does, and holds all that arrived. -/
theorem pull_of_none (hfeed : Resumable feed holds front fresh) {events : List Event}
    {clock : Nat} {s : σ} {got : Bytes} (hs : holds s got)
    (hfront : front (arrive α ending limit events clock got).state = none) :
    let p := pull feed ending limit events clock s
    let a := arrive α ending limit events clock got
    p.outcome = a.outcome ∧ holds p.state a.state ∧ p.events = a.events ∧ p.clock = a.clock := by
  induction events generalizing clock s got with
  | nil => cases ending <;> exact ⟨rfl, hs, rfl, rfl⟩
  | cons event events ih =>
    cases event with
    | bytes bs =>
      rw [arrive_bytes] at hfront ⊢
      cases hf : feed s bs with
      | more s' =>
        simp only [pull, hf]
        exact ih (hfeed.more hs hf) hfront
      | done a s' rest =>
        -- a value that was complete stays complete, whatever arrives behind it
        obtain ⟨came, hstate, -⟩ := arrive_bytes_eq α ending limit events clock (got ++ bs)
        have hvalue := hfeed.extend came (hfeed.done hs hf).1
        rw [← hstate, hfront] at hvalue
        cases hvalue
    | silence | silenceUntil =>
      rw [arrive_silence rfl] at hfront ⊢
      rw [pull_silence rfl]
      split at hfront
      · next hle =>
        simp only [hle, if_true]
        exact ih hs hfront
      · next hlate =>
        simp only [hlate, if_false]
        exact ⟨trivial, hs, trivial, trivial⟩
    | failure text => exact ⟨rfl, hs, rfl, rfl⟩

/-- A wait in which a value arrives ends with it, and leaves every byte behind it. -/
theorem pull_of_some (hfeed : Resumable feed holds front fresh) {events : List Event}
    {clock : Nat} {s : σ} {got : Bytes} (hs : holds s got) {value : α} {rest : Bytes}
    (hfront : front (arrive α ending limit events clock got).state = some (value, rest)) :
    let p := pull feed ending limit events clock s
    p.outcome = .got value ∧ p.state = fresh ∧
      bytesOf p.events = rest ++ bytesOf (arrive α ending limit events clock got).events := by
  have hshort := hfeed.short hs
  induction events generalizing clock s got with
  | nil => cases ending <;> exact absurd (hshort.symm.trans hfront) (by simp)
  | cons event events ih =>
    cases event with
    | bytes bs =>
      rw [arrive_bytes] at hfront ⊢
      cases hf : feed s bs with
      | more s' =>
        have hs' := hfeed.more hs hf
        simp only [pull, hf]
        exact ih hs' hfront (hfeed.short hs')
      | done a s' behind =>
        obtain ⟨came, hstate, hbytes⟩ := arrive_bytes_eq α ending limit events clock (got ++ bs)
        obtain ⟨hvalue, hfresh⟩ := hfeed.done hs hf
        -- the value is that of the bytes so far, and what came later is behind it
        have hfront' := hfeed.extend came hvalue
        rw [← hstate, hfront] at hfront'
        obtain ⟨rfl, rfl⟩ := Prod.mk.inj (Option.some.inj hfront')
        simp only [pull, hf, bytesOf]
        refine ⟨trivial, hfresh, ?_⟩
        rw [hbytes, List.append_assoc]
    | silence | silenceUntil =>
      rw [arrive_silence rfl] at hfront ⊢
      rw [pull_silence rfl]
      split at hfront
      · next hle =>
        simp only [hle, if_true]
        exact ih hs hfront hshort
      · exact absurd (hshort.symm.trans hfront) (by simp)
    | failure text => exact absurd (hshort.symm.trans hfront) (by simp)

/-- After a value was taken, the rest of the wait is still to come. -/
theorem arrive_pull_of_some (hfeed : Resumable feed holds front fresh) {events : List Event}
    {clock : Nat} {s : σ} {got : Bytes} (hs : holds s got) {value : α} {rest : Bytes}
    (hfront : front (arrive α ending limit events clock got).state = some (value, rest)) :
    let p := pull feed ending limit events clock s
    arrive α ending limit p.events p.clock []
      = { arrive α ending limit events clock got with state := rest } := by
  have hshort := hfeed.short hs
  induction events generalizing clock s got with
  | nil => cases ending <;> exact absurd (hshort.symm.trans hfront) (by simp)
  | cons event events ih =>
    cases event with
    | bytes bs =>
      rw [arrive_bytes] at hfront ⊢
      cases hf : feed s bs with
      | more s' =>
        have hs' := hfeed.more hs hf
        simp only [pull, hf]
        exact ih hs' hfront (hfeed.short hs')
      | done a s' behind =>
        -- the bytes behind the value were kept with it before, and are kept alone now
        have hvalue := hfeed.extend (arrive α ending limit events clock []).state
          (hfeed.done hs hf).1
        rw [arrive_kept] at hfront ⊢
        obtain ⟨-, rfl⟩ := Prod.mk.inj (Option.some.inj (hvalue.symm.trans hfront))
        simp only [pull, hf]
        rw [arrive_bytes, List.nil_append, arrive_kept]
    | silence | silenceUntil =>
      rw [arrive_silence rfl] at hfront ⊢
      rw [pull_silence rfl]
      split at hfront
      · next hle =>
        simp only [hle, if_true]
        exact ih hs hfront hshort
      · exact absurd (hshort.symm.trans hfront) (by simp)
    | failure text => exact absurd (hshort.symm.trans hfront) (by simp)

end Source

end LevinNet
