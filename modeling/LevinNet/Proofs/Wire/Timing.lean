import LevinNet.Proofs.Wire.Arrival

/-
The clock of a wait.

   1. A wait that begins before its limit ends no later than the limit (`clock_pull_le`).
   2. The limit makes no difference to a wait that it does not cut off: under every later limit the wait
      comes to the same, at the same instant (`pull_later`).
-/
namespace LevinNet

namespace Source

variable {σ α : Type} {feed : σ → Bytes → Fed σ α} {ending : Ending} {limit : Nat}

/-- The clock of a wait does not pass the limit. -/
theorem clock_pull_le (events : List Event) {clock : Nat} (s : σ) (h : clock ≤ limit) :
    (pull feed ending limit events clock s).clock ≤ limit := by
  have hcut : max clock limit ≤ limit := Nat.max_le.2 ⟨h, Nat.le_refl _⟩
  induction events generalizing clock s with
  | nil =>
    cases ending with
    | closed => exact h
    | silent => exact hcut
  | cons event events ih =>
    cases event with
    | bytes bs =>
      cases hf : feed s bs with
      | more s' =>
        simp only [pull, hf]
        exact ih s' h hcut
      | done a s' rest =>
        simp only [pull, hf]
        exact h
    | silence | silenceUntil =>
      rw [pull_silence rfl]
      split
      · -- the end of the silence is before the limit, and the wait goes on from there
        next hle =>
        have hnext := Nat.max_le.2 ⟨h, hle⟩
        exact ih s hnext (Nat.max_le.2 ⟨hnext, Nat.le_refl _⟩)
      · exact hcut
    | failure text => exact h

/-- A wait that is not cut off at `t` is the same wait under a later limit. -/
theorem pull_later {t : Nat} (hle : t ≤ limit) (events : List Event) (clock : Nat) (s : σ)
    (h : (pull feed ending t events clock s).outcome ≠ .late) :
    pull feed ending limit events clock s = pull feed ending t events clock s := by
  induction events generalizing clock s with
  | nil =>
    cases ending with
    | closed => rfl
    | silent => exact absurd rfl h
  | cons event events ih =>
    cases event with
    | bytes bs =>
      cases hf : feed s bs with
      | more s' =>
        simp only [pull, hf] at h ⊢
        exact ih clock s' h
      | done a s' rest => simp only [pull, hf]
    | silence | silenceUntil =>
      rw [pull_silence rfl] at h ⊢
      rw [pull_silence rfl]
      split at h
      · next hin =>
        rw [if_pos hin, if_pos (Nat.le_trans hin hle)]
        exact ih _ s h
      · exact absurd rfl h
    | failure text => rfl

end Source

end LevinNet
