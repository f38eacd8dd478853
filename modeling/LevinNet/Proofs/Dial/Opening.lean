import LevinNet.Dial.Open

/-
What opening a session comes to.

   1. The dial comes to a stream if the peer is reached, directly or through the proxy, and the stream can
      be set to send without delay (`result_dial`). Whatever the host does, a dial that fails may succeed
      another time (`isTransient_of_dial`).
   2. A session is opened if and only if the dial comes to a stream, and the dial's error is that of the
      session otherwise (`result_open_eq_ok_iff`, `result_open_eq_error_iff`).
-/
namespace LevinNet

variable {host : Host} {config : Config} {p : Peer} {localId localTime : UInt64} {s : Session}
  {e : SessionError}

theorem Attempt.isTransient_of_dialled {ε : Type} {limit : Duration} {refusal : ε → SessionError}
    {attempt : Attempt ε} (hrefusal : ∀ reason, (refusal reason).isTransient = true)
    (h : (attempt.dialled limit refusal).2 = .error e) : e.isTransient = true := by
  unfold dialled at h
  split at h
  · cases h
    rfl
  · cases h
    exact hrefusal _
  · cases h

theorem TunnelFailure.isTransient_toSessionError (f : TunnelFailure) :
    f.toSessionError.isTransient = true := by
  obtain ⟨cause, text⟩ := f
  cases cause <;> rfl

namespace Session

theorem isTransient_of_reach {target : Endpoint} (h : (reach host config target).2 = .error e) :
    e.isTransient = true := by
  unfold reach at h
  split at h
  · exact Attempt.isTransient_of_dialled (fun _ => rfl) h
  · exact Attempt.isTransient_of_dialled TunnelFailure.isTransient_toSessionError h

/-- A stream that is there is lost again if it cannot be set to send small frames without delay. -/
theorem result_dial (target : Endpoint) :
    (dial host config target).2 = (reach host config target).2.bind fun source =>
      (host.noDelay target).elim (.ok source) fun text => .error (.io text) := by
  rw [dial]
  obtain ⟨nanos, stream⟩ := reach host config target
  cases stream with
  | error cause => rfl
  | ok source => cases host.noDelay target <;> rfl

theorem isTransient_of_dial {target : Endpoint} (h : (dial host config target).2 = .error e) :
    e.isTransient = true := by
  rw [result_dial] at h
  cases hreach : (reach host config target).2 with
  | error cause =>
    rw [hreach] at h
    cases h
    exact isTransient_of_reach hreach
  | ok source =>
    rw [hreach] at h
    cases hdelay : host.noDelay target with
    | none =>
      rw [hdelay] at h
      cases h
    | some text =>
      rw [hdelay] at h
      cases h
      rfl

theorem result_open_eq_ok_iff : (Session.open host config p localId localTime).result = .ok s ↔
    ∃ source, (dial host config p.endpoint).2 = .ok source ∧
      s = { start config p localId localTime source {} with
        clock := (dial host config p.endpoint).1 } := by
  rw [Session.open]
  obtain ⟨nanos, stream⟩ := dial host config p.endpoint
  cases stream <;> simp [Except.map, eq_comm]

theorem result_open_eq_error_iff : (Session.open host config p localId localTime).result = .error e ↔
    (dial host config p.endpoint).2 = .error e := by
  rw [Session.open]
  obtain ⟨nanos, stream⟩ := dial host config p.endpoint
  cases stream <;> simp [Except.map]

end Session

end LevinNet
