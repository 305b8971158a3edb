import TunnelMesh.Relay.ClientStream

namespace TunnelMesh.Relay

open Protocol Session Option FrameQueue
open Agent (Outcome frameSize)

variable {π : Type}

def ClientLabel.ofUpload : ClientLabel π → Bool
  | .data _ | .halfClose | .pushHalfClose | .reset | .pump _ => true
  | _ => false

namespace ClientRelayStream

structure Beside (s next : ClientRelayStream π) : Prop where
  sendState : next.sendState = s.sendState
  relay : next.relay = s.relay
  control : next.control = s.control
  outbound : next.outbound = s.outbound
  present : next.present → s.present

variable {s next : ClientRelayStream π}

theorem beside_retire (s : ClientRelayStream π) : Beside s s.retire := ⟨rfl, rfl, rfl, rfl, nofun⟩

theorem handleData_beside (s : ClientRelayStream π) (payload : π) : Beside s (s.handleData size payload) := by
  unfold handleData
  split
  · exact ⟨rfl, rfl, rfl, rfl, id⟩
  · split
    · exact ⟨rfl, rfl, rfl, rfl, id⟩
    · exact beside_retire s

theorem handleHalfClose_beside (s : ClientRelayStream π) : Beside s s.handleHalfClose := by
  unfold handleHalfClose
  split <;> exact ⟨rfl, rfl, rfl, rfl, id⟩

theorem pushHalfClose_beside (s : ClientRelayStream π) : Beside s (s.pushHalfClose size) := by
  unfold pushHalfClose
  split
  · exact ⟨rfl, rfl, rfl, rfl, id⟩
  · exact ⟨rfl, rfl, rfl, rfl, nofun⟩

theorem pumpClientUpload_beside (hs : s.pumpClientUpload outcome = some next) : Beside s next := by
  unfold pumpClientUpload at hs
  split at hs
  · split at hs
    case h_3 => obtain ⟨-, rfl⟩ := guard_eq_some hs; exact ⟨rfl, rfl, rfl, rfl, id⟩
    all_goals
      cases hs
      exact ⟨rfl, rfl, rfl, rfl, id⟩
  · cases hs; exact ⟨rfl, rfl, rfl, rfl, id⟩
  · cases hs; exact ⟨rfl, rfl, rfl, rfl, id⟩
  · cases hs; exact ⟨rfl, rfl, rfl, rfl, nofun⟩
  · cases hs; exact ⟨rfl, rfl, rfl, rfl, nofun⟩
  · split_ifs at hs <;> cases hs
    · exact ⟨rfl, rfl, rfl, rfl, nofun⟩
    · exact ⟨rfl, rfl, rfl, rfl, id⟩
  · cases hs

theorem step_beside (hl : label.ofUpload) (hs : s.step size bufferSize label = some next) : Beside s next := by
  cases label with
  | data payload =>
    simp only [step, ite_none_left_eq_some] at hs
    cases hs.2
    exact handleData_beside s payload
  | halfClose =>
    simp only [step, ite_none_left_eq_some] at hs
    cases hs.2
    exact handleHalfClose_beside s
  | pushHalfClose => obtain ⟨-, rfl⟩ := guard_eq_some hs; exact pushHalfClose_beside s
  | reset => cases hs; exact beside_retire s
  | pump outcome => exact pumpClientUpload_beside hs
  | _ => cases hl

-- What `relayToClient` does in one step. It returns when it finds the stream
-- gone, and it may retire the stream before it returns.
inductive RelayEffect (bufferSize : ℕ) (s : ClientRelayStream π) : ClientRelayStream π → Prop where
  | took {credit : ℕ} {control : List ℕ} (hrelay : s.relay = .looking) (hcontrol : s.control = credit :: control) :
      RelayEffect bufferSize s { s with control, relay := .forwarding credit }
  | looked (hrelay : s.relay = .looking) (hcontrol : s.control = []) :
      RelayEffect bufferSize s { s with relay := .limiting }
  | forwarded (hrelay : s.relay = .forwarding credit) (hpresent : s.present)
      (hopen : s.outbound.closed = false) :
      RelayEffect bufferSize s { s with relay := .looking }
  | limited (hrelay : s.relay = .limiting) (hbuffer : limit ≤ bufferSize)
      (hlimit : ∀ sendState ∈ s.sendState, 0 < sendState.sendWindow ∧ limit ≤ sendState.sendWindow) :
      RelayEffect bufferSize s { s with relay := .reading limit }
  | consumed {n : ℕ} {sendState : Option StreamState} (hrelay : s.relay = .consuming n)
      (hnone : s.sendState = none → sendState = none)
      (hsome : ∀ before ∈ s.sendState, n ≤ before.sendWindow ∧
        sendState = some { before with sendWindow := before.sendWindow - n }) :
      RelayEffect bufferSize s { s with sendState, relay := .sending n }
  | enqueued {n : ℕ} {outbound : FrameQueue (Option ℕ)} (hrelay : s.relay = .sending n)
      (hpush : s.outbound.tryPush (frameSize id) (some n) = some outbound) :
      RelayEffect bufferSize s { s with outbound, relay := .looking }
  | finished {next : ClientRelayStream π} (hsend : next.sendState = s.sendState) (hcontrol : next.control = s.control)
      (houtbound : next.outbound = (s.outbound.tryPush (frameSize id) none).getD s.outbound ∨
        next.outbound = s.outbound)
      (hrelay : next.relay = .returned)
      (hstays : next.present → s.present ∧ s.relay = .ending false) : RelayEffect bufferSize s next

theorem outbound_of_finished (ho : next.outbound = (s.outbound.tryPush (frameSize id) none).getD s.outbound ∨
      next.outbound = s.outbound) : next.outbound.bytes (frameSize id) = s.outbound.bytes (frameSize id) ∧
      next.outbound.maxBytes = s.outbound.maxBytes ∧ next.outbound.closed = s.outbound.closed := by
  rcases ho with hp | hk
  · rw [hp]
    exact ⟨bytes_pushed rfl, maxBytes_pushed _ _ _, closed_pushed _ _ _⟩
  · rw [hk]; exact ⟨rfl, rfl, rfl⟩

theorem clientSendLimit_effect (hr : s.relay = .limiting) (hs : s.clientSendLimit bufferSize = some next) :
    RelayEffect bufferSize s next := by
  unfold clientSendLimit at hs
  split at hs
  · next hn =>
    cases hs
    refine .limited hr le_rfl fun sendState hsome => ?_
    rw [hn] at hsome
    cases hsome
  · next sendState hsend =>
    split at hs
    · next hc =>
      cases hs
      refine .limited hr (min_le_right _ _) fun other ho => ?_
      obtain rfl : sendState = other := some.inj (hsend.symm.trans ho)
      exact ⟨hc, min_le_left _ _⟩
    · simp only [ite_none_left_eq_some] at hs
      cases hs.2
      exact .finished rfl rfl (.inr rfl) rfl fun hp => absurd hp hs.1

theorem waitForClientWindow_effect (hr : s.relay = .consuming n)
    (hs : s.waitForClientWindow n = some next) : RelayEffect bufferSize s next := by
  unfold waitForClientWindow at hs
  split at hs
  · next hg =>
    cases hs
    exact .finished rfl rfl (.inr rfl) rfl fun hp => absurd (hg.symm.trans hp) nofun
  · split at hs
    · next hn =>
      cases hs
      refine .consumed hr (fun _ => hn) fun sendState hsome => ?_
      rw [hn] at hsome
      cases hsome
    · next sendState hsend =>
      split at hs
      · next after hok =>
        cases hs
        obtain ⟨hle, rfl⟩ := StreamState.consumeSend_ok hok
        refine .consumed hr (fun hn => ?_) fun before hb => ?_
        · rw [hsend] at hn; cases hn
        · obtain rfl : sendState = before := some.inj (hsend.symm.trans hb); exact ⟨hle, rfl⟩
      · cases hs
      · cases hs; exact .finished rfl rfl (.inr rfl) rfl nofun

theorem endOfRead_over (hr : s.relay = .ending failed) : RelayEffect bufferSize s (s.endOfRead failed) := by
  unfold endOfRead
  split
  · next hg => exact .finished rfl rfl (.inr rfl) rfl fun hp => absurd (hg.symm.trans hp) nofun
  · next hhere =>
    split
    · exact .finished rfl rfl (.inr rfl) rfl nofun
    · next hend =>
      split
      · exact .finished rfl rfl (.inl rfl) rfl nofun
      · refine .finished rfl rfl (.inl rfl) rfl fun hp => ⟨hp, ?_⟩
        rw [hr, Bool.eq_false_iff.mpr hend]

theorem relayToClient_effect (hs : s.relayToClient bufferSize outcome = some next) : RelayEffect bufferSize s next := by
  unfold relayToClient at hs
  split at hs
  · next hr =>
    split at hs <;> cases hs
    · next hc => exact .took hr hc
    · next hc => exact .looked hr hc
  · next hr =>
    split_ifs at hs with hg hf <;> cases hs
    · exact .finished rfl rfl (.inr rfl) rfl fun hp => absurd (hg.symm.trans hp) nofun
    · exact .finished rfl rfl (.inr rfl) rfl nofun
    · exact .forwarded hr (by simpa using hg) (by simpa using fun hclosed => hf (.inl hclosed))
  · next hr => exact clientSendLimit_effect hr hs
  · next hr => exact waitForClientWindow_effect hr hs
  · next hr =>
    cases hs
    unfold enqueueData
    split
    · next hg => exact .finished rfl rfl (.inr rfl) rfl fun hp => absurd (hg.symm.trans hp) nofun
    · split
      · next outbound hpush => exact .enqueued hr hpush
      · exact .finished rfl rfl (.inr rfl) rfl nofun
  · next hr =>
    cases hs
    exact endOfRead_over hr
  · cases hs
  · cases hs

theorem readBytes_eq_some (hs : s.readBytes n = some next) : ∃ limit, s.relay = .reading limit ∧ n ≤ limit ∧
      next = { s with relay := if n = 0 then .looking else .consuming n } := by
  unfold readBytes at hs
  split at hs
  · next limit hr =>
    simp only [ite_none_left_eq_some] at hs
    exact ⟨limit, hr, by omega, (some.inj hs.2).symm⟩
  · cases hs

theorem readEnd_eq_some (hs : s.readEnd failed = some next) :
    ∃ limit, s.relay = .reading limit ∧ next = { s with relay := .ending failed } := by
  unfold readEnd at hs
  split at hs
  · next limit hr => exact ⟨limit, hr, (some.inj hs).symm⟩
  · cases hs

theorem handleWindowUpdate_effect (s : ClientRelayStream π) (credit : ℕ) :
    Beside s (s.handleWindowUpdate credit) ∨ ∃ sendState, s.present ∧ s.sendState = some sendState ∧
      s.handleWindowUpdate credit =
        { s with sendState := some { sendState with sendWindow := sendState.sendWindow + credit } } := by
  unfold handleWindowUpdate
  split
  · exact .inl ⟨rfl, rfl, rfl, rfl, id⟩
  · next hh =>
    split
    · exact .inl ⟨rfl, rfl, rfl, rfl, id⟩
    · next sendState hs =>
      split
      · next after hok =>
        obtain rfl := StreamState.addSendWindow_ok hok
        exact .inr ⟨sendState, by simpa using hh, hs, rfl⟩
      · exact .inl (beside_retire s)

end ClientRelayStream

end TunnelMesh.Relay
