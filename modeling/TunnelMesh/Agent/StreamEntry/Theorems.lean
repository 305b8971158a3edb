import TunnelMesh.Agent.StreamEntry.Effect

namespace TunnelMesh.Agent

open Protocol Session Pump FrameQueue Intake Option List StreamState

variable {π : Type} {size : π → ℕ}

def Pump.hand (size : π → ℕ) : Pump π → ℕ
  | .writing payload => size payload
  | .releasing written => written
  | .flushing update => update
  | _ => 0

def Pump.posted : Pump π → ℕ
  | .posting update => update
  | _ => 0

def Back.hand (size : π → ℕ) : Back π → ℕ
  | .sending payload _ => size payload
  | _ => 0

theorem Back.hand_of_isReading {back : Back π} (h : back.isReading) : back.hand size = 0 := by
  cases back with
  | reading => rfl
  | _ => cases h

namespace Intake

variable {q next : Intake π}

def pending (size : π → ℕ) (q : Intake π) : ℕ :=
  q.inbound.bytes (frameSize size) + q.pump.hand size + q.receiveUnacked

structure Balanced (size : π → ℕ) (q : Intake π) : Prop where
  status : q.receiveState.status = .opened
  total : q.receiveState.receiveWindow + q.pending size = defaultAgentReceiveWindow
  residue : q.receiveUnacked < defaultWindowUpdateThreshold

def carried (size : π → ℕ) (q : Intake π) : ℕ := q.pending size + q.pump.posted

theorem balanced_opened (inboundBytes : ℕ) : Balanced size (opened inboundBytes : Intake π) :=
  ⟨rfl, rfl, show 0 < defaultWindowUpdateThreshold by decide⟩

theorem carried_opened (inboundBytes : ℕ) : (opened inboundBytes : Intake π).carried size = 0 := rfl

theorem admitInbound_balanced (h : q.Balanced size) (hok : q.admitInbound size payload = .ok next) :
    next.Balanced size ∧ next.carried size = q.carried size + size payload := by
  obtain ⟨hroom, rfl⟩ := admitInbound_ok hok
  have ht := h.total
  have hb : (q.inbound.frames ++ [some payload]).map (frameSize size) =
      q.inbound.frames.map (frameSize size) ++ [size payload] := by simp [frameSize]
  refine ⟨{ h with total := ?_ }, ?_⟩ <;>
    simp only [carried, pending, bytes, hb, sum_append, sum_singleton] at ht ⊢ <;>
    omega

theorem halfClose_balanced (h : q.Balanced size) :
    Balanced size { q with inbound := (q.inbound.tryPush (frameSize size) none).getD q.inbound } ∧
      carried size { q with inbound := (q.inbound.tryPush (frameSize size) none).getD q.inbound } = q.carried size := by
  have hb : ((q.inbound.tryPush (frameSize size) none).getD q.inbound).bytes (frameSize size) =
      q.inbound.bytes (frameSize size) := bytes_pushed rfl
  have ht := h.total
  refine ⟨{ h with total := ?_ }, ?_⟩
  · simp only [pending, hb] at ht ⊢; exact ht
  · simp only [carried, pending, hb]

theorem pop_balanced (hp : q.pump = .popping) (h : q.Balanced size) (hpop : q.pop = some next) :
    next.Balanced size ∧ next.carried size = q.carried size := by
  have ht := h.total
  simp only [pending, hp, hand, bytes] at ht
  cases pop_popped hpop with
  | payload hf | half hf =>
    simp only [hf, map_cons, sum_cons, frameSize, elim_some, elim_none] at ht
    refine ⟨{ h with total := ?_ }, ?_⟩ <;>
      simp only [carried, pending, hp, hand, posted, bytes, hf, map_cons, sum_cons, frameSize, elim_some, elim_none] <;>
      omega
  | nothing =>
    refine ⟨{ h with total := ?_ }, ?_⟩ <;> simp only [carried, pending, hp, hand, posted, bytes]
    omega

theorem release_balanced (hp : q.pump = .releasing written) (h : q.Balanced size) :
    (q.releaseReceiveWindow written).Balanced size ∧
      (q.releaseReceiveWindow written).carried size = q.carried size := by
  have ht := h.total
  simp only [pending, hp, hand] at ht
  have hwindow : defaultAgentReceiveWindow = 262144 := rfl
  have hu : uint32 (q.receiveUnacked + uint32 written) = q.receiveUnacked + written := by
    rw [uint32_of_lt (show written < 2 ^ 32 by omega), uint32_of_lt (by omega)]
  unfold releaseReceiveWindow
  by_cases hz : written = 0
  · rw [if_pos hz]
    refine ⟨{ h with total := ?_ }, ?_⟩ <;> simp only [carried, pending, hp, hand, posted] <;> omega
  · simp only [if_neg hz, hu, shouldFlushWindowUpdate_iff]
    split
    · refine ⟨⟨h.status, ?_, show 0 < defaultWindowUpdateThreshold by decide⟩, ?_⟩ <;>
        simp only [carried, pending, hp, hand, posted] <;>
        omega
    · next hk =>
      have hs : q.receiveUnacked + written ≠ 0 := by omega
      have hb : q.receiveUnacked + written < defaultWindowUpdateThreshold := by
        by_contra hlarge
        exact hk ⟨hs, .inl (by omega)⟩
      refine ⟨⟨h.status, ?_, hb⟩, ?_⟩ <;> simp only [carried, pending, hp, hand, posted] <;> omega

theorem add_balanced (hp : q.pump = .flushing update) (h : q.Balanced size) :
    (q.addReceiveWindow update).Balanced size ∧ (q.addReceiveWindow update).carried size = q.carried size := by
  have ht := h.total
  simp only [pending, hp, hand] at ht
  have hwindow : defaultAgentReceiveWindow = 262144 := rfl
  have hadd := addReceiveWindow_of_opened (n := update) h.status (by omega)
  simp only [addReceiveWindow, hadd]
  refine ⟨{ h with total := ?_ }, ?_⟩ <;> simp only [carried, pending, hp, hand, posted] <;> omega

theorem moved_balanced {pump : Pump π} (h : q.Balanced size) (hh : pump.hand size = q.pump.hand size) :
    Balanced size { q with pump } := by
  have ht := h.total
  refine { h with total := ?_ }
  simp only [pending, hh] at ht ⊢
  exact ht

end Intake

namespace EntryLabel

def bytes (size : π → ℕ) : EntryLabel π → ℕ
  | .data payload => size payload
  | _ => 0

def credit : EntryLabel π → ℕ
  | .windowUpdate credit => credit
  | _ => 0

end EntryLabel

namespace StreamEntry

variable {label : EntryLabel π}

def losesUpdate (e : StreamEntry π) : EntryLabel π → Bool
  | .pump .failed =>
    match e.intake.pump with
    | .posting _ => true
    | _ => false
  | _ => false

structure Conserves (size : π → ℕ) (e : StreamEntry π) (moved : EntryMoved π) (bytes : ℕ) (loses : Bool) : Prop where
  balanced : moved.entry.intake.Balanced size
  carried : loses = false → moved.entry.intake.carried size + moved.updates.sum = e.intake.carried size + bytes

theorem conserves_intake {next : StreamEntry π} {bytes : ℕ}
    (h : next.intake.Balanced size ∧ next.intake.carried size = e.intake.carried size + bytes) :
    Conserves size e (quietly next) bytes loses :=
  ⟨h.1, fun _ => h.2⟩

theorem conserves_pump {pump : Pump π} (h : e.intake.Balanced size) (hh : pump.hand size = e.intake.pump.hand size)
    (hp : pump.posted = e.intake.pump.posted) :
    Conserves size e (quietly { e with intake := { e.intake with pump } }) 0 loses := by
  refine conserves_intake ⟨moved_balanced h hh, ?_⟩
  simp only [carried, pending, hh, hp, Nat.add_zero]

theorem bytes_of_ne_data (hl : ∀ payload, label ≠ .data payload) : label.bytes size = 0 := by
  cases label with
  | data payload => exact absurd rfl (hl payload)
  | _ => rfl

theorem Effect.conserves (he : Effect size e label moved) (h : e.intake.Balanced size)
    (hpresent : moved.entry.present) : Conserves size e moved (label.bytes size) (e.losesUpdate label) := by
  cases he with
  | admitted _ _ hok => exact conserves_intake (admitInbound_balanced h hok)
  | halfClosed => exact conserves_intake (halfClose_balanced h)
  | popped hp hpop => exact conserves_intake (pop_balanced hp h hpop)
  | wrote hp | closedWrite hp => exact conserves_pump h (by rw [hp]; rfl) (by rw [hp]; rfl)
  | released hp => exact conserves_intake (release_balanced hp h)
  | added hp => exact conserves_intake (add_balanced hp h)
  | posted hp =>
    refine ⟨moved_balanced h (by rw [hp]; rfl), fun _ => ?_⟩
    simp only [carried, pending, hp, Pump.hand, Pump.posted, sum_singleton, EntryLabel.bytes]
    omega
  | lost hp =>
    refine ⟨moved_balanced h (by rw [hp]; rfl), fun hk => ?_⟩
    simp only [losesUpdate, hp] at hk
    cases hk
  | aside _ hd hi hs _ _ hu =>
    rw [bytes_of_ne_data (hd (hs.symm.trans hpresent))]
    exact ⟨hi ▸ h, fun _ => by rw [hi, hu]; rfl⟩
  | completed | ended => cases hpresent
  | dropped hg => rw [hg] at hpresent; cases hpresent

theorem step_conserves (hs : e.step size bufferSize label = some moved) (h : e.intake.Balanced size)
    (hp : moved.entry.present) : Conserves size e moved (label.bytes size) (e.losesUpdate label) :=
  (step_effect hs).conserves h hp

structure Spends (size : π → ℕ) (e : StreamEntry π) (moved : EntryMoved π) (credit : ℕ) : Prop where
  status : moved.entry.sendState.status = .opened
  window : moved.entry.sendState.sendWindow + moved.entry.back.hand size + (moved.data.map (frameSize size)).sum =
    e.sendState.sendWindow + e.back.hand size + credit

structure KeepsSend (e : StreamEntry π) (moved : EntryMoved π) : Prop where
  sendState : moved.entry.sendState = e.sendState
  back : moved.entry.back = e.back
  data : moved.data = []

theorem KeepsSend.spends (h : KeepsSend e moved) (hs : e.sendState.status = .opened) : Spends size e moved 0 :=
  ⟨by rw [h.sendState]; exact hs, by rw [h.sendState, h.back, h.data]; rfl⟩

theorem handleData_keepsSend (payload : π) : KeepsSend e (e.handleData size payload) := by
  unfold handleData
  split
  · exact ⟨rfl, rfl, rfl⟩
  · split
    · exact ⟨rfl, rfl, rfl⟩
    · split <;> exact ⟨rfl, rfl, rfl⟩

theorem handleHalfClose_keepsSend : KeepsSend e (e.handleHalfClose size) := by
  unfold handleHalfClose
  split <;> exact ⟨rfl, rfl, rfl⟩

theorem pumpTarget_keepsSend (hs : e.pumpTarget size outcome = some moved) : KeepsSend e moved := by
  simp only [pumpTarget] at hs
  split at hs
  case h_1 =>
    obtain ⟨intake, -, rfl⟩ := map_eq_some_iff.mp hs
    exact ⟨rfl, rfl, rfl⟩
  case h_3 =>
    split at hs <;> cases hs
    · simp only [quietly, closeTargetWrite]; split <;> exact ⟨rfl, rfl, rfl⟩
    · exact ⟨rfl, rfl, rfl⟩
  case h_2 | h_6 => split at hs <;> cases hs <;> exact ⟨rfl, rfl, rfl⟩
  all_goals cases hs
  all_goals exact ⟨rfl, rfl, rfl⟩

theorem waitForSendWindow_spends (hb : e.back = .reserving payload last)
    (hs : e.sendState.status = .opened) (hp : (e.waitForSendWindow size payload last).present) :
    Spends size e (quietly (e.waitForSendWindow size payload last)) 0 := by
  unfold waitForSendWindow at hp ⊢
  split at hp
  · next sendState hok =>
    obtain ⟨hroom, rfl⟩ := consumeSend_ok hok
    refine ⟨hs, ?_⟩
    simp only [quietly, hb, Back.hand, map_nil, sum_nil]
    omega
  · split at hp
    · next hh =>
      rw [if_pos hh]
      exact ⟨hs, rfl⟩
    · next ha => exact absurd hp ha
  · cases hp

theorem readBack_spends (hstatus : e.sendState.status = .opened)
    (hs : e.readBack size outcome = some moved) (hp : moved.entry.present) : Spends size e moved 0 := by
  simp only [readBack] at hs
  split at hs
  · cases hs
  · next hb =>
    cases hs
    exact waitForSendWindow_spends hb hstatus hp
  · next last hb =>
    split at hs <;> cases hs
    · refine ⟨hstatus, ?_⟩; cases last <;> simp [hb, Back.hand, frameSize]
    · cases hp
  · next hb =>
    cases hs
    unfold endOfFile at hp ⊢
    split at hp
    · next ha =>
      rw [if_pos ha]
      refine ⟨hstatus, ?_⟩
      simp [quietly, hb, Back.hand]
    · next hh =>
      rw [if_neg hh]
      cases outcome with
      | failed => cases hp
      | ok =>
        split_ifs at hp with ho
        rw [if_neg ho]
        refine ⟨hstatus, ?_⟩
        simp [hb, Back.hand, frameSize]
  · cases hs

theorem handleWindowUpdate_spends (hs : e.sendState.status = .opened)
    (hf : e.sendState.sendWindow + credit < 2 ^ 32) (hp : e.present) :
    Spends size e (e.handleWindowUpdate credit) credit := by
  have hadd := addSendWindow_of_opened (n := credit) hs hf
  have hh : ¬ e.present = false := by simp [hp]
  simp only [handleWindowUpdate, if_neg hh, hadd]
  refine ⟨hs, ?_⟩
  simp only [quietly, map_nil, sum_nil]
  omega

theorem step_spends (hstep : e.step size bufferSize label = some moved) (hs : e.sendState.status = .opened)
    (hf : e.sendState.sendWindow + label.credit < 2 ^ 32) (hnow : e.present)
    (hp : moved.entry.present) : Spends size e moved label.credit := by
  cases label with
  | data payload => cases hstep; exact (handleData_keepsSend payload).spends hs
  | halfClose => cases hstep; exact handleHalfClose_keepsSend.spends hs
  | windowUpdate credit =>
    cases hstep
    exact handleWindowUpdate_spends hs hf hnow
  | pump outcome => exact (pumpTarget_keepsSend hstep).spends hs
  | target payload last =>
    simp only [step, ite_none_right_eq_some] at hstep
    obtain ⟨⟨hr, -⟩, hsome⟩ := hstep
    cases hsome
    refine ⟨hs, ?_⟩
    rw [Back.hand_of_isReading hr]
    rfl
  | targetEnd =>
    simp only [step, ite_none_right_eq_some] at hstep
    obtain ⟨hr, hsome⟩ := hstep
    cases hsome
    refine ⟨hs, ?_⟩
    rw [Back.hand_of_isReading hr]
    rfl
  | back outcome => exact readBack_spends hs hstep hp
  | targetError =>
    simp only [step, ite_none_right_eq_some] at hstep
    cases hstep.2
    cases hp
  | retire => cases hstep; cases hp

end StreamEntry

end TunnelMesh.Agent
