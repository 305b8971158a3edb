import TunnelMesh.Relay.Link

namespace TunnelMesh.Relay

open Protocol Download Relay.Frame Option List Transition Endpoint
open Agent (StreamEntry EntryLabel EntryMoved)

variable {α : Type}

theorem bytes_dataFrame (f : Option (List α)) : (dataFrame f).bytes = Agent.frameSize List.length f := by
  cases f <;> rfl

theorem map_bytes_dataFrame (data : List (Option (List α))) :
    ((data.map dataFrame).map bytes).sum = (data.map (Agent.frameSize List.length)).sum := by
  rw [List.map_map]
  exact congrArg List.sum (List.map_congr_left fun f _ => bytes_dataFrame f)

theorem ReadLabel.free_of_own {label : ReadLabel α} (h : label.own) : label.free := by
  cases label with
  | frame f => cases h
  | fail e => exact h
  | _ => rfl

namespace Download

theorem sends_exact (hoffered : Offered window) (frames : List (Frame α)) (h : Exact windows window d)
    (hfits : d.sent + (frames.map bytes).sum ≤ window + d.credited) : Exact windows window
      { d with inflight := d.inflight ++ frames, sent := d.sent + (frames.map bytes).sum } := by
  induction frames generalizing d with
  | nil => simpa using h
  | cons f rest ih =>
    rw [map_cons, sum_cons] at hfits ⊢
    have hf : d.Respects window (.send f) := by simp only [Respects]; omega
    have hs : d.step windows (.send f) =
        some { d with inflight := d.inflight ++ [f], sent := d.sent + f.bytes } := rfl
    have hr := ih (step_exact hoffered h hf hs) (by simp only; omega)
    simp only [append_assoc, singleton_append, Nat.add_assoc] at hr
    exact hr

end Download

namespace Link

variable {l next : Link α}

-- While the Agent has the entry, the direction from it is a download that keeps
-- within its window, and its send window is what it has not spent.
structure Downloads (windows : AgentRelayWindowConfig) (window : ℕ) (l : Link α) : Prop where
  exact : l.down.Exact windows window
  status : l.agent.sendState.status = .opened
  window : l.agent.sendState.sendWindow + l.agent.back.hand List.length + l.sent = window + l.credited

theorem downloads_opened (windows : AgentRelayWindowConfig) (requested inboundBytes : ℕ) :
    Downloads windows (windows.windowFor requested) (opened inboundBytes (windows.windowFor requested) : Link α) := by
  have hpos := (offered_windowFor windows requested).pos
  refine ⟨exact_opened windows requested, rfl, ?_⟩
  have hw : (openedState (windows.windowFor requested)).sendWindow = windows.windowFor requested :=
    (openedState_window (by omega)).1
  simp only [opened, StreamEntry.opened, hw, Agent.Back.hand, Nat.add_zero]

theorem downloads_server (downLabel : DownloadLabel α) (hoffered : Offered window)
    (h : Downloads windows window l) (hr : l.down.Respects window downLabel)
    (hs : l.down.step windows downLabel = some next.down) (ha : next.agent = l.agent)
    (hsent : next.sent = l.sent) (hc : next.credited = l.credited) : Downloads windows window next := by
  refine ⟨step_exact hoffered h.exact hr hs, ?_, ?_⟩
  · rw [ha]; exact h.status
  · rw [ha, hsent, hc]; exact h.window

section

variable (hoffered : Offered window)

include hoffered

theorem serverStep_downloads (h : Downloads windows window l) (hready : l.server.Ready)
    (hf : ∀ label, endLabel = .reading label → label.free)
    (hstep : l.serverStep windows endLabel = some next) : Downloads windows window next := by
  obtain ⟨server, hs, rfl⟩ := map_eq_some_iff.mp hstep
  cases endLabel with
  | reading label =>
    obtain ⟨reading, hread, rfl⟩ := map_eq_some_iff.mp hs
    refine downloads_server (.server label) hoffered h trivial ?_ rfl rfl rfl
    have hstep : l.down.server.step windows label = some reading := hread
    simp only [Download.step, hf label rfl, if_true, hstep, map_some]
    rfl
  | write payload =>
    obtain ⟨-, hr, -⟩ := write_ready hready hs
    refine { h with exact := ?_ }
    simp only [down, hr]
    exact h.exact
  | writer choice =>
    obtain ⟨-, hr | hr, -⟩ := advance_ready hready hs
    · refine { h with exact := ?_ }
      simp only [down, hr]
      exact h.exact
    · refine downloads_server (.server (.fail .disconnected)) hoffered h trivial ?_ rfl rfl rfl
      simp only [down, hr]
      rfl

theorem deliver_downloads (h : Downloads windows window l)
    (hstep : l.deliver windows = some next) : Downloads windows window next := by
  unfold deliver at hstep
  split at hstep
  case h_3 => cases hstep
  all_goals next hf =>
    obtain ⟨server, hs, rfl⟩ := map_eq_some_iff.mp hstep
    obtain ⟨reading, hr, rfl⟩ := map_eq_some_iff.mp hs
    refine downloads_server .deliver hoffered h trivial ?_ rfl rfl rfl
    simp only [Download.step, Download.deliver, down, hf]
    rw [hr]
    rfl

theorem deliverControl_downloads (hr : l.server.Ready)
    (h : Downloads windows window l) (hs : l.deliverControl windows = some next) : Downloads windows window next := by
  have hsame : ∀ rest, Downloads windows window { l with control := rest } :=
    fun _ => { h with }
  unfold deliverControl at hs
  split at hs
  case h_3 => cases hs
  all_goals next rest _ =>
    refine serverStep_downloads hoffered (hsame rest) hr ?_ hs
    rintro label ⟨⟩
    rfl

theorem agentMoved_downloads {label : EntryLabel (List α)} {credit : ℕ} (he : l.down.Exact windows window)
    (hwindow : l.agent.sendState.sendWindow + l.agent.back.hand List.length + l.sent + credit = window + l.credited)
    (hs : StreamEntry.Spends List.length l.agent moved credit) :
    Downloads windows window (l.agentMoved label moved) := by
  have hspent := hs.window
  have hb := map_bytes_dataFrame moved.data
  refine ⟨?_, hs.status, ?_⟩
  · have hsends := sends_exact hoffered (moved.data.map dataFrame) he (by simp only [down]; omega)
    rw [hb] at hsends
    exact hsends
  · simp only [agentMoved]; omega

theorem agentStep_downloads {label : EntryLabel (List α)}
    (h : Downloads windows window l) (hcredit : label.credit = 0) (hnow : l.agent.present)
    (hstep : l.agentStep bufferSize label = some next) (hp : next.agent.present) : Downloads windows window next := by
  obtain ⟨moved, hm, rfl⟩ := map_eq_some_iff.mp hstep
  have hwindow := h.window
  have hf : l.agent.sendState.sendWindow + label.credit < 2 ^ 32 := by
    have ht := h.exact.respected.total
    have hbound := hoffered.fits
    simp only [down] at ht
    omega
  have hs := StreamEntry.step_spends hm h.status hf hnow hp
  exact agentMoved_downloads hoffered h.exact (by omega) hs

theorem credit_downloads (h : Downloads windows window l)
    (hnow : l.agent.present) (hs : l.credit bufferSize = some next) (hp : next.agent.present) :
    Downloads windows window next := by
  unfold credit at hs
  split at hs
  · cases hs
  · next update rest ho =>
    obtain ⟨moved, hm, rfl⟩ := map_eq_some_iff.mp hs
    have hwindow := h.window
    have hc : l.down.step windows .credit = some
        { l.down with server := { l.server.reading with outbox := rest }, credited := l.credited + update } := by
      simp only [Download.step, Download.credit, down, ho]
    have hr : l.down.Respects window .credit := trivial
    have he := Download.step_exact hoffered h.exact hr hc
    have hf : l.agent.sendState.sendWindow + update < 2 ^ 32 := by
      have ht := he.respected.total
      have hbound := hoffered.fits
      simp only [down] at ht
      omega
    have hspends : StreamEntry.Spends List.length l.agent moved update :=
      StreamEntry.step_spends hm h.status hf hnow hp
    exact agentMoved_downloads hoffered he (by simp only; omega) hspends

theorem handle_downloads (h : Downloads windows window l)
    (hnow : l.agent.present) (hs : l.handle bufferSize = some next) (hp : next.agent.present) :
    Downloads windows window next := by
  have hsame : ∀ frames, Downloads windows window { l with server := { l.server with frames } } :=
    fun _ => { h with }
  unfold handle at hs
  split at hs
  · next payload rest hf => exact agentStep_downloads hoffered (hsame rest) rfl hnow hs hp
  · next rest hf => exact agentStep_downloads hoffered (hsame rest) rfl hnow hs hp
  · cases hs

end

def controlCredit (l : Link α) : ℕ := (l.control.map Frame.credit).sum

-- The credit of the direction to the Agent. Until a WINDOW_UPDATE is dropped, and
-- while both ends have the stream, none of it is lost.
structure Uploads (l : Link α) : Prop where
  ready : l.server.Ready
  intake : l.agent.present → l.agent.intake.Balanced List.length
  total : l.lost = false → l.server.reading.stream.attached → l.agent.present →
    l.server.credit + l.agent.intake.carried List.length + l.controlCredit = defaultAgentReceiveWindow

theorem uploads_opened (inboundBytes window : ℕ) : Uploads (opened inboundBytes window : Link α) :=
  ⟨Endpoint.ready_opened window, fun _ => Agent.Intake.balanced_opened inboundBytes, fun _ _ _ => rfl⟩

theorem serverStep_uploads {control : List (Frame α)} (toServer : List (Frame α))
    (h : Uploads l) (hc : (control.map Frame.credit).sum + endLabel.credit = l.controlCredit)
    (hstep : serverStep windows { l with toServer, control } endLabel = some next) : Uploads next := by
  obtain ⟨server, hs, rfl⟩ := map_eq_some_iff.mp hstep
  refine ⟨Endpoint.step_ready h.ready hs, h.intake, fun hl ha hp => ?_⟩
  have ht := h.total hl (step_attached h.ready hs ha) hp
  have hwindow : defaultAgentReceiveWindow = 262144 := rfl
  have hf : l.server.sendState.sendWindow + endLabel.credit < 2 ^ 32 := by
    unfold Endpoint.credit at ht
    omega
  have hcredit : server.credit = l.server.credit + endLabel.credit :=
    step_credit h.ready hf hs ha
  simp only [controlCredit] at ht hc ⊢
  omega

theorem deliver_uploads (h : Uploads l) (hs : l.deliver windows = some next) : Uploads next := by
  unfold deliver at hs
  split at hs
  case h_3 => cases hs
  all_goals next rest _ => exact serverStep_uploads rest h rfl hs

theorem deliverControl_uploads (h : Uploads l) (hs : l.deliverControl windows = some next) : Uploads next := by
  unfold deliverControl at hs
  split at hs
  case h_3 => cases hs
  all_goals next hc =>
    refine serverStep_uploads l.toServer h ?_ hs
    rw [controlCredit, hc, map_cons, sum_cons]
    exact Nat.add_comm ..

theorem credit_control (l : Link α) (label : EntryLabel (List α)) (moved : EntryMoved (List α)) :
    (l.agentMoved label moved).controlCredit = l.controlCredit + moved.updates.sum := by
  have hu : (moved.updates.map (Frame.credit ∘ (Frame.windowUpdate (α := α)))).sum = moved.updates.sum := by
    have hid : (Frame.credit ∘ Frame.windowUpdate (α := α)) = id := rfl
    rw [hid, List.map_id]
  have hr : ((if moved.reset then [Frame.reset] else [] : List (Frame α)).map Frame.credit).sum = 0 := by
    split <;> rfl
  simp only [controlCredit, agentMoved, List.map_append, List.sum_append, List.map_map, hu, hr, Nat.add_zero]

theorem agentStep_uploads {label : EntryLabel (List α)} {server : Endpoint α} {credited : ℕ}
    (hstep : agentStep bufferSize { l with server, credited } label = some next) (h : Uploads l)
    (hr : server.Ready) (ha : server.reading.stream.attached = l.server.reading.stream.attached)
    (hbytes : server.credit + label.bytes List.length = l.server.credit) : Uploads next := by
  obtain ⟨moved, hm, rfl⟩ := map_eq_some_iff.mp hstep
  refine ⟨hr, fun hp => ?_, fun hl hs hp => ?_⟩
  · have hnow : l.agent.present := StreamEntry.step_present hm hp
    exact (StreamEntry.step_conserves hm (h.intake hnow) hp).balanced
  · have hnow : l.agent.present := StreamEntry.step_present hm hp
    obtain ⟨hb, hk⟩ : l.lost = false ∧ l.agent.losesUpdate label = false := by
      simpa [agentMoved] using hl
    have hc := (StreamEntry.step_conserves hm (h.intake hnow) hp).carried hk
    have ht := h.total hb (ha.symm.trans hs) hnow
    rw [credit_control]
    simp only [agentMoved, controlCredit] at ht hc ⊢
    omega

theorem credit_uploads (h : Uploads l) (hs : l.credit bufferSize = some next) : Uploads next := by
  unfold credit at hs
  split at hs
  · cases hs
  · exact agentStep_uploads hs h ⟨h.ready.status, h.ready.within⟩ rfl rfl

theorem handle_uploads (h : Uploads l) (hs : l.handle bufferSize = some next) : Uploads next := by
  unfold handle at hs
  split at hs
  case h_3 => cases hs
  all_goals next hf =>
    refine agentStep_uploads hs h ⟨h.ready.status, h.ready.within⟩ rfl ?_
    simp only [Endpoint.credit, frameBytes, hf, map_cons, sum_cons, bytes, EntryLabel.bytes]
    omega

theorem own_credit {label : ReadLabel α} (h : label.own) : label.credit = 0 := by
  cases label with
  | frame f => cases h
  | _ => rfl

theorem own_bytes {label : EntryLabel (List α)} (h : label.own) : label.bytes List.length = 0 ∧ label.credit = 0 := by
  cases label with
  | data | windowUpdate => cases h
  | _ => exact ⟨rfl, rfl⟩

theorem step_uploads (h : Uploads l) (hs : l.step windows bufferSize label = some next) : Uploads next := by
  cases label with
  | server label =>
    simp only [step, ite_none_right_eq_some] at hs
    refine serverStep_uploads l.toServer h ?_ hs.2
    rw [EndpointLabel.credit, own_credit hs.1]
    rfl
  | write | writer => exact serverStep_uploads l.toServer h rfl hs
  | deliver => exact deliver_uploads h hs
  | control => exact deliverControl_uploads h hs
  | credit => exact credit_uploads h hs
  | handle => exact handle_uploads h hs
  | agent label =>
    simp only [step, ite_none_right_eq_some] at hs
    refine agentStep_uploads hs.2 h h.ready rfl ?_
    rw [(own_bytes hs.1).1]
    rfl

theorem step_present (hstep : l.step windows bufferSize label = some next) (h : next.agent.present) :
    l.agent.present := by
  have ha : ∀ {before : Link α} {entryLabel : EntryLabel (List α)},
      before.agentStep bufferSize entryLabel = some next → before.agent = l.agent → l.agent.present := by
    intro before entryLabel hm hsame
    obtain ⟨moved, hmove, rfl⟩ := map_eq_some_iff.mp hm
    exact hsame ▸ StreamEntry.step_present hmove h
  have hs : ∀ {before : Link α} {endLabel : EndpointLabel α},
      before.serverStep windows endLabel = some next → before.agent = l.agent → l.agent.present := by
    intro before endLabel hm hsame
    obtain ⟨server, -, rfl⟩ := map_eq_some_iff.mp hm
    exact hsame ▸ h
  cases label with
  | server label => simp only [step, ite_none_right_eq_some] at hstep; exact hs hstep.2 rfl
  | write | writer => exact hs hstep rfl
  | deliver =>
    have hd : l.deliver windows = some next := hstep
    unfold deliver at hd
    split at hd
    · exact hs hd rfl
    · exact hs hd rfl
    · cases hd
  | control =>
    have hc : l.deliverControl windows = some next := hstep
    unfold deliverControl at hc
    split at hc
    · exact hs hc rfl
    · exact hs hc rfl
    · cases hc
  | credit =>
    have hcredit : l.credit bufferSize = some next := hstep
    unfold credit at hcredit
    split at hcredit
    · cases hcredit
    · exact ha hcredit rfl
  | handle =>
    have hh : l.handle bufferSize = some next := hstep
    unfold handle at hh
    split at hh
    · exact ha hh rfl
    · exact ha hh rfl
    · cases hh
  | agent label => simp only [step, ite_none_right_eq_some] at hstep; exact ha hstep.2 rfl

structure Flowing (windows : AgentRelayWindowConfig) (window : ℕ) (l : Link α) : Prop where
  uploads : Uploads l
  downloads : l.agent.present → Downloads windows window l

theorem flowing_opened (windows : AgentRelayWindowConfig) (requested inboundBytes : ℕ) :
    Flowing windows (windows.windowFor requested) (opened inboundBytes (windows.windowFor requested) : Link α) :=
  ⟨uploads_opened .., fun _ => downloads_opened windows requested inboundBytes⟩

theorem step_flowing (hoffered : Offered window) (h : Flowing windows window l)
    (hs : l.step windows bufferSize label = some next) : Flowing windows window next := by
  refine ⟨step_uploads h.uploads hs, fun hp => ?_⟩
  have hnow := step_present hs hp
  have hd := h.downloads hnow
  have hr := h.uploads.ready
  cases label with
  | server label =>
    simp only [step, ite_none_right_eq_some] at hs
    refine serverStep_downloads hoffered hd hr ?_ hs.2
    rintro readLabel ⟨⟩
    exact ReadLabel.free_of_own hs.1
  | write | writer => refine serverStep_downloads hoffered hd hr ?_ hs; rintro readLabel ⟨⟩
  | deliver => exact deliver_downloads hoffered hd hs
  | control => exact deliverControl_downloads hoffered hr hd hs
  | credit => exact credit_downloads hoffered hd hnow hs hp
  | handle => exact handle_downloads hoffered hd hnow hs hp
  | agent label =>
    simp only [step, ite_none_right_eq_some] at hs
    exact agentStep_downloads hoffered hd (own_bytes hs.1).2 hnow hs.2 hp

theorem always_flowing (windows : AgentRelayWindowConfig) (requested inboundBytes bufferSize : ℕ)
    (labels : List (LinkLabel α)) : Always (step windows bufferSize) (Flowing windows (windows.windowFor requested))
      (opened inboundBytes (windows.windowFor requested)) labels :=
  always_of_step
    (fun _ _ _ h hs => step_flowing (offered_windowFor windows requested) h hs) _ labels
    (flowing_opened windows requested inboundBytes)

-- No credit comes from nowhere, and only a dropped WINDOW_UPDATE loses any.
theorem link_credit_conserved (windows : AgentRelayWindowConfig) (requested inboundBytes bufferSize : ℕ)
    (labels : List (LinkLabel α)) : Always (step windows bufferSize) (fun l => l.agent.present →
      l.agent.sendState.sendWindow + l.agent.back.hand List.length + l.sent = windows.windowFor requested + l.credited ∧
      (l.lost = false → l.server.reading.stream.attached →
        l.server.credit + l.agent.intake.carried List.length + l.controlCredit = defaultAgentReceiveWindow))
      (opened inboundBytes (windows.windowFor requested)) labels :=
  (always_flowing windows requested inboundBytes bufferSize labels).mono fun _ h hp =>
    ⟨(h.downloads hp).window, fun hl ha => h.uploads.total hl ha hp⟩

end Link

end TunnelMesh.Relay
