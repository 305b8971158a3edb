import TunnelMesh.Relay.Link.Progress

namespace TunnelMesh.Relay

open Protocol Transition Option
open Agent (StreamEntry)

variable {α : Type}

namespace Link

variable {b : α}

-- The stream after `count` datagrams of one byte, each of which was read before
-- the next was sent, while no credit was due.
def dripped (inboundBytes window : ℕ) (signal : Bool) (b : α) (count : ℕ) : Link α :=
  { server := { (Endpoint.opened window : Endpoint α) with
      reading := { (Reading.opened window : Reading α) with
        stream := { (AgentRelayStream.opened window : AgentRelayStream α) with
          receiveUnacked := count
          dataSignal := signal }
        accepted := List.replicate count [b]
        results := List.replicate count ([b], none) } }
    toServer := []
    control := []
    agent := { (StreamEntry.opened inboundBytes window : StreamEntry (List α)) with
      sendState := ⟨.opened, window - count, window⟩ }
    sent := count
    credited := 0
    lost := false }

def dripLabels (b : α) : List (LinkLabel α) :=
  sendLabels [b] ++ [.deliver, .server (.read 1), .server (.advance .data), .server (.advance .data)]

theorem dripped_opened (hwindow : 0 < window) : dripped inboundBytes window false b 0 = opened inboundBytes window := by
  have hs : ¬ window = 0 := by omega
  simp [dripped, opened, Endpoint.opened, Reading.opened, AgentRelayStream.opened, StreamEntry.opened, openedState,
    newStreamState, hs]

theorem dripped_settled (count : ℕ) : (dripped inboundBytes window signal b count).Settled where
  fromAgent := ⟨rfl, rfl⟩
  read := ⟨rfl, rfl⟩
  updates := ⟨rfl, rfl⟩
  fromServer := ⟨rfl, rfl⟩
  written := ⟨rfl, rfl, rfl⟩

theorem released_below {s : AgentRelayStream α} (herr : s.err = none) (he : s.unread = [])
    (hw : maxStreamFrame ≤ s.receiveBudget ∧ s.receiveBudget < 2 ^ 32)
    (hbelow : s.receiveUnacked + 1 < windows.thresholdFor s.receiveBudget) (hf : s.receiveUnacked + 1 < 2 ^ 32) :
    s.releaseReceiveWindow windows 1 = ({ s with receiveUnacked := s.receiveUnacked + 1 }, 0) := by
  have hu : uint32 (s.receiveUnacked + uint32 1) = s.receiveUnacked + 1 := uint32_of_lt hf
  have hr : uint32 (s.receiveBudget - s.unread.length) = s.receiveBudget := by
    rw [he, List.length_nil, Nat.sub_zero, uint32_of_lt hw.2]
  have hk : ¬ shouldFlushWindowUpdate s.receiveBudget (s.receiveUnacked + 1)
      (windows.thresholdFor s.receiveBudget) := by
    rw [shouldFlushWindowUpdate_iff]
    omega
  simp only [AgentRelayStream.releaseReceiveWindow, herr, hu, hr, uint32_of_lt hw.2, if_neg hk]
  simp

theorem run_drip (hb : 0 < bufferSize) (hw : maxStreamFrame ≤ window ∧ window < 2 ^ 32)
    (hbelow : count + 1 < windows.thresholdFor window) (hcredit : count < window) :
    run (step windows bufferSize) (dripped inboundBytes window signal b count) (dripLabels b) =
      some (dripped inboundBytes window true b (count + 1)) := by
  have hbudget : (AgentRelayStream.opened window : AgentRelayStream α).budget = window := by
    rw [AgentRelayStream.budget, AgentRelayStream.opened, if_neg (by unfold maxStreamFrame at hw; simp only; omega)]
  have hroom : 0 + 1 ≤ (AgentRelayStream.opened window : AgentRelayStream α).budget := by omega
  have hp : 0 < [b].length ∧ [b].length ≤ bufferSize := ⟨Nat.one_pos, hb⟩
  have hwindow' : [b].length ≤ window - count := by rw [List.length_singleton]; omega
  rw [dripLabels, run_append, run_send rfl rfl hp hwindow', bind_some, run,
    step_deliver rfl rfl rfl (AgentRelayStream.enqueue_room rfl rfl rfl (by exact hroom)
      (by exact Nat.one_ne_zero)), bind_some]
  have hf : count + 1 < 2 ^ 32 := by omega
  have hr : ({ (AgentRelayStream.opened window : AgentRelayStream α) with
      receiveUnacked := count
      dataSignal := true }).releaseReceiveWindow windows 1 = ({ (AgentRelayStream.opened window) with
        receiveUnacked := count + 1
        dataSignal := true }, 0) := released_below rfl rfl hw hbelow hf
  simp only [AgentRelayStream.opened] at hr
  simp [run, step, ReadLabel.own, serverStep, Endpoint.step, Reading.step, Reading.read, Reading.advance,
    Reader.move, AgentRelayStream.unread, AgentRelayStream.take, Endpoint.credited, Endpoint.closing, dripped,
    Endpoint.opened, Reading.opened, AgentRelayStream.opened, hr, List.replicate_succ', Nat.sub_sub]

theorem run_drips (hb : 0 < bufferSize) (hw : maxStreamFrame ≤ window ∧ window < 2 ^ 32) (count : ℕ)
    (hbelow : count < windows.thresholdFor window) (hcredit : count ≤ window) :
    ∃ labels signal, run (step windows bufferSize) (dripped inboundBytes window false b 0) labels =
      some (dripped inboundBytes window signal b count) := by
  induction count with
  | zero => exact ⟨[], false, rfl⟩
  | succ count ih =>
    obtain ⟨labels, signal, hrun⟩ := ih (by omega) (by omega)
    refine ⟨labels ++ dripLabels b, true, ?_⟩
    rw [run_append, hrun, bind_some]
    exact run_drip hb hw hbelow (by omega)

def maxDatagram : ℕ := 65507

-- In every settled state of a stream that has not ended, every datagram has the
-- credit that it needs.
def DatagramsPass (α : Type) (windows : AgentRelayWindowConfig) (inboundBytes window : ℕ) : Prop :=
  ∀ (labels : List (LinkLabel α)) (final : Link α),
    run (step windows maxPayload) (opened inboundBytes window) labels = some final → final.Settled →
      final.agent.present → final.server.reading.Live →
        ∀ n, 1 ≤ n → n ≤ maxDatagram → n ≤ final.agent.sendState.sendWindow

theorem credit_kept_back [Inhabited α] (windows : AgentRelayWindowConfig) (requested inboundBytes : ℕ)
    (hp : DatagramsPass α windows inboundBytes (windows.windowFor requested)) :
    windows.thresholdFor (windows.windowFor requested) + maxDatagram ≤ windows.windowFor requested + 1 := by
  have ho := Download.offered_windowFor windows requested
  have hbounds := windows.thresholdFor_windowFor requested
  have hd : ∃ labels signal,
      run (step windows maxPayload) (dripped inboundBytes (windows.windowFor requested) false default 0)
        labels = some (dripped inboundBytes (windows.windowFor requested) signal (default : α)
          (windows.thresholdFor (windows.windowFor requested) - 1)) :=
    run_drips (by decide) ⟨by omega, ho.fits⟩ _ (by omega) (by omega)
  obtain ⟨labels, signal, hrun⟩ := hd
  rw [dripped_opened ho.pos] at hrun
  have hlongest : maxDatagram ≤
      windows.windowFor requested - (windows.thresholdFor (windows.windowFor requested) - 1) :=
    hp labels _ hrun (dripped_settled _) rfl ⟨rfl, rfl⟩ maxDatagram (by decide) le_rfl
  omega

theorem datagrams_pass_iff [Inhabited α] (windows : AgentRelayWindowConfig) (requested inboundBytes : ℕ) :
    DatagramsPass α windows inboundBytes (windows.windowFor requested) ↔
      windows.thresholdFor (windows.windowFor requested) + maxDatagram ≤ windows.windowFor requested + 1 := by
  constructor
  · exact credit_kept_back windows requested inboundBytes
  · intro hroom labels final hrun hsettled hpresent hlive n _ hn
    have hflowing := (always_flowing windows requested inboundBytes maxPayload labels).run hrun
    have hdownloads := hflowing.downloads hpresent
    have hwindow := hdownloads.settled hsettled hlive
    have hresidue : final.server.reading.stream.receiveUnacked <
        windows.thresholdFor (windows.windowFor requested) := hdownloads.exact.residue
    omega

-- A window that just has room for one frame above the default threshold.
theorem narrow_window_stalls_datagrams :
    ¬ DatagramsPass ℕ ⟨163840, 0⟩ 262144 (AgentRelayWindowConfig.windowFor ⟨163840, 0⟩ 0) := by
  intro hpass
  have hroom := credit_kept_back ⟨163840, 0⟩ 0 262144 hpass
  revert hroom
  decide

end Link

end TunnelMesh.Relay
