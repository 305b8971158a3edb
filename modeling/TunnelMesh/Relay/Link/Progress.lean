import TunnelMesh.Relay.Link.Runs
import TunnelMesh.Relay.Link.Theorems

namespace TunnelMesh.Relay

open Protocol List Transition AgentRelayWindowConfig
open Agent (StreamEntry EntryLabel EntryMoved)

variable {α : Type}

namespace Link

variable {bufferSize window : ℕ}

structure Settled (l : Link α) : Prop where
  fromAgent : l.toServer = [] ∧ l.agent.back.hand length = 0
  read : l.server.reading.stream.unread = [] ∧ l.server.reading.reader.bare
  updates : l.server.reading.outbox = [] ∧ l.control = []
  fromServer : l.server.frames = [] ∧ l.server.writer.hand = 0
  written : l.agent.intake.inbound.frames = [] ∧ l.agent.intake.pump.hand length = 0 ∧ l.agent.intake.pump.posted = 0

theorem Downloads.settled (h : Downloads windows window l) (hs : l.Settled) (hl : l.server.reading.Live) :
    l.agent.sendState.sendWindow + l.server.reading.stream.receiveUnacked = window := by
  have he := h.exact.exact hl
  have hw := h.window
  rw [hs.fromAgent.2] at hw
  simp only [down, Download.inflightBytes, Reading.held, hs.fromAgent.1, hs.read.1,
    Reader.owed_of_bare hs.read.2, hs.updates.1, map_nil, sum_nil, length_nil] at he
  omega

theorem Uploads.settled (h : Uploads l) (hs : l.Settled) (hl : l.lost = false)
    (ha : l.server.reading.stream.attached) (hp : l.agent.present) :
    l.server.sendState.sendWindow + l.agent.intake.receiveUnacked = defaultAgentReceiveWindow := by
  have ht := h.total hl ha hp
  have hq : l.agent.intake.inbound.bytes (Agent.frameSize length) = 0 := by
    rw [Session.FrameQueue.bytes, hs.written.1]
    rfl
  simp only [Endpoint.credit, Endpoint.frameBytes, hs.fromServer.1, hs.fromServer.2, Agent.Intake.carried,
    Agent.Intake.pending, hq, hs.written.2.1, hs.written.2.2, controlCredit, hs.updates.2,
    map_nil, sum_nil] at ht
  omega

-- Unless a control frame was lost, a settled stream has room for a whole frame:
-- at the Agent as long as the Server has not seen an end or a failure, and at
-- the Server as long as its transport has the stream.
def Unblocked (l : Link α) : Prop :=
  l.lost = false → l.Settled → l.agent.present →
    (l.server.reading.Live → maxStreamFrame ≤ l.agent.sendState.sendWindow) ∧
      (l.server.reading.stream.attached → maxStreamFrame ≤ l.server.sendState.sendWindow)

theorem Flowing.unblocked (h : Flowing windows (windows.windowFor requested) l) : l.Unblocked := by
  intro hl hs hp
  refine ⟨fun hlive => ?_, fun ha => ?_⟩
  · have hd := h.downloads hp
    have hw := hd.settled hs hlive
    have hr : l.server.reading.stream.receiveUnacked < windows.thresholdFor (windows.windowFor requested) :=
      hd.exact.residue
    have hbounds := windows.thresholdFor_windowFor requested
    omega
  · have hw := h.uploads.settled hs hl ha hp
    have hr := (h.uploads.intake hp).residue
    have hroom : defaultWindowUpdateThreshold + maxStreamFrame ≤ defaultAgentReceiveWindow := by decide
    omega

theorem credit_never_deadlocks (windows : AgentRelayWindowConfig) (requested inboundBytes bufferSize : ℕ)
    (labels : List (LinkLabel α)) :
    Always (step windows bufferSize) Unblocked (opened inboundBytes (windows.windowFor requested)) labels := by
  have hflowing := always_flowing windows requested inboundBytes bufferSize labels
  exact hflowing.mono fun l h => h.unblocked

theorem ended_settled (inboundBytes window : ℕ) (signal : Bool) (payloads : List (List α)) :
    (ended inboundBytes window signal payloads).Settled where
  fromAgent := ⟨rfl, rfl⟩
  read := ⟨rfl, rfl⟩
  updates := ⟨rfl, rfl⟩
  fromServer := ⟨rfl, rfl⟩
  written := ⟨rfl, rfl, rfl⟩

theorem frames_of_length (count : ℕ) :
    ∃ payloads : List (List ℕ), (∀ payload ∈ payloads, 0 < payload.length ∧ payload.length ≤ maxStreamFrame) ∧
      payloads.flatten.length = count * maxStreamFrame := by
  refine ⟨replicate count (replicate maxStreamFrame 0), fun payload hmem => ?_, ?_⟩
  · rw [eq_of_mem_replicate hmem, length_replicate]; exact ⟨by decide, le_rfl⟩
  · rw [length_flatten, map_replicate, length_replicate, sum_replicate_nat]

-- What the Server reads after the HALF_CLOSE of the Agent is never credited.
theorem half_close_withholds_credit : ∃ (labels : List (LinkLabel ℕ)) (final : Link ℕ),
      run (step ⟨163840, 0⟩ maxStreamFrame) (opened 262144 (AgentRelayWindowConfig.windowFor ⟨163840, 0⟩ 0))
          labels = some final ∧ final.lost = false ∧ final.Settled ∧ final.agent.present ∧
          final.server.reading.stream.attached ∧ final.agent.sendState.sendWindow < maxStreamFrame := by
  have hwindow : AgentRelayWindowConfig.windowFor ⟨163840, 0⟩ 0 = 163840 := by decide
  obtain ⟨payloads, hpayloads, hlength⟩ := frames_of_length 5
  have hpile : ∃ signal, run (step ⟨163840, 0⟩ maxStreamFrame) (piled 262144 163840 false [])
      (pileLabels payloads) = some (piled 262144 163840 signal payloads) :=
    run_pile hpayloads hlength.le
  obtain ⟨signal, hpile⟩ := hpile
  rw [piled_opened (by decide)] at hpile
  refine ⟨pileLabels payloads ++ endLabels payloads.flatten.length, ended 262144 163840 signal payloads, ?_, rfl,
    ended_settled 262144 163840 signal payloads, rfl, rfl, ?_⟩
  · rw [hwindow, run_append, hpile, Option.bind_some, run_end (by rw [hlength]; decide)]
  · simp only [ended, hlength]; decide

end Link

end TunnelMesh.Relay
