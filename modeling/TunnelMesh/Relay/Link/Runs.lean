import Mathlib.Data.List.Induction
import TunnelMesh.Relay.Link

namespace TunnelMesh.Relay

open Protocol Transition List Option
open Agent (StreamEntry EntryLabel)

variable {α : Type}

theorem AgentRelayStream.enqueue_room {s : AgentRelayStream α} (hhalf : s.remoteHalf = false)
    (herr : s.err = none) (hpos : s.readPos = 0) (hroom : s.readBuf.length + payload.length ≤ s.budget)
    (hp : payload.length ≠ 0) :
    s.enqueue payload = ({ s with readBuf := s.readBuf ++ payload, dataSignal := true }, .ok ()) := by
  have hc : s.compact = s := by rw [compact, if_neg (by omega)]
  have hh : ¬ s.remoteHalf = true := by simp [hhalf]
  have hr : ¬ s.budget < s.readBuf.length + payload.length := by omega
  simp only [enqueue, if_neg hh, herr, hc, if_neg hr, if_neg hp]

namespace Link

def sendLabels (payload : List α) : List (LinkLabel α) :=
  [.agent (.target payload false), .agent (.back .ok), .agent (.back .ok)]

theorem run_send (hb : l.agent.back = .reading) (hs : l.agent.sendState.status = .opened)
    (hp : 0 < payload.length ∧ payload.length ≤ bufferSize)
    (hcredit : payload.length ≤ l.agent.sendState.sendWindow) :
    run (step windows bufferSize) l (sendLabels payload) = some
      { l with
        agent := { l.agent with
          sendState := { l.agent.sendState with sendWindow := l.agent.sendState.sendWindow - payload.length } }
        toServer := l.toServer ++ [.data payload]
        sent := l.sent + payload.length } := by
  have hc := StreamState.consumeSend_of_opened (n := payload.length) hs
  rw [if_neg (by omega)] at hc
  simp [sendLabels, run, step, EntryLabel.own, agentStep, StreamEntry.step, hb, Agent.Back.isReading,
    hp, agentMoved, StreamEntry.quietly, StreamEntry.losesUpdate, StreamEntry.readBack,
    StreamEntry.waitForSendWindow, hc, dataFrame, Agent.frameSize]

theorem step_deliver (hf : l.toServer = .data payload :: rest)
    (hh : l.server.reading.handler = none) (ha : l.server.reading.stream.attached) (he : l.server.reading.stream.enqueue payload = (stream, .ok ())) :
    step windows bufferSize l .deliver = some
      { l with
        toServer := rest
        server := { l.server with
          reading := { l.server.reading with stream, accepted := l.server.reading.accepted ++ [payload] } } } := by
  simp [step, deliver, hf, serverStep, Endpoint.step, Reading.step, Reading.frame, hh, ha,
    Reading.dispatch, he, Endpoint.credited, Endpoint.closing]

def piled (inboundBytes window : ℕ) (signal : Bool) (payloads : List (List α)) : Link α :=
  { server := { (Endpoint.opened window : Endpoint α) with
      reading := { (Reading.opened window : Reading α) with
        stream := { (AgentRelayStream.opened window : AgentRelayStream α) with
          readBuf := payloads.flatten
          dataSignal := signal }
        accepted := payloads } }
    toServer := []
    control := []
    agent := { (StreamEntry.opened inboundBytes window : StreamEntry (List α)) with
      sendState := ⟨.opened, window - payloads.flatten.length, window⟩ }
    sent := payloads.flatten.length
    credited := 0
    lost := false }

def pileLabels (payloads : List (List α)) : List (LinkLabel α) :=
  payloads.flatMap fun payload => sendLabels payload ++ [.deliver]

variable {payloads : List (List α)}

theorem piled_opened (hwindow : 0 < window) : piled inboundBytes window false ([] : List (List α)) =
    opened inboundBytes window := by
  have hs : ¬ window = 0 := by omega
  simp [piled, opened, Endpoint.opened, Reading.opened, AgentRelayStream.opened, StreamEntry.opened, openedState,
    newStreamState, hs]

theorem run_piled_round (hp : 0 < payload.length ∧ payload.length ≤ bufferSize)
    (hr : payloads.flatten.length + payload.length ≤ window) :
    run (step windows bufferSize) (piled inboundBytes window signal payloads)
        (sendLabels payload ++ [.deliver]) = some (piled inboundBytes window true (payloads ++ [payload])) := by
  have hb : (AgentRelayStream.opened window : AgentRelayStream α).budget = window := by
    rw [AgentRelayStream.budget, AgentRelayStream.opened, if_neg (by simp only; omega)]
  have hsum : (payloads ++ [payload]).flatten.length = payloads.flatten.length + payload.length := by simp
  rw [run_append, run_send rfl rfl hp (by simp only [piled]; omega), bind_some,
    run, step_deliver rfl rfl rfl (AgentRelayStream.enqueue_room rfl rfl rfl (by
      exact hr.trans hb.ge) (by omega)), bind_some, run]
  simp only [piled, hsum, Nat.sub_sub]
  rw [flatten_append, flatten_singleton]

theorem run_pile (hpayloads : ∀ payload ∈ payloads, 0 < payload.length ∧ payload.length ≤ bufferSize)
    (hr : payloads.flatten.length ≤ window) :
    ∃ signal, run (step windows bufferSize) (piled inboundBytes window false []) (pileLabels payloads) =
      some (piled inboundBytes window signal payloads) := by
  induction payloads using List.reverseRecOn with
  | nil => exact ⟨false, rfl⟩
  | append_singleton payloads payload ih =>
    rw [flatten_append, flatten_singleton, length_append] at hr
    obtain ⟨signal, hrun⟩ := ih (fun p hp => hpayloads p (mem_append_left _ hp)) (by omega)
    refine ⟨true, ?_⟩
    have hl : pileLabels (payloads ++ [payload]) = pileLabels payloads ++ (sendLabels payload ++ [.deliver]) := by
      simp only [pileLabels, flatMap_append, flatMap_singleton]
    rw [hl, run_append, hrun, bind_some]
    exact run_piled_round (hpayloads payload (by simp)) hr

def endLabels (size : ℕ) : List (LinkLabel α) :=
  [.agent .targetEnd, .agent (.back .ok), .deliver, .server .publish, .server (.read size),
    .server (.advance .data), .server (.advance .data)]

def ended (inboundBytes window : ℕ) (signal : Bool) (payloads : List (List α)) : Link α :=
  { (piled inboundBytes window signal payloads) with
    server := { (Endpoint.opened window : Endpoint α) with
      reading := { (Reading.opened window : Reading α) with
        stream := { (AgentRelayStream.opened window : AgentRelayStream α) with
          err := some .eof
          remoteHalf := true
          dataSignal := signal
          done := true }
        accepted := payloads
        results := [(payloads.flatten, none)] } }
    agent := { (StreamEntry.opened inboundBytes window : StreamEntry (List α)) with
      sendState := ⟨.opened, window - payloads.flatten.length, window⟩
      remoteHalf := true
      back := .stopped } }

theorem run_end (hn : 0 < payloads.flatten.length) :
    run (step windows bufferSize) (piled inboundBytes window signal payloads)
      (endLabels payloads.flatten.length) = some (ended inboundBytes window signal payloads) := by
  have hs : ¬ payloads.flatten.length = 0 := by omega
  generalize hb : payloads.flatten = bytes at hn hs
  simp [endLabels, run, step, piled, agentStep, StreamEntry.step, StreamEntry.opened, EntryLabel.own,
    agentMoved, StreamEntry.quietly, StreamEntry.losesUpdate, StreamEntry.readBack, Agent.Back.isReading,
    StreamEntry.endOfFile, deliver, dataFrame, serverStep, Endpoint.step, Reading.step, Reading.frame, Reading.opened,
    Endpoint.opened, AgentRelayStream.opened, Reading.dispatch, Endpoint.credited, Endpoint.closing, ReadLabel.own,
    Reading.publish, AgentRelayStream.finish, Reading.read, hs, Reading.advance, Reader.move, hn,
    AgentRelayStream.unread, AgentRelayStream.take, AgentRelayStream.releaseReceiveWindow, Agent.frameSize, ended,
    hb]

end Link
end TunnelMesh.Relay
