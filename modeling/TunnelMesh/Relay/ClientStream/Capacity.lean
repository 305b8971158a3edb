import TunnelMesh.Relay.ClientStream.Theorems

namespace TunnelMesh.Relay

open Protocol Session FrameQueue Transition ClientLabel RelayLoop Option List ClientRelayStream
open Agent (Outcome frameSize)

variable {π : Type} {size : π → ℕ}

def relayBuffer (udp : Bool) : ℕ := if udp then maxPayload else 32768

def RelayLoop.reserved : RelayLoop → ℕ
  | .sending n => n
  | _ => 0

def RelayLoop.inHand : RelayLoop → Option ℕ
  | .consuming n | .sending n => some n
  | _ => none

def ClientRelayStream.drains (s : ClientRelayStream π) : ClientLabel π → ℕ
  | .drain => (s.outbound.pop).elim 0 fun popped => frameSize id popped.1
  | _ => 0

def ClientLabel.credit : ClientLabel π → ℕ
  | .windowUpdate credit => credit
  | _ => 0

structure Lent (π : Type) where
  stream : ClientRelayStream π
  sent : ℕ
  returned : ℕ

namespace Lent

def opened (window : ℕ) : Lent π := ⟨.opened window, 0, 0⟩

def step (size : π → ℕ) (bufferSize : ℕ) (l : Lent π) (label : ClientLabel π) : Option (Lent π) :=
  (l.stream.step size bufferSize label).map fun stream =>
    ⟨stream, l.sent + l.stream.drains label, l.returned + label.credit⟩

def Honest (l : Lent π) (label : ClientLabel π) : Prop := l.returned + label.credit ≤ l.sent

def Takes (l : Lent π) : Prop :=
  ∀ n, l.stream.present → l.stream.relay = .sending n → l.stream.outbound.closed = false →
    (l.stream.outbound.tryPush (frameSize id) (some n)).isSome

structure Held (window : ℕ) (l : Lent π) : Prop where
  credit : ∃ sendState, l.stream.sendState = some sendState ∧
    sendState.sendWindow + l.stream.relay.reserved + l.stream.outbound.bytes (frameSize id) + l.sent ≤
      window + l.returned
  returned : l.returned ≤ l.sent
  filled : l.stream.relay ≠ .returned → ∀ frame ∈ l.stream.outbound.frames, 0 < frameSize id frame
  inHand : ∀ n ∈ l.stream.relay.inHand, 0 < n
  bound : l.stream.outbound.maxBytes = streamQueueBytes

variable {l : Lent π} {next : ClientRelayStream π} {label : ClientLabel π}

theorem held_opened (hw : 0 < window) : Held window (opened window : Lent π) where
  credit := by
    refine ⟨openedState window, by simp [opened, ClientRelayStream.opened, hw], ?_⟩
    have hs := (openedState_window (by omega : window ≠ 0)).1
    simp [opened, ClientRelayStream.opened, reserved, bytes, empty, hs]
  returned := le_rfl
  filled := fun _ _ hf => absurd hf not_mem_nil
  inHand := nofun
  bound := by simp [opened, ClientRelayStream.opened, empty, streamQueueBytes]

section

variable (h : Held window l)

include h

theorem takes_of_held (hwindow : window ≤ streamQueueBytes) : l.Takes := by
  intro n _ hr ho
  obtain ⟨sendState, -, hsum⟩ := h.credit
  rw [hr] at hsum
  have hn : 0 < frameSize id (some n) := h.inHand n (by rw [hr]; rfl)
  have hreturned := h.returned
  have hroom : l.stream.outbound.bytes (frameSize id) + frameSize id (some n) ≤ l.stream.outbound.maxBytes := by
    rw [h.bound]
    simp only [reserved] at hsum
    simp only [frameSize, elim_some, id]
    omega
  rw [tryPush_of_room ho (h.filled (by rw [hr]; nofun)) hn hroom]
  rfl

theorem Held.aside (hc : l.returned + label.credit ≤ l.sent)
    (hs : next.sendState = l.stream.sendState) (hq : next.outbound = l.stream.outbound)
    (hreserved : next.relay.reserved ≤ l.stream.relay.reserved)
    (hr : next.relay ≠ .returned → l.stream.relay ≠ .returned) (hi : ∀ n ∈ next.relay.inHand, 0 < n) :
    Held window ⟨next, l.sent, l.returned + label.credit⟩ := by
  obtain ⟨sendState, hsome, hsum⟩ := h.credit
  refine ⟨⟨sendState, hs.trans hsome, ?_⟩, hc, fun hl => ?_, hi, by rw [hq]; exact h.bound⟩
  · simp only [hq]; omega
  · rw [hq]; exact h.filled (hr hl)

theorem Held.beside (hc : l.returned + label.credit ≤ l.sent)
    (hn : l.stream.Beside next) : Held window ⟨next, l.sent, l.returned + label.credit⟩ := by
  refine h.aside hc hn.sendState hn.outbound (by rw [hn.relay]) ?_ ?_
  · rw [hn.relay]; exact id
  · rw [hn.relay]; exact h.inHand

theorem relay_held (he : l.stream.RelayEffect bufferSize next) : Held window ⟨next, l.sent, l.returned⟩ := by
  have hc : l.returned + (relay .ok : ClientLabel π).credit ≤ l.sent := h.returned
  obtain ⟨sendState, hs, hsum⟩ := h.credit
  have hf : ∀ {stage : RelayLoop}, l.stream.relay = stage → stage ≠ .returned →
      ∀ frame ∈ l.stream.outbound.frames, 0 < frameSize id frame :=
    fun hr hl => h.filled (by rw [hr]; exact hl)
  cases he with
  | took hr | looked hr | forwarded hr | limited hr =>
    exact h.aside hc rfl rfl (by rw [hr]; rfl) (fun _ => by rw [hr]; nofun) nofun
  | @consumed n after hr _ hsome =>
    -- What leaves the window is reserved.
    obtain ⟨hle, rfl⟩ := hsome sendState hs
    refine ⟨⟨_, rfl, ?_⟩, h.returned, fun _ => hf hr nofun, ?_, h.bound⟩
    · simp only [reserved] at hsum ⊢; omega
    · rintro m hm
      cases hm
      exact h.inHand n (by rw [hr]; rfl)
  | @enqueued n outbound hr hp =>
    -- What was reserved is queued.
    have hb := bytes_tryPush hp
    have hq := tryPush_eq_some hp
    refine ⟨⟨sendState, hs, ?_⟩, h.returned, fun _ frame hframe => ?_, nofun, by rw [hq]; exact h.bound⟩
    · rw [hr] at hsum
      simp only [reserved, hb, frameSize, elim_some, id] at hsum ⊢
      omega
    · rw [hq] at hframe
      rcases mem_append.mp hframe with hold | hnew
      · exact hf hr nofun frame hold
      · rw [mem_singleton.mp hnew]; exact h.inHand n (by rw [hr]; rfl)
  | finished hsame _ ho hr =>
    obtain ⟨hb, hmax, -⟩ := outbound_of_finished ho
    refine ⟨⟨sendState, hsame.trans hs, ?_⟩, h.returned, fun hl => absurd hr hl, ?_, hmax.trans h.bound⟩
    · simp only [hr, reserved, hb]; omega
    · rw [hr]; nofun

theorem drain_held (hpop : l.stream.outbound.pop = some popped) :
    Held window ⟨{ l.stream with outbound := popped.2 }, l.sent + frameSize id popped.1, l.returned⟩ := by
  obtain ⟨sendState, hs, hsum⟩ := h.credit
  obtain ⟨frame, outbound⟩ := popped
  obtain ⟨hf, hq⟩ := pop_eq_some hpop
  have hbytes : l.stream.outbound.bytes (frameSize id) = frameSize id frame + outbound.bytes (frameSize id) :=
    bytes_pop hpop
  have hreturned := h.returned
  refine ⟨⟨sendState, hs, ?_⟩, by simp only; omega, fun hl other ho => ?_, h.inHand, ?_⟩
  · simp only; omega
  · exact h.filled hl other (by rw [hf]; exact mem_cons_of_mem _ ho)
  · rw [hq]; exact h.bound

theorem step_held {next : Lent π} (hh : l.Honest label)
    (hstep : l.step size bufferSize label = some next) : Held window next := by
  obtain ⟨stream, hs, rfl⟩ := map_eq_some_iff.mp hstep
  cases label with
  | windowUpdate credit =>
    simp only [ClientRelayStream.step, ite_none_left_eq_some] at hs
    cases hs.2
    rcases ClientRelayStream.handleWindowUpdate_effect l.stream credit with hb | ⟨sendState, -, hsend, hsame⟩
    · exact h.beside hh hb
    obtain ⟨before, hbefore, hsum⟩ := h.credit
    obtain rfl : sendState = before := some.inj (hsend.symm.trans hbefore)
    rw [hsame]
    refine { h with credit := ⟨_, rfl, ?_⟩, returned := hh }
    simp only [drains, ClientLabel.credit]
    omega
  | agentCredit credit =>
    cases hs
    split
    · exact h.aside hh rfl rfl le_rfl id h.inHand
    · exact h.aside hh rfl rfl le_rfl id h.inHand
  | relay outcome => exact relay_held h (relayToClient_effect hs)
  | read n =>
    obtain ⟨limit, hr, -, rfl⟩ := readBytes_eq_some hs
    refine h.aside hh rfl rfl ?_ (fun _ => by rw [hr]; rintro ⟨⟩) ?_
    · split <;> exact Nat.zero_le _
    · rintro m hm
      split at hm <;> cases hm
      next hread => omega
  | readEnd failed =>
    obtain ⟨limit, hr, rfl⟩ := readEnd_eq_some hs
    exact h.aside hh rfl rfl (Nat.zero_le _) (fun _ => by rw [hr]; rintro ⟨⟩) (by rintro _ ⟨⟩)
  | drain =>
    obtain ⟨popped, hpop, rfl⟩ := map_eq_some_iff.mp hs
    simp only [drains, hpop, elim_some]
    exact drain_held h hpop
  | closeWriter =>
    cases hs
    obtain ⟨sendState, hsend, hsum⟩ := h.credit
    refine ⟨⟨sendState, hsend, ?_⟩, hh, fun _ _ hf => absurd hf not_mem_nil, h.inHand, h.bound⟩
    simp only [bytes, map_nil, sum_nil, drains, ClientLabel.credit]
    omega
  | _ => exact h.beside hh (step_beside rfl hs)

end

def NeverFull (size : π → ℕ) (bufferSize window : ℕ) : Prop :=
  ∀ labels, Along (step size bufferSize) Honest (opened window) labels →
    Always (step size bufferSize) Takes (opened window) labels

theorem neverFull_of_small (hw : 0 < window) (hsmall : window ≤ streamQueueBytes) :
    NeverFull size bufferSize window := by
  intro labels ha
  have hh := always_of_invariant
    (fun _ _ _ h hg hs => step_held h hg hs) (opened window) labels (held_opened hw) ha
  exact hh.mono fun _ h => takes_of_held h hsmall

def loaded (window count : ℕ) : Lent π where
  stream := { (ClientRelayStream.opened window : ClientRelayStream π) with
    sendState := if 0 < window then some ⟨.opened, window - 32768 * count, window⟩ else none
    outbound := ⟨replicate count (some 32768), streamQueueBytes, false⟩ }
  sent := 0
  returned := 0

theorem loaded_zero (window : ℕ) : (loaded window 0 : Lent π) = opened window := by
  by_cases hw : 0 < window
  · have hne : window ≠ 0 := by omega
    simp [loaded, opened, ClientRelayStream.opened, openedState, newStreamState, hw, hne, empty, streamQueueBytes]
  · simp [loaded, opened, ClientRelayStream.opened, hw, empty, streamQueueBytes]

def readLabels (n : ℕ) : List (ClientLabel π) := [.relay .ok, .relay .ok, .read n, .relay .ok]

def pending (window count n : ℕ) : Lent π :=
  { (loaded window count : Lent π) with stream := { (loaded window count : Lent π).stream with
      sendState := if 0 < window then some ⟨.opened, window - 32768 * count - n, window⟩ else none
      relay := .sending n } }

theorem run_read {count n : ℕ} (hn : 0 < n) (hbuffer : n ≤ bufferSize) (hc : window = 0 ∨ 32768 * count + n ≤ window) :
    run (step size bufferSize) (loaded window count) (readLabels n) = some (pending window count n) := by
  have hpos : ¬n = 0 := by omega
  rcases hc with rfl | hc
  · have hf : ¬bufferSize < n := by omega
    simp [run, readLabels, step, loaded, pending, ClientRelayStream.opened, ClientRelayStream.step,
      relayToClient, clientSendLimit, readBytes,
      waitForClientWindow, drains, credit, hf, hpos]
  · have hw : 0 < window := by omega
    have ha : 0 < window - 32768 * count := by omega
    have hf : ¬min (window - 32768 * count) bufferSize < n := by omega
    have hcovered : ¬window - 32768 * count < n := by omega
    simp [run, readLabels, step, loaded, pending, ClientRelayStream.opened, ClientRelayStream.step,
      relayToClient, clientSendLimit, readBytes,
      waitForClientWindow, drains, credit, StreamState.consumeSend,
      hw, ha, hf, hcovered, hpos]

theorem bytes_loaded (window count : ℕ) :
    (loaded window count : Lent π).stream.outbound.bytes (frameSize id) = count * 32768 := by
  simp [loaded, bytes, frameSize]

theorem step_enqueue {count : ℕ} (hroom : count < 8) :
    step size bufferSize (pending window count 32768) (.relay .ok) = some (loaded window (count + 1)) := by
  have hb : (loaded window count : Lent π).stream.outbound.bytes (frameSize id) + 32768 ≤ streamQueueBytes := by
    rw [bytes_loaded, streamQueueBytes]
    omega
  have hp : (loaded window count : Lent π).stream.outbound.tryPush (frameSize id) (some 32768) =
      some ⟨replicate count (some 32768) ++ [some 32768], streamQueueBytes, false⟩ :=
    tryPush_of_room rfl (fun frame hf => by rw [eq_of_mem_replicate hf]; decide)
      (by decide) hb
  have hl : window - 32768 * count - 32768 = window - 32768 * (count + 1) := by omega
  simp only [step, ClientRelayStream.step, relayToClient, pending, ClientRelayStream.enqueueData, hp, map_some, hl]
  simp [loaded, ClientRelayStream.opened, drains, credit, replicate_succ']

theorem run_loaded (hb : 32768 ≤ bufferSize) (hw : window = 0 ∨ streamQueueBytes < window) {count : ℕ}
    (hcount : count ≤ 8) : run (step size bufferSize) (opened window)
      (replicate count (readLabels 32768 ++ [.relay .ok])).flatten = some (loaded window count) := by
  induction count with
  | zero => simp [loaded_zero]
  | succ count ih =>
    have hc : window = 0 ∨ 32768 * count + 32768 ≤ window := by
      rcases hw with hz | hl
      · exact .inl hz
      · rw [streamQueueBytes] at hl; exact .inr (by omega)
    rw [replicate_succ', flatten_append, run_append, ih (by omega), bind_some,
      flatten_singleton, run_append, run_read (by omega) hb hc, bind_some]
    simp [run, step_enqueue (show count < 8 by omega)]

theorem along_of_no_credit {labels : List (ClientLabel π)} (hl : ∀ label ∈ labels, label.credit = 0)
    (hr : l.returned ≤ l.sent) : Along (step size bufferSize) Honest l labels := by
  induction labels generalizing l with
  | nil => trivial
  | cons label rest ih =>
    intro next hn
    have hz := hl label mem_cons_self
    refine ⟨by rw [Honest, hz]; exact hr, ih (fun other ho => hl other ?_) ?_⟩
    · exact mem_cons_of_mem _ ho
    · obtain ⟨stream, -, rfl⟩ := map_eq_some_iff.mp hn
      simp only [hz]
      omega

theorem overfull_run (size : π → ℕ) (hb : 32768 ≤ bufferSize) (hw : window = 0 ∨ streamQueueBytes < window) :
    ∃ labels, ∃ final : Lent π, Along (step size bufferSize) Honest (opened window) labels ∧
      run (step size bufferSize) (opened window) labels = some final ∧ final.stream.present ∧
        final.stream.relay = .sending 1 ∧ final.stream.outbound.closed = false ∧
          final.stream.outbound.tryPush (frameSize id) (some 1) = none := by
  have hl : ∀ label ∈ (replicate 8 (readLabels 32768 ++ [.relay .ok])).flatten ++
      (readLabels 1 : List (ClientLabel π)), label.credit = 0 := by simp [readLabels, credit]
  have hc : window = 0 ∨ 32768 * 8 + 1 ≤ window := by
    rcases hw with hz | hlarge
    · exact .inl hz
    · rw [streamQueueBytes] at hlarge; exact .inr (by omega)
  have ho : streamQueueBytes < (loaded window 8 : Lent π).stream.outbound.bytes (frameSize id) + 1 := by
    rw [bytes_loaded, streamQueueBytes]
    omega
  refine ⟨_, pending window 8 1, along_of_no_credit hl le_rfl, ?_, rfl, rfl, rfl, ?_⟩
  · rw [run_append, run_loaded hb hw le_rfl, bind_some, run_read Nat.one_pos (by omega) hc]
  · exact (if_neg (by simp [pending, loaded])).trans (if_pos (.inl ho))

theorem full_of_large (hb : 32768 ≤ bufferSize) (hw : window = 0 ∨ streamQueueBytes < window) :
    ¬NeverFull size bufferSize window := by
  intro hn
  obtain ⟨labels, final, ha, hrun, hp, hr, ho, hf⟩ :=
    overfull_run size hb hw
  have ht := (hn labels ha).run hrun 1 hp hr ho
  rw [hf] at ht
  cases ht

-- The writer's queue holds all that the credit of an honest Client allows for
-- exactly the windows that are not larger than the queue. A window of zero
-- means no flow control.
theorem writer_never_full_iff (size : π → ℕ) (udp : Bool) (window : ℕ) :
    NeverFull size (relayBuffer udp) window ↔ 0 < window ∧ window ≤ streamQueueBytes := by
  have hbuffer : 32768 ≤ relayBuffer udp := by
    cases udp with
    | false => exact le_rfl
    | true => decide
  constructor
  · intro hnever
    by_contra hnot
    exact full_of_large hbuffer (by omega) hnever
  · rintro ⟨hwindow, hsmall⟩; exact neverFull_of_small hwindow hsmall

theorem large_window_overfills_queue :
    ∃ labels, ∃ final : Lent ℕ, Along (step id (relayBuffer false)) Honest (opened 262145) labels ∧
      run (step id (relayBuffer false)) (opened 262145) labels = some final ∧
        final.stream.present ∧ final.stream.relay = .sending 1 ∧ final.stream.outbound.closed = false ∧
          final.stream.outbound.tryPush (frameSize id) (some 1) = none :=
  overfull_run id le_rfl (.inr (by decide))

end Lent

end TunnelMesh.Relay
