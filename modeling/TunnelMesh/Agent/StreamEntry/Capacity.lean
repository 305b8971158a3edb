import TunnelMesh.Agent.StreamEntry.Theorems
import TunnelMesh.Session.InboundBuffer
import TunnelMesh.Transition

namespace TunnelMesh.Agent

open Protocol Session StreamEntry Intake FrameQueue Transition List

variable {π : Type} {size : π → ℕ}

def defaultInboundQueueBytes : ℕ := defaultAgentReceiveWindow

def setInboundBufferBytes (bytes : ℤ) : Option ℕ := acceptInboundBuffer bytes

def inboundBufferBytesLocked (inboundBytes : ℕ) : ℕ := inboundBuffer defaultInboundQueueBytes inboundBytes

-- An entry with the bytes that the Server has sent on it and the credit that it
-- was granted, in OPEN_STREAM's answer and the WINDOW_UPDATE frames sent since.
structure Granted (π : Type) where
  entry : StreamEntry π
  sent : ℕ
  granted : ℕ

namespace Granted

def opened (inboundBytes window : ℕ) : Granted π :=
  ⟨.opened (inboundBufferBytesLocked inboundBytes) window, 0, defaultAgentReceiveWindow⟩

def step (size : π → ℕ) (bufferSize : ℕ) (g : Granted π) (label : EntryLabel π) : Option (Granted π) :=
  (g.entry.step size bufferSize label).map fun moved =>
    ⟨moved.entry, g.sent + label.bytes size, g.granted + moved.updates.sum⟩

-- A DATA frame that the credit covers. Whether it may be empty is left open.
def Covered (size : π → ℕ) (empties : Bool) (g : Granted π) (payload : π) : Prop :=
  g.sent + size payload ≤ g.granted ∧ (empties ∨ 0 < size payload)

def Honours (size : π → ℕ) (empties : Bool) (g : Granted π) : EntryLabel π → Prop
  | .data payload => g.Covered size empties payload
  | _ => True

def Takes (size : π → ℕ) (empties : Bool) (g : Granted π) : Prop :=
  g.entry.present → g.entry.localHalf = false → ∀ payload, g.Covered size empties payload →
    g.entry.intake.admitInbound size payload ≠ .error .queueFull

structure Held (size : π → ℕ) (bound : ℕ) (g : Granted π) : Prop where
  balanced : g.entry.intake.Balanced size
  queue : g.entry.intake.inbound.maxBytes = bound ∧ g.entry.intake.inbound.closed = false
  filled : g.entry.localHalf = false → ∀ frame ∈ g.entry.intake.inbound.frames, 0 < frameSize size frame

variable {g next : Granted π}

theorem held_opened (hpos : 0 < inboundBufferBytesLocked inboundBytes) (window : ℕ) :
    (opened inboundBytes window : Granted π).Held size (inboundBufferBytesLocked inboundBytes) where
  balanced := balanced_opened _
  queue := ⟨if_neg (by omega), rfl⟩
  filled := fun _ frame hmem => by cases hmem

theorem pop_inbound {q next : Intake π} (h : q.pop = some next) :
    next.inbound.maxBytes = q.inbound.maxBytes ∧ next.inbound.closed = q.inbound.closed ∧
      ∀ frame ∈ next.inbound.frames, frame ∈ q.inbound.frames := by
  cases pop_popped h with
  | payload hf | half hf => rw [hf]; exact ⟨rfl, rfl, fun _ hmem => mem_cons_of_mem _ hmem⟩
  | nothing => exact ⟨rfl, rfl, fun _ hmem => hmem⟩

theorem release_inbound (q : Intake π) (written : ℕ) : (q.releaseReceiveWindow written).inbound = q.inbound := by
  unfold releaseReceiveWindow
  split
  · rfl
  · simp only; split <;> rfl

theorem add_inbound (q : Intake π) (update : ℕ) : (q.addReceiveWindow update).inbound = q.inbound := by
  unfold addReceiveWindow
  split <;> rfl

theorem step_queue (he : Effect size e label moved)
    (hp : moved.entry.present) (hd : ∀ payload, label = .data payload → 0 < size payload)
    (hc : e.intake.inbound.closed = false)
    (hf : e.localHalf = false → ∀ frame ∈ e.intake.inbound.frames, 0 < frameSize size frame) :
    (moved.entry.intake.inbound.maxBytes = e.intake.inbound.maxBytes ∧ moved.entry.intake.inbound.closed = false) ∧
      (moved.entry.localHalf = false → ∀ frame ∈ moved.entry.intake.inbound.frames, 0 < frameSize size frame) := by
  cases he with
  | admitted _ ho hok =>
    obtain ⟨-, rfl⟩ := admitInbound_ok hok
    refine ⟨⟨rfl, hc⟩, fun _ frame hmem => ?_⟩
    rcases mem_append.mp hmem with hold | hnew
    · exact hf ho frame hold
    · rw [mem_singleton.mp hnew]; exact hd _ rfl
  | halfClosed =>
    refine ⟨?_, fun ho => ?_⟩
    · exact ⟨maxBytes_pushed _ _ _, (closed_pushed _ _ _).trans hc⟩
    · cases ho
  | popped _ hpop =>
    obtain ⟨hmax, hs, hframes⟩ := pop_inbound hpop
    exact ⟨⟨hmax, hs.trans hc⟩, fun ho frame hmem => hf ho frame (hframes frame hmem)⟩
  | wrote | closedWrite | posted | lost => exact ⟨⟨rfl, hc⟩, hf⟩
  | completed | ended => cases hp
  | released => rw [quietly, release_inbound]; exact ⟨⟨rfl, hc⟩, hf⟩
  | added => rw [quietly, add_inbound]; exact ⟨⟨rfl, hc⟩, hf⟩
  | aside _ _ hi _ hh => rw [hi, hh]; exact ⟨⟨rfl, hc⟩, hf⟩
  | dropped hg => rw [hg] at hp; cases hp

theorem step_held (h : g.entry.present → g.Held size bound) (hhonours : g.Honours size false label)
    (hs : g.step size bufferSize label = some next) : next.entry.present → next.Held size bound := by
  intro hp
  obtain ⟨moved, hm, rfl⟩ := Option.map_eq_some_iff.mp hs
  have hh := h (step_present hm hp)
  have hd : ∀ payload, label = .data payload → 0 < size payload := by
    rintro payload rfl
    exact hhonours.2.resolve_left (by simp)
  obtain ⟨hq, hf⟩ :=
    step_queue (step_effect hm) hp hd hh.queue.2 hh.filled
  exact ⟨(step_conserves hm hh.balanced hp).balanced, ⟨hq.1.trans hh.queue.1, hq.2⟩, hf⟩

theorem Held.takes (h : g.Held size bound) (hbound : defaultAgentReceiveWindow ≤ bound)
    (ho : g.entry.localHalf = false) (hp : 0 < size payload) :
    g.entry.intake.admitInbound size payload ≠ .error .queueFull := by
  intro hr
  unfold admitInbound at hr
  split at hr
  · cases hr
  · next receiveState hh =>
    obtain ⟨hcredit, -⟩ := StreamState.handleData_ok hh
    have ht := h.balanced.total
    simp only [pending] at ht
    have hroom : g.entry.intake.inbound.bytes (frameSize size) + frameSize size (some payload) ≤
        g.entry.intake.inbound.maxBytes := by
      rw [h.queue.1, show frameSize size (some payload) = size payload from rfl]
      omega
    have hf : 0 < frameSize size (some payload) := hp
    rw [tryPush_of_room h.queue.2 (h.filled ho) hf hroom] at hr
    cases hr

def NeverRefuses (α : Type) (empties : Bool) (inboundBytes : ℕ) : Prop :=
  ∀ (window bufferSize : ℕ) (labels : List (EntryLabel (List α))),
    Along (step length bufferSize) (Honours length empties) (opened inboundBytes window) labels →
      Always (step length bufferSize) (Takes length empties) (opened inboundBytes window) labels

variable {α : Type}

theorem neverRefuses_of_room (hb : defaultAgentReceiveWindow ≤ inboundBufferBytesLocked inboundBytes) :
    NeverRefuses α false inboundBytes := by
  intro window bufferSize labels ha
  have hwindow : 0 < defaultAgentReceiveWindow := by decide
  have hh := always_of_invariant (fun _ _ _ => step_held) _ labels (fun _ => held_opened (by omega) window) ha
  refine hh.mono fun g h => ?_
  intro hp ho payload hc
  exact (h hp).takes hb ho (hc.2.resolve_left (by simp))

def fed (inboundBytes window : ℕ) (payloads : List (List α)) : Granted (List α) where
  entry :=
    { (StreamEntry.opened (inboundBufferBytesLocked inboundBytes) window : StreamEntry (List α)) with
      intake :=
        { (Intake.opened (inboundBufferBytesLocked inboundBytes) : Intake (List α)) with
          receiveState :=
            ⟨.opened, defaultAgentReceiveWindow, defaultAgentReceiveWindow - (payloads.map length).sum⟩
          inbound := ⟨payloads.map some, inboundBufferBytesLocked inboundBytes, false⟩ } }
  sent := (payloads.map length).sum
  granted := defaultAgentReceiveWindow

theorem fed_nil (hpos : 0 < inboundBufferBytesLocked inboundBytes) :
    fed inboundBytes window ([] : List (List α)) = opened inboundBytes window := by
  have hs : ¬ inboundBufferBytesLocked inboundBytes = 0 := by omega
  simp [fed, opened, StreamEntry.opened, Intake.opened, empty, hs, openedState, newStreamState,
    defaultAgentReceiveWindow]

theorem bytes_fed (payloads : List (List α)) :
    (fed inboundBytes window payloads).entry.intake.inbound.bytes (frameSize length) = (payloads.map length).sum := by
  rw [bytes, fed, map_map]
  rfl

variable {payloads : List (List α)}

theorem handleData_fed (hcredit : (payloads.map length).sum + n ≤ defaultAgentReceiveWindow) :
    (fed inboundBytes window payloads).entry.intake.receiveState.handleData n = .ok
      ⟨.opened, defaultAgentReceiveWindow, defaultAgentReceiveWindow - ((payloads.map length).sum + n)⟩ := by
  have hr : ¬ defaultAgentReceiveWindow - (payloads.map length).sum < n := by omega
  simp [fed, StreamState.handleData, hr, Nat.sub_sub]

theorem admitInbound_fed (inboundBytes window : ℕ)
    (hc : (payloads.map length).sum + payload.length ≤ defaultAgentReceiveWindow) :
    (fed inboundBytes window payloads).entry.intake.admitInbound length payload =
      if inboundBufferBytesLocked inboundBytes < (payloads.map length).sum + payload.length ∨
          inboundBufferBytesLocked inboundBytes ≤ payloads.length then .error .queueFull
      else .ok (fed inboundBytes window (payloads ++ [payload])).entry.intake := by
  have hp : (fed inboundBytes window payloads).entry.intake.inbound.tryPush (frameSize length) (some payload) =
      if inboundBufferBytesLocked inboundBytes < (payloads.map length).sum + payload.length ∨
          inboundBufferBytesLocked inboundBytes ≤ payloads.length then none
      else some ⟨(payloads ++ [payload]).map some, inboundBufferBytesLocked inboundBytes, false⟩ := by
    rw [tryPush, bytes_fed]
    simp [fed, frameSize]
  simp only [Intake.admitInbound, handleData_fed hc, hp]
  split
  · next hf =>
    split_ifs at hf with ho
    rw [if_pos ho]
  · next inbound hs =>
    split at hs <;> cases hs
    next hr =>
      rw [if_neg hr]
      simp [fed]

theorem step_fed (hc : (payloads.map length).sum + payload.length ≤ defaultAgentReceiveWindow)
    (hr : ¬ (inboundBufferBytesLocked inboundBytes < (payloads.map length).sum + payload.length ∨
      inboundBufferBytesLocked inboundBytes ≤ payloads.length)) :
    (fed inboundBytes window payloads).step length bufferSize (.data payload) =
      some (fed inboundBytes window (payloads ++ [payload])) := by
  have hok := admitInbound_fed inboundBytes window hc
  rw [if_neg hr] at hok
  have hl : (fed inboundBytes window payloads).entry.present ∧
      (fed inboundBytes window payloads).entry.localHalf = false := ⟨rfl, rfl⟩
  simp only [step, StreamEntry.step, StreamEntry.handleData, hl, hok, Option.map_some]
  simp [fed, StreamEntry.quietly, StreamEntry.opened, EntryLabel.bytes]

theorem run_fed (bufferSize window : ℕ) (payloads : List (List α))
    (h : Fits defaultAgentReceiveWindow (inboundBufferBytesLocked inboundBytes) empties payloads) :
    Along (step length bufferSize) (Honours length empties) (fed inboundBytes window [])
        (payloads.flatMap fun payload => [.data payload]) ∧ run (step length bufferSize) (fed inboundBytes window [])
        (payloads.flatMap fun payload => [.data payload]) = some (fed inboundBytes window payloads) := by
  refine run_rounds _ (fed inboundBytes window) Fits.of_append (fun done payload hf => ?_) payloads [] h
  obtain ⟨he, hc, hb, hcount⟩ := hf
  simp only [map_append, sum_append, length_append, map_cons, map_nil, sum_singleton, length_singleton] at hc hb hcount
  have hs : (fed inboundBytes window done).step length bufferSize (.data payload) =
      some (fed inboundBytes window (done ++ [payload])) := step_fed hc (by omega)
  exact ⟨fun next hn => ⟨⟨hc, he payload (by simp)⟩, trivial⟩, by rw [run, hs]; rfl⟩

theorem refuses_of_overfills (hpos : 0 < inboundBufferBytesLocked inboundBytes)
    (h : Overfills defaultAgentReceiveWindow (inboundBufferBytesLocked inboundBytes) empties payloads payload) :
    ¬ NeverRefuses α empties inboundBytes := by
  intro hn
  obtain ⟨ha, hrun⟩ := run_fed 0 0 payloads h.fits
  rw [fed_nil hpos] at ha hrun
  have ht := (hn 0 0 _ ha).run hrun
  refine ht rfl rfl payload ⟨h.credit, h.sizes payload mem_cons_self⟩ ?_
  rw [admitInbound_fed inboundBytes 0 h.credit, if_pos h.full]

theorem neverRefuses_iff [Inhabited α] (empties : Bool) (hpos : 0 < inboundBufferBytesLocked inboundBytes) :
    NeverRefuses α empties inboundBytes ↔
      defaultAgentReceiveWindow ≤ inboundBufferBytesLocked inboundBytes ∧ empties = false := by
  constructor
  · intro hn
    by_contra hs
    obtain ⟨payloads, payload, ho⟩ := exists_overfills (α := α) hpos hs
    exact refuses_of_overfills hpos ho hn
  · rintro ⟨hb, rfl⟩; exact neverRefuses_of_room hb

end Granted

end TunnelMesh.Agent
