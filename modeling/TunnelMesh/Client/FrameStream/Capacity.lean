import TunnelMesh.Agent.StreamEntry.Capacity
import TunnelMesh.Client.FrameStream

namespace TunnelMesh.Client

open Protocol Session Reading Transition FrameQueue FrameStream StreamState Option List

variable {α : Type}

def defaultStreamWindow : ℕ := 262144

def setInboundBufferBytes (bytes : ℤ) : Option ℕ := acceptInboundBuffer bytes

def inboundBufferBytes (inboundBytes : ℕ) : ℕ := inboundBuffer defaultStreamWindow inboundBytes

def ReadLabel.bytes : ReadLabel α → ℕ
  | .frame (.data payload) => payload.length
  | _ => 0

def Reader.held : Reader α → ℕ
  | .appending _ payload => payload.length
  | .releasing bytes => bytes.length
  | .flushing _ update => update
  | _ => 0

def Receiver.held : Receiver α → ℕ
  | .pushing payload => payload.length
  | .idle | .admitting _ | .finishing _ _ => 0

def Receiver.payload : Receiver α → Option (List α)
  | .admitting payload | .pushing payload => some payload
  | .idle | .finishing _ _ => none

def Reading.held (r : Reading α) : ℕ :=
  r.receiver.held + r.stream.readQueue.bytes length + r.reader.held + r.stream.readBuf.length +
    r.stream.receiveUnacked

structure Granted (α : Type) where
  reading : Reading α
  sent : ℕ

namespace Granted

def opened (inboundBytes : ℕ) : Granted α :=
  ⟨.opened (inboundBufferBytes inboundBytes) (some (openedState defaultStreamWindow)), 0⟩

def step (threshold : ℕ) (g : Granted α) (label : ReadLabel α) : Option (Granted α) :=
  (g.reading.step threshold label).map fun reading => ⟨reading, g.sent + label.bytes⟩

def granted (g : Granted α) : ℕ := defaultStreamWindow + g.reading.outbox.sum

def Covered (empties : Bool) (g : Granted α) (payload : List α) : Prop :=
  g.sent + payload.length ≤ g.granted ∧ (empties ∨ 0 < payload.length)

def Honours (empties : Bool) (g : Granted α) : ReadLabel α → Prop
  | .frame (.data payload) => g.Covered empties payload
  | _ => True

def Takes (g : Granted α) : Prop :=
  ∀ payload, g.reading.receiver = .pushing payload → g.reading.stream.readQueue.tryPush length payload ≠ none

end Granted

structure Held (bound : ℕ) (r : Reading α) : Prop where
  flow : ∃ flow, r.stream.flow = some flow ∧ flow.status = .opened ∧
    flow.receiveWindow + r.held ≤ defaultStreamWindow
  queue : r.stream.readQueue.maxBytes = bound ∧ r.stream.readQueue.closed = false
  filled : ∀ payload ∈ r.stream.readQueue.frames, 0 < payload.length
  payload : ∀ payload, r.receiver.payload = some payload → 0 < payload.length

variable {r next : Reading α}

theorem held_opened (hpos : 0 < inboundBufferBytes inboundBytes) :
    Held (inboundBufferBytes inboundBytes) (Granted.opened inboundBytes : Granted α).reading where
  flow := ⟨openedState defaultStreamWindow, rfl, rfl, by
    have he : (Granted.opened inboundBytes : Granted α).reading.held = 0 := rfl
    rw [he, (openedState_window (by decide)).2]
    omega⟩
  queue := ⟨if_neg (by omega), rfl⟩
  filled := fun payload hmem => by cases hmem
  payload := fun payload hn => by cases hn

section

variable (h : Held bound r)

include h

theorem Held.aside (hf : next.stream.flow = r.stream.flow) (hheld : next.held ≤ r.held)
    (hq : next.stream.readQueue = r.stream.readQueue)
    (hp : ∀ payload, next.receiver.payload = some payload → 0 < payload.length) : Held bound next := by
  obtain ⟨flow, hsome, hs, htotal⟩ := h.flow
  refine ⟨⟨flow, hf.trans hsome, hs, by omega⟩, ?_, ?_, hp⟩
  · rw [hq]; exact h.queue
  · rw [hq]; exact h.filled

theorem read_held (hr : r.read size = some next) : Held bound next := by
  unfold Reading.read at hr
  split at hr
  · next hi =>
    split at hr
    · cases hr; exact h.aside rfl le_rfl rfl h.payload
    cases hr
    refine h.aside rfl ?_ rfl h.payload
    simp only [Reading.held, hi, Reader.held]
    omega
  · cases hr

theorem popped_held (hr : r.reader.held = 0) (hrest : rest.held = 0) : Held bound
      { r with stream := (popped r.stream size rest).stream, reader := (popped r.stream size rest).reader } := by
  obtain ⟨flow, hsome, hs, ht⟩ := h.flow
  simp only [held, hr] at ht
  unfold popped
  split
  · refine h.aside rfl ?_ rfl h.payload
    simp only [held, hr, hrest]
    omega
  · next payload readQueue hpop =>
    have hbytes : r.stream.readQueue.bytes length = payload.length + readQueue.bytes length :=
      bytes_pop hpop
    obtain ⟨hframes, hsame⟩ := pop_eq_some hpop
    have hq : readQueue.maxBytes = bound ∧ readQueue.closed = false := by rw [hsame]; exact h.queue
    have hf : ∀ p ∈ readQueue.frames, 0 < p.length := fun p hmem =>
      h.filled p (by rw [hframes]; exact mem_cons_of_mem _ hmem)
    split
    all_goals
      refine ⟨⟨flow, hsome, hs, ?_⟩, hq, hf, h.payload⟩
      simp only [held, Reader.held]
      omega

theorem release_held {bytes : List α} (hreader : r.reader = .releasing bytes) {released : FrameStream α} {update : ℕ}
    (hr : r.stream.releaseReceiveWindow threshold bytes.length = (released, update)) :
    Held bound { r with
      stream := released
      reader := if update = 0 then .idle else .flushing bytes update } := by
  obtain ⟨flow, hsome, hs, ht⟩ := h.flow
  have hwindow : defaultStreamWindow = 262144 := rfl
  simp only [held, hreader, Reader.held] at ht
  have hu : uint32 (r.stream.receiveUnacked + uint32 bytes.length) = r.stream.receiveUnacked + bytes.length := by
    rw [uint32_of_lt (show bytes.length < 2 ^ 32 by omega), uint32_of_lt (by omega)]
  simp only [releaseReceiveWindow, hsome, hu] at hr
  split at hr
  · cases hr
    refine h.aside rfl ?_ rfl h.payload
    simp only [held, hreader, Reader.held, if_pos]
    omega
  · next hsize =>
    split at hr
    · cases hr
      refine { h with flow := ⟨flow, rfl, hs, ?_⟩ }
      rw [if_neg (by omega)]
      simp only [held, Reader.held]
      omega
    · cases hr
      refine { h with flow := ⟨flow, rfl, hs, ?_⟩ }
      simp only [held, Reader.held, if_pos]
      omega

theorem refill_held {bytes : List α} (hr : r.reader = .flushing bytes update) :
    Held bound { r with stream := (r.stream.refill update).1, reader := .idle } := by
  obtain ⟨flow, hsome, hs, ht⟩ := h.flow
  have hwindow : defaultStreamWindow = 262144 := rfl
  simp only [held, hr, Reader.held] at ht
  have hadd := addReceiveWindow_of_opened (n := update) hs (by omega)
  simp only [refill, hsome, hadd]
  refine { h with flow := ⟨_, rfl, hs, ?_⟩ }
  simp only [held, Reader.held]
  omega

theorem moved_held (hm : r.reader.move threshold r.stream wake = some moved) :
    Held bound { r with stream := moved.stream, reader := moved.reader } := by
  have hk : ∀ reader : Reader α, reader.held ≤ r.reader.held → ∀ readSignal,
      Held bound { r with stream := { r.stream with readSignal }, reader } := by
    intro reader hle readSignal
    refine h.aside rfl ?_ rfl h.payload
    simp only [held]
    omega
  cases hr : r.reader
  case idle => rw [hr] at hm; cases hm
  case waiting size =>
    cases wake <;> simp only [hr, Reader.move, ite_none_right_eq_some] at hm <;>
      cases hm.2 <;> exact hk _ (Nat.zero_le _) _
  all_goals simp only [hr, Reader.move] at hm
  case looking size =>
    split at hm <;> cases hm
    · refine h.aside rfl ?_ rfl h.payload
      simp only [held, hr, Reader.held, length_drop, length_take]
      omega
    · exact hk _ (by simp [hr, Reader.held]) _
  case popping | draining =>
    cases hm
    exact popped_held h (by rw [hr]; rfl) rfl
  case appending size payload =>
    cases hm
    refine h.aside rfl ?_ rfl h.payload
    simp only [held, hr, Reader.held, length_append]
    omega
  case checking size => split at hm <;> cases hm <;> exact hk _ (Nat.zero_le _) _
  case ending =>
    cases hm
    exact hk _ (Nat.zero_le _) _
  case releasing bytes =>
    have hp : r.stream.releaseReceiveWindow threshold bytes.length =
        ((r.stream.releaseReceiveWindow threshold bytes.length).1,
          (r.stream.releaseReceiveWindow threshold bytes.length).2) := rfl
    have hreleased := release_held h hr hp
    split at hm
    · next hz =>
      cases hm
      rwa [if_pos hz] at hreleased
    · next hs =>
      cases hm
      rwa [if_neg hs] at hreleased
  case flushing bytes update =>
    cases hm
    exact refill_held h hr

theorem advance_held (ha : r.advance threshold wake = some next) : Held bound next := by
  obtain ⟨moved, hmove, rfl⟩ := map_eq_some_iff.mp ha
  have hm := moved_held h hmove
  exact { hm with }

theorem Held.receiver {receiver : Receiver α} (hheld : receiver.held ≤ r.receiver.held)
    (hp : ∀ payload, receiver.payload = some payload → 0 < payload.length) : Held bound { r with receiver } := by
  refine h.aside rfl ?_ rfl hp
  simp only [held]
  omega

theorem Held.finishing (e : StreamEnd) (remove : Bool) : Held bound { r with receiver := .finishing e remove } :=
  h.receiver (Nat.zero_le _) fun _ hn => by cases hn

theorem credited_held (credit : ℕ) : Held bound (r.credited credit) := by
  obtain ⟨flow, hsome, hs, ht⟩ := h.flow
  simp only [credited, hsome]
  split
  · next added hadd =>
    obtain rfl := addSendWindow_ok hadd
    exact { h with flow := ⟨_, rfl, hs, ht⟩ }
  · next e _ => exact h.finishing (.protocol e) true

theorem frame_held (hd : ∀ payload, f = .data payload → 0 < payload.length)
    (hf : r.frame f = some next) : Held bound next := by
  unfold frame at hf
  split at hf
  · split at hf
    · cases hf; exact h
    · cases hf
      cases f with
      | data payload =>
        simp only [dispatch]
        split
        · exact h
        · refine h.receiver (Nat.zero_le _) fun p hp => ?_
          cases hp
          exact hd payload rfl
      | halfClose => exact h.finishing .eof false
      | windowUpdate credit => exact credited_held h credit
      | reset => exact h.finishing .reset true
  · cases hf

theorem handleFlow_held (hr : r.receiver = .admitting payload) : Held bound (r.handleFlow payload) := by
  obtain ⟨flow, hsome, hs, ht⟩ := h.flow
  have hpayload : 0 < payload.length := h.payload payload (by rw [hr]; rfl)
  simp only [held, hr, Receiver.held] at ht
  simp only [handleFlow, hsome]
  split
  · next admitted hh =>
    obtain ⟨hroom, rfl⟩ := handleData_ok hh
    refine ⟨⟨_, rfl, hs, ?_⟩, h.queue, h.filled, fun p hp => ?_⟩
    · simp only [held, Receiver.held]; omega
    · cases hp; exact hpayload
  · next e _ => exact h.finishing (.protocol e) true

theorem push_held (hr : r.receiver = .pushing payload) : Held bound (r.push payload) := by
  obtain ⟨flow, hsome, hs, ht⟩ := h.flow
  simp only [held, hr, Receiver.held] at ht
  unfold push
  split
  · next readQueue hpush =>
    have hbytes := bytes_tryPush hpush
    obtain rfl := tryPush_eq_some hpush
    refine ⟨⟨flow, hsome, hs, ?_⟩, h.queue, fun p hmem => ?_, fun p hp => ?_⟩
    · simp only [held, Receiver.held]; omega
    · rcases mem_append.mp hmem with hold | hnew
      · exact h.filled p hold
      · rw [mem_singleton.mp hnew]; exact h.payload payload (by rw [hr]; rfl)
    · cases hp
  · exact h.finishing .windowExhausted true

theorem receive_held (hreceive : r.receive = some next) : Held bound next := by
  cases hr : r.receiver with
  | idle => simp only [receive, hr] at hreceive; cases hreceive
  | admitting payload =>
    simp only [receive, hr] at hreceive
    cases hreceive
    exact handleFlow_held h hr
  | pushing payload =>
    simp only [receive, hr] at hreceive
    cases hreceive
    exact push_held h hr
  | finishing e remove =>
    simp only [receive, hr] at hreceive
    cases hreceive
    simp only [finish]
    split
    all_goals
      refine h.aside rfl ?_ rfl fun p hp => by cases hp
      simp only [held, hr, Receiver.held, le_refl]

end

namespace Granted

variable {g after : Granted α} {empties : Bool}

theorem step_held (h : Held bound g.reading) (hh : g.Honours false label)
    (hs : g.step threshold label = some after) : Held bound after.reading := by
  obtain ⟨reading, hr, rfl⟩ := map_eq_some_iff.mp hs
  cases label with
  | read size => exact read_held h hr
  | advance wake => exact advance_held h hr
  | frame f =>
    refine frame_held h ?_ hr
    rintro payload rfl
    exact hh.2.resolve_left (by simp)
  | receive => exact receive_held h hr

theorem takes_of_held (hbound : defaultStreamWindow ≤ bound) (h : Held bound g.reading) : g.Takes := by
  intro payload hr hrefused
  obtain ⟨flow, hsome, hstatus, ht⟩ := h.flow
  simp only [held, hr, Receiver.held] at ht
  have hp : 0 < payload.length := h.payload payload (by rw [hr]; rfl)
  have hroom : g.reading.stream.readQueue.bytes length + payload.length ≤ g.reading.stream.readQueue.maxBytes := by
    rw [h.queue.1]
    omega
  rw [tryPush_of_room h.queue.2 h.filled hp hroom] at hrefused
  cases hrefused

def NeverRefuses (α : Type) (empties : Bool) (inboundBytes : ℕ) : Prop :=
  ∀ (threshold : ℕ) (labels : List (ReadLabel α)),
    Along (step threshold) (Honours empties) (opened inboundBytes) labels →
      Always (step threshold) Takes (opened inboundBytes) labels

theorem neverRefuses_of_room (hb : defaultStreamWindow ≤ inboundBufferBytes inboundBytes) :
    NeverRefuses α false inboundBytes := by
  intro threshold labels ha
  have hwindow : 0 < defaultStreamWindow := by decide
  have hh := always_of_invariant (fun _ _ _ => step_held) _ labels (held_opened (by omega)) ha
  exact hh.mono fun g h => takes_of_held hb h

def fed (inboundBytes : ℕ) (signal : Bool) (payloads : List (List α)) : Granted α where
  reading :=
    { (Reading.opened (inboundBufferBytes inboundBytes) none : Reading α) with
      stream :=
        { (FrameStream.opened (inboundBufferBytes inboundBytes) none : FrameStream α) with
          readQueue := ⟨payloads, inboundBufferBytes inboundBytes, false⟩
          readSignal := signal
          flow := some ⟨.opened, defaultStreamWindow, defaultStreamWindow - (payloads.map length).sum⟩ }
      accepted := payloads }
  sent := (payloads.map length).sum

def pushing (inboundBytes : ℕ) (signal : Bool) (payloads : List (List α)) (payload : List α) : Granted α :=
  let g := fed inboundBytes signal payloads
  let sum := (payloads.map length).sum + payload.length
  { g with
    reading :=
      { g.reading with
        stream := { g.reading.stream with flow := some ⟨.opened, defaultStreamWindow, defaultStreamWindow - sum⟩ }
        receiver := .pushing payload }
    sent := sum }

variable {payloads : List (List α)} {payload : List α}

theorem fed_nil (hpos : 0 < inboundBufferBytes inboundBytes) :
    fed inboundBytes false ([] : List (List α)) = opened inboundBytes := by
  have hs : ¬ inboundBufferBytes inboundBytes = 0 := by omega
  simp [fed, opened, Reading.opened, FrameStream.opened, empty, hs, openedState, newStreamState,
    defaultStreamWindow]

section

variable (hcredit : (payloads.map length).sum + payload.length ≤ defaultStreamWindow)

include hcredit

theorem run_admitting :
    run (step threshold) (fed inboundBytes signal payloads) [.frame (.data payload), .receive] =
      some (pushing inboundBytes signal payloads payload) := by
  have hr : ¬ defaultStreamWindow - (payloads.map length).sum < payload.length := by omega
  simp [run, step, Reading.step, Reading.frame, fed, Reading.opened, FrameStream.opened, Reading.dispatch,
    Reading.receive, Reading.handleFlow, handleData, hr, pushing, ReadLabel.bytes, Nat.sub_sub]

theorem along_admitting
    (he : empties ∨ 0 < payload.length) :
    Along (step threshold) (Honours empties) (fed inboundBytes signal payloads) [.frame (.data payload), .receive] :=
  fun _ _ => ⟨⟨hcredit, he⟩, fun _ _ => ⟨trivial, trivial⟩⟩

end

theorem step_push (hbytes : (payloads.map length).sum + payload.length ≤ inboundBufferBytes inboundBytes)
    (hcount : payloads.length < inboundBufferBytes inboundBytes) :
    (pushing inboundBytes signal payloads payload).step threshold .receive =
      some (fed inboundBytes true (payloads ++ [payload])) := by
  have hr : ¬ (inboundBufferBytes inboundBytes < (payloads.map length).sum + payload.length ∨
      inboundBufferBytes inboundBytes ≤ payloads.length) := by omega
  simp [step, Reading.step, Reading.receive, pushing, fed, Reading.push, tryPush, bytes, hr,
    ReadLabel.bytes, Reading.opened]

def feedLabels (payload : List α) : List (ReadLabel α) := [.frame (.data payload), .receive] ++ [.receive]

theorem run_round (hcredit : (payloads.map length).sum + payload.length ≤ defaultStreamWindow)
    (he : empties ∨ 0 < payload.length)
    (hb : (payloads.map length).sum + payload.length ≤ inboundBufferBytes inboundBytes)
    (hc : payloads.length < inboundBufferBytes inboundBytes) :
    Along (step threshold) (Honours empties) (fed inboundBytes signal payloads) (feedLabels payload) ∧
      run (step threshold) (fed inboundBytes signal payloads) (feedLabels payload) =
        some (fed inboundBytes true (payloads ++ [payload])) := by
  refine ⟨(along_admitting hcredit he).append (run_admitting hcredit) fun _ _ => ⟨trivial, trivial⟩, ?_⟩
  rw [feedLabels, run_append, run_admitting hcredit, bind_some, run, step_push hb hc]
  rfl

theorem run_fed (threshold : ℕ) (payloads : List (List α))
    (h : Fits defaultStreamWindow (inboundBufferBytes inboundBytes) empties payloads) :
    Along (step threshold) (Honours empties) (fed inboundBytes false []) (payloads.flatMap feedLabels) ∧
      run (step threshold) (fed inboundBytes false []) (payloads.flatMap feedLabels) =
        some (fed inboundBytes (!payloads.isEmpty) payloads) := by
  refine run_rounds _ (fun done => fed inboundBytes (!done.isEmpty) done) Fits.of_append
    (fun done payload hf => ?_) payloads [] h
  obtain ⟨he, hw, hb, hc⟩ := hf
  simp only [map_append, sum_append, length_append, map_cons, map_nil, sum_singleton, length_singleton] at hw hb hc
  have hn : (!(done ++ [payload]).isEmpty) = true := by simp
  rw [hn]
  exact run_round hw (he payload (by simp)) hb hc

theorem refuses_of_overfills (hpos : 0 < inboundBufferBytes inboundBytes)
    (h : Overfills defaultStreamWindow (inboundBufferBytes inboundBytes) empties payloads payload) :
    ¬ NeverRefuses α empties inboundBytes := by
  intro hn
  obtain ⟨ha, hrun⟩ := run_fed 0 payloads h.fits
  rw [fed_nil hpos] at ha hrun
  have halong' := ha.append hrun (along_admitting h.credit (h.sizes payload mem_cons_self))
  have ht := (hn 0 _ halong').run (by rw [run_append, hrun, bind_some, run_admitting h.credit])
  refine ht payload rfl ?_
  have hf := h.full
  simp [pushing, fed, tryPush, bytes, hf]

theorem neverRefuses_iff [Inhabited α] (empties : Bool) (hpos : 0 < inboundBufferBytes inboundBytes) :
    NeverRefuses α empties inboundBytes ↔
      defaultStreamWindow ≤ inboundBufferBytes inboundBytes ∧ empties = false := by
  constructor
  · intro hn
    by_contra hs
    obtain ⟨payloads, payload, ho⟩ := exists_overfills (α := α) hpos hs
    exact refuses_of_overfills hpos ho hn
  · rintro ⟨hb, rfl⟩; exact neverRefuses_of_room hb

end Granted

-- Neither end refuses a DATA frame of a peer that keeps to its credit, exactly
-- when both buffers hold the window and no frame is empty.
theorem inbound_queues_take_iff [Inhabited α] (empties : Bool) {agentBytes clientBytes : ℤ}
    {agentBuffer clientBuffer : ℕ} (hagent : Agent.setInboundBufferBytes agentBytes = some agentBuffer)
    (hclient : setInboundBufferBytes clientBytes = some clientBuffer) :
    (Agent.Granted.NeverRefuses α empties agentBuffer ∧ Granted.NeverRefuses α empties clientBuffer) ↔
      defaultAgentReceiveWindow ≤ agentBuffer ∧ defaultStreamWindow ≤ clientBuffer ∧ empties = false := by
  obtain ⟨hagentSize, hagentPos⟩ := inboundBuffer_of_accepted hagent Agent.defaultInboundQueueBytes
  obtain ⟨hclientSize, hclientPos⟩ := inboundBuffer_of_accepted hclient defaultStreamWindow
  have hagentIff : Agent.Granted.NeverRefuses α empties agentBuffer ↔
      defaultAgentReceiveWindow ≤ agentBuffer ∧ empties = false := by
    have hiff := Agent.Granted.neverRefuses_iff (α := α) empties (hagentSize.symm ▸ hagentPos : 0 < inboundBuffer _ _)
    rwa [Agent.inboundBufferBytesLocked, hagentSize] at hiff
  have hclientIff : Granted.NeverRefuses α empties clientBuffer ↔
      defaultStreamWindow ≤ clientBuffer ∧ empties = false := by
    have hiff := Granted.neverRefuses_iff (α := α) empties (hclientSize.symm ▸ hclientPos : 0 < inboundBuffer _ _)
    rwa [inboundBufferBytes, hclientSize] at hiff
  rw [hagentIff, hclientIff]
  constructor
  · rintro ⟨⟨hagentRoom, hnone⟩, hclientRoom, -⟩; exact ⟨hagentRoom, hclientRoom, hnone⟩
  · rintro ⟨hagentRoom, hclientRoom, hnone⟩; exact ⟨⟨hagentRoom, hnone⟩, hclientRoom, hnone⟩

theorem standard_buffers_take : Agent.Granted.NeverRefuses ℕ false 262144 ∧ Granted.NeverRefuses ℕ false 262144 :=
  (inbound_queues_take_iff false (show Agent.setInboundBufferBytes 262144 = some 262144 by decide)
    (show setInboundBufferBytes 262144 = some 262144 by decide)).mpr ⟨le_rfl, le_rfl, rfl⟩

-- Two frames are accepted as a size, and empty frames fill any queue.
theorem small_buffers_refuse :
    (Agent.setInboundBufferBytes 65536 = some 65536 ∧ setInboundBufferBytes 65536 = some 65536) ∧
      (¬ Agent.Granted.NeverRefuses ℕ false 65536 ∧ ¬ Granted.NeverRefuses ℕ false 65536) ∧
        ¬ Agent.Granted.NeverRefuses ℕ true 262144 ∧ ¬ Granted.NeverRefuses ℕ true 262144 := by
  refine ⟨⟨by decide, by decide⟩, ⟨fun hnever => ?_, fun hnever => ?_⟩, fun hnever => ?_, fun hnever => ?_⟩
  · exact absurd ((Agent.Granted.neverRefuses_iff false (by decide)).mp hnever).1 (by decide)
  · exact absurd ((Granted.neverRefuses_iff false (by decide)).mp hnever).1 (by decide)
  · exact absurd ((Agent.Granted.neverRefuses_iff true (by decide)).mp hnever).2 (by decide)
  · exact absurd ((Granted.neverRefuses_iff true (by decide)).mp hnever).2 (by decide)

end TunnelMesh.Client
