import TunnelMesh.Agent.StreamEntry.Announcement
import TunnelMesh.Client.FrameStream.Capacity

namespace TunnelMesh.Client

open Protocol Session Reading FrameStream Reader Option List Transition StreamState

variable {α : Type}

def Reading.posting (r : Reading α) : ReadLabel α → List ℕ
  | .advance _ =>
    match r.reader with
    | .flushing _ update => (r.stream.refill update).2
    | _ => []
  | _ => []

def Reading.admitting (r : Reading α) : ReadLabel α → ℕ
  | .receive =>
    match r.receiver with
    | .admitting payload => (r.handleFlow payload).receiver.held
    | _ => 0
  | _ => 0

-- A stream with the control queue of its session, which all streams share. The
-- WINDOW_UPDATE frames that the session has accepted and the bytes that came in
-- are recorded.
structure Announced (α : Type) where
  reading : Reading α
  control : ControlQueue (Option ℕ)
  accepted : List ℕ
  received : ℕ

inductive AnnouncedLabel (α : Type) where
  | reading (label : ReadLabel α)
  | other
  | sent
  | close

namespace Announced

def opened (inboundBytes : ℕ) : Announced α :=
  ⟨.opened (inboundBufferBytes inboundBytes) (some (openedState defaultStreamWindow)), .empty, [], 0⟩

def post (a : Announced α) : List ℕ → Announced α
  | [] => a
  | update :: _ =>
    match a.control.enqueueControl (some update) with
    | some control => { a with control, accepted := a.accepted ++ [update] }
    | none => a

def step (threshold : ℕ) (a : Announced α) : AnnouncedLabel α → Option (Announced α)
  | .reading label =>
    (a.reading.step threshold label).map fun reading =>
      { a.post (a.reading.posting label) with reading, received := a.received + a.reading.admitting label }
  | .other => (a.control.enqueueControl none).map fun control => { a with control }
  | .sent => a.control.next.map fun (_, control) => { a with control }
  | .close => some { a with control := a.control.close }

def Room (a : Announced α) : AnnouncedLabel α → Prop
  | .reading label => a.reading.posting label ≠ [] → a.control.HasRoom
  | .other | .sent | .close => True

instance (a : Announced α) (label : AnnouncedLabel α) : Decidable (a.Room label) := by
  cases label <;> dsimp only [Room] <;> infer_instance

-- The credit that went back to the receive window is the one that the session
-- has accepted, and the window is not ahead of what the Server is told.
structure Told (a : Announced α) : Prop where
  exact : a.reading.outbox = a.accepted
  window : ∃ flow, a.reading.stream.flow = some flow ∧
    flow.receiveWindow + a.received = defaultStreamWindow + a.accepted.sum

structure Grows (r next : Reading α) (posted : List ℕ) (admitted : ℕ) : Prop where
  outbox : next.outbox = r.outbox ++ posted
  window : ∀ flow, r.stream.flow = some flow → ∃ after, next.stream.flow = some after ∧
    after.receiveWindow + admitted = flow.receiveWindow + posted.sum

variable {r next : Reading α}

theorem grows_aside (ho : next.outbox = r.outbox) (hf : next.stream.flow = r.stream.flow) : Grows r next [] 0 :=
  ⟨ho.trans (append_nil _).symm, fun flow hs => ⟨flow, hf.trans hs, rfl⟩⟩

theorem popped_flow (s : FrameStream α) (size : ℕ) (rest : Reader α) :
    (popped s size rest).stream.flow = s.flow ∧ (popped s size rest).updates = [] := by
  unfold popped
  split
  · exact ⟨rfl, rfl⟩
  · split <;> exact ⟨rfl, rfl⟩

theorem release_flow (s : FrameStream α) (n : ℕ) : (s.releaseReceiveWindow threshold n).1.flow = s.flow := by
  unfold releaseReceiveWindow
  split
  · rfl
  · split
    · rfl
    · simp only; split <;> rfl

theorem refill_window {s : FrameStream α} {flow : StreamState} (h : s.flow = some flow) (update : ℕ) :
    ∃ after, (s.refill update).1.flow = some after ∧
      after.receiveWindow = flow.receiveWindow + (s.refill update).2.sum := by
  simp only [refill, h]
  split
  · next after hadd =>
    obtain rfl := addReceiveWindow_ok hadd
    exact ⟨_, rfl, by simp⟩
  · exact ⟨flow, h, by simp⟩

theorem move_keeps (hm : r.reader.move threshold r.stream wake = some moved)
    (hf : ∀ bytes update, r.reader ≠ .flushing bytes update) :
    moved.stream.flow = r.stream.flow ∧ moved.updates = [] := by
  cases hr : r.reader with
  | flushing bytes update => exact absurd hr (hf bytes update)
  | idle => rw [hr] at hm; cases hm
  | looking | checking => simp only [hr, move] at hm; split at hm <;> cases hm <;> exact ⟨rfl, rfl⟩
  | waiting size =>
    cases wake <;> simp only [hr, move, ite_none_right_eq_some] at hm <;>
      cases hm.2 <;> exact ⟨rfl, rfl⟩
  | releasing bytes =>
    simp only [hr, move] at hm
    split at hm <;> cases hm <;> exact ⟨release_flow _ _, rfl⟩
  | popping | draining =>
    simp only [hr, move] at hm
    cases hm
    exact popped_flow _ _ _
  | _ =>
    simp only [hr, move] at hm
    cases hm
    exact ⟨rfl, rfl⟩

theorem advance_grows (ha : r.advance threshold wake = some next) : Grows r next (r.posting (.advance wake)) 0 := by
  obtain ⟨moved, hm, rfl⟩ := map_eq_some_iff.mp ha
  cases hr : r.reader with
  | flushing bytes update =>
    simp only [hr, move] at hm
    cases hm
    simp only [posting, hr]
    exact ⟨rfl, fun flow hs => refill_window hs update⟩
  | _ =>
    obtain ⟨hf, hu⟩ := move_keeps hm (by simp [hr])
    simp only [posting, hr]
    exact grows_aside (by simp [hu]) hf

theorem frame_grows (hf : r.frame f = some next) : Grows r next [] 0 := by
  unfold frame at hf
  split at hf
  · split at hf
    · cases hf; exact grows_aside rfl rfl
    · cases hf
      cases f with
      | data payload => simp only [dispatch]; split <;> exact grows_aside rfl rfl
      | halfClose | reset => exact grows_aside rfl rfl
      | windowUpdate credit =>
        simp only [dispatch, credited]
        split
        · exact grows_aside rfl rfl
        · next flow hs =>
          split
          · next added hadd =>
            obtain rfl := addSendWindow_ok hadd
            refine ⟨(append_nil _).symm, fun before hb => ⟨_, rfl, ?_⟩⟩
            rw [some.inj (hs.symm.trans hb)]
            rfl
          · exact grows_aside rfl rfl
  · cases hf

theorem handleFlow_grows (payload : List α) :
    Grows r (r.handleFlow payload) [] (r.handleFlow payload).receiver.held := by
  unfold handleFlow
  split
  · next hn =>
    refine ⟨(append_nil _).symm, fun flow hs => ?_⟩
    rw [hn] at hs
    cases hs
  · next flow hs =>
    split
    · next after hh =>
      obtain ⟨hroom, rfl⟩ := handleData_ok hh
      refine ⟨(append_nil _).symm, fun before hb => ⟨_, rfl, ?_⟩⟩
      obtain rfl := some.inj (hs.symm.trans hb)
      simp only [Receiver.held, sum_nil]
      omega
    · exact grows_aside rfl rfl

theorem receive_grows (hreceive : r.receive = some next) : Grows r next [] (r.admitting .receive) := by
  cases hr : r.receiver
  all_goals simp only [receive, hr] at hreceive
  case idle => cases hreceive
  case admitting payload =>
    cases hreceive
    simp only [admitting, hr]
    exact handleFlow_grows payload
  case pushing payload =>
    cases hreceive
    simp only [admitting, hr, push]
    split <;> exact grows_aside rfl rfl
  case finishing e remove =>
    cases hreceive
    simp only [admitting, hr, finish]
    split <;> exact grows_aside rfl rfl

theorem step_grows (hs : r.step threshold label = some next) : Grows r next (r.posting label) (r.admitting label) := by
  cases label with
  | read size =>
    simp only [Reading.step, Reading.read] at hs
    split at hs
    · split at hs <;> cases hs <;> exact grows_aside rfl rfl
    · cases hs
  | advance wake => exact advance_grows hs
  | frame f => exact frame_grows hs
  | receive => exact receive_grows hs

theorem posting_singleton (r : Reading α) (label : ReadLabel α) :
    r.posting label = [] ∨ ∃ update, r.posting label = [update] := by
  unfold posting
  split
  · split
    · unfold refill
      split
      · exact .inl rfl
      · split
        · exact .inr ⟨_, rfl⟩
        · exact .inl rfl
    · exact .inl rfl
  · exact .inl rfl

variable {a after : Announced α}

theorem post_of_room (hs : updates = [] ∨ ∃ update, updates = [update])
    (hr : updates ≠ [] → a.control.HasRoom) : (a.post updates).accepted = a.accepted ++ updates := by
  rcases hs with rfl | ⟨update, rfl⟩
  · exact (append_nil _).symm
  · rw [post, ControlQueue.enqueueControl_of_room (hr (cons_ne_nil _ _))]

theorem told_opened (inboundBytes : ℕ) : (opened inboundBytes : Announced α).Told :=
  ⟨rfl, _, rfl, (openedState_window (show defaultStreamWindow ≠ 0 by decide)).2⟩

theorem step_told (h : a.Told) (hroom : a.Room label) (hs : a.step threshold label = some after) : after.Told := by
  cases label with
  | reading label =>
    obtain ⟨reading, hreading, rfl⟩ := map_eq_some_iff.mp hs
    obtain ⟨ho, hw⟩ := step_grows hreading
    obtain ⟨flow, hsome, htotal⟩ := h.window
    obtain ⟨refilled, hr, hgrows⟩ := hw flow hsome
    have ha := post_of_room (posting_singleton a.reading label) hroom
    refine ⟨?_, refilled, hr, ?_⟩
    · simp only [ha, ho, h.exact]
    · simp only [ha, sum_append]; omega
  | other | sent => obtain ⟨control, -, rfl⟩ := map_eq_some_iff.mp hs; exact ⟨h.exact, h.window⟩
  | close => cases hs; exact ⟨h.exact, h.window⟩

end Announced

-- On both ends, credit that goes back to the receive window is told to the
-- Server as long as the control queue has a slot for each WINDOW_UPDATE.
theorem credit_is_told {π : Type} (size : π → ℕ) (bufferSize inboundBytes window threshold : ℕ)
    (agentLabels : List (Agent.AnnouncedLabel π)) (clientLabels : List (AnnouncedLabel α))
    (hagent : Along (Agent.Announced.step size bufferSize) Agent.Announced.Room
      (.opened inboundBytes window) agentLabels)
    (hclient : Along (Announced.step threshold) Announced.Room (.opened inboundBytes) clientLabels) :
    Always (Agent.Announced.step size bufferSize) Agent.Announced.CreditTold (.opened inboundBytes window) agentLabels ∧
      Always (Announced.step threshold) Announced.Told (.opened inboundBytes) clientLabels :=
  ⟨Agent.Announced.always_told inboundBytes window agentLabels hagent,
    always_of_invariant (fun _ _ _ => Announced.step_told) _ clientLabels
      (Announced.told_opened inboundBytes) hclient⟩

def Announced.readRun : List (AnnouncedLabel Bool) :=
  [.reading (.frame (.data [true])), .reading .receive, .reading .receive, .reading (.read 4)] ++
    List.replicate 6 (.reading (.advance .data))

theorem flushed_credit_is_told :
    Always (Agent.Announced.step id 0) Agent.Announced.CreditTold (.opened 262144 262144) Agent.Announced.flushRun ∧
      Always (Announced.step 1) Announced.Told (.opened 262144) Announced.readRun :=
  credit_is_told id 0 262144 262144 1 Agent.Announced.flushRun Announced.readRun (by decide +kernel)
    (by decide +kernel)

-- Other streams have filled the control queue. The credit is back in the window
-- of the live stream, and the Server never hears of it.
theorem full_control_queue_loses_credit :
    ∃ final, run (Agent.Announced.step id 0) (Agent.Announced.opened 262144 262144)
        (List.replicate controlQueueSize .other ++ Agent.Announced.flushRun) = some final ∧
      final.entry.present ∧ final.added = [131072] ∧ final.accepted = [] ∧
        final.entry.intake.receiveState.receiveWindow = 262144 ∧ final.entry.intake.pump = .popping :=
  exists_run_of_any (by decide +kernel)

end TunnelMesh.Client
