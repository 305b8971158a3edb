import TunnelMesh.Session.FairFrameWriter.Theorems

namespace TunnelMesh.Session

open Protocol RoundRobin Transition FairFrameWriter List WriterRun

namespace WriterRun

-- What holds up to `Close`, and what a history keeps after it.
structure Delivered (config : FairWriterConfig) (s : WriterRun) : Prop where
  config : s.writer.config = config.withDefaults
  sound : s.writer.closed = false → s.writer.WellFormed ∧ Sound s.writer.schedule s.history
  first : UrgentFirst s.history
  inOrder : ∀ channel, served channel s.history <+: accepted channel s.history
  channelled : Channelled s.history

section Delivered

variable {config : FairWriterConfig} {s s' : WriterRun}

theorem delivered_new : Delivered config (newWriterRun config) where
  config := rfl
  sound _ := by
    have hp : 0 < config.withDefaults.streamQueueBytes := by
      unfold FairWriterConfig.withDefaults
      dsimp only
      split <;> omega
    refine ⟨⟨nodup_nil, fun id => ?_, Nat.le_refl 0, hp, fun id q h => nomatch h⟩, ?_⟩
    · exact ⟨fun h => (nomatch h), fun h => absurd h (AList.notMem_empty id)⟩
    · refine ⟨nodup_nil, fun id h => absurd rfl h, fun channel => ?_, fun _ _ _ _ h => ?_⟩
      · cases channel <;> rfl
      · exact absurd h.symm (append_ne_nil_of_right_ne_nil _ (cons_ne_nil _ _))
  first _ _ _ _ h := absurd h.symm (append_ne_nil_of_right_ne_nil _ (cons_ne_nil _ _))
  inOrder channel := prefix_rfl
  channelled _ _ h := nomatch h

theorem Delivered.moved (h : Delivered config s)
    (ho : s.writer.closed = false) (hm : Moved s label s' events) : Delivered config s' := by
  obtain ⟨-, hs⟩ := h.sound ho
  have hn := hm.history ▸ hm.step.sound hs
  refine ⟨hm.config.trans h.config, fun _ => ⟨hm.wellFormed, hn⟩, hn.first, fun channel => ?_, ?_⟩
  · exact ⟨_, hn.fifo channel⟩
  · intro channel frame he
    rw [hm.history] at he
    rcases mem_append.mp he with hold | hnew
    · exact h.channelled channel frame hold
    · exact hm.channelled channel frame hnew

theorem enqueueData_of_closed (hc : s.writer.closed) (id : UInt32) (frame : Frame) : s.enqueueData id frame = s := by
  rw [enqueueData, FairFrameWriter.enqueueData]
  rw [if_pos (.inr hc)]

theorem enqueueControl_of_closed (hc : s.writer.closed) (frame : Frame) : s.enqueueControl frame = s := by
  unfold enqueueControl
  split
  · rw [enqueueData_of_closed hc]
  · rw [FairFrameWriter.enqueueControl, if_pos hc]

theorem dequeue_of_closed (hc : s.writer.closed) : s.dequeue = s := by rw [dequeue, FairFrameWriter.next, if_pos hc]

theorem closed_close (w : FairFrameWriter) : w.close.closed := by
  unfold FairFrameWriter.close
  split
  · assumption
  · rfl

theorem Delivered.close (h : Delivered config s) : Delivered config { s with writer := s.writer.close } := by
  have hc : s.writer.close.config = s.writer.config := by
    unfold FairFrameWriter.close
    split <;> rfl
  refine { h with config := hc.trans h.config, sound := fun ho => ?_ }
  rw [closed_close] at ho
  cases ho

theorem step_cases (hw : s.writer.closed = false → s.writer.WellFormed) (hs : s.step label = some s') :
    (s.writer.closed = false ∧ ∃ events, Moved s label s' events) ∨ s' = s ∨
      s' = { s with writer := s.writer.close } := by
  cases label with
  | enqueueData id frame =>
    cases hs
    cases hc : s.writer.closed with
    | true => exact .inr (.inl (enqueueData_of_closed hc id frame))
    | false => exact .inl ⟨rfl, enqueueData_moved (hw hc) id frame _ fun ht => ht⟩
  | enqueueControl frame =>
    cases hs
    cases hc : s.writer.closed with
    | true => exact .inr (.inl (enqueueControl_of_closed hc frame))
    | false => exact .inl ⟨rfl, enqueueControl_moved (hw hc) frame⟩
  | dequeue =>
    cases hs
    cases hc : s.writer.closed with
    | true => exact .inr (.inl (dequeue_of_closed hc))
    | false => exact .inl ⟨rfl, dequeue_moved (hw hc)⟩
  | close => cases hs; exact .inr (.inr rfl)

theorem Delivered.step (h : Delivered config s) (hs : s.step label = some s') : Delivered config s' := by
  rcases step_cases (fun ho => (h.sound ho).1) hs with ⟨ho, events, hm⟩ | rfl | rfl
  · exact h.moved ho hm
  · exact h
  · exact h.close

theorem Delivered.before (h : Delivered config s) {before after : List (Event UInt32 Frame)}
    (hsplit : s.history = before ++ .served channel frame :: after) :
    ∃ rest, accepted channel s.history = served channel before ++ frame :: rest := by
  obtain ⟨rest, hr⟩ := h.inOrder channel
  have hs : served channel s.history = served channel before ++ frame :: served channel after := by
    rw [hsplit, ← singleton_append, served_append, served_append, served_served, if_pos rfl, singleton_append]
  refine ⟨served channel after ++ rest, ?_⟩
  rw [← hr, hs, append_assoc, cons_append]

theorem Delivered.channel_of_ordered (h : Delivered config s)
    (hs : .served channel frame ∈ s.history) (ho : isStreamOrdered frame) : channel = some frame.streamID := by
  have ha := mem_accepted.mp ((h.inOrder channel).subset (mem_served.mpr hs))
  rcases h.channelled channel frame ha with hn | ⟨-, hf⟩
  · exact hn
  · rw [ho] at hf; cases hf

end Delivered

theorem next_eq_none_iff {w : FairFrameWriter} (h : w.WellFormed) (ho : w.closed = false) :
    w.next.1 = none ↔ w.control = [] ∧ ∀ id, w.queued id = [] := by
  have ht := h.taken
  rw [FairFrameWriter.next, if_neg (by rw [ho]; exact Bool.false_ne_true)]
  cases hcontrol : w.control with
  | cons frame rest => exact ⟨nofun, fun hn => nomatch hn.1⟩
  | nil =>
    generalize w.nextData = result at ht
    cases ht with
    | nothing _ _ _ hq _ => exact ⟨fun _ => ⟨rfl, hq⟩, fun _ => rfl⟩
    | frame _ _ _ _ _ hq _ =>
      refine ⟨nofun, fun hn => ?_⟩
      rw [hn.2] at hq
      cases hq

end WriterRun

-- The frames of a stream go out as they were accepted, HALF_CLOSE in its place and
-- control frames first. Until `Close` none is lost: whatever is accepted and not yet
-- out is queued, and as long as something is queued a pass hands out a frame.
theorem writer_delivery (config : FairWriterConfig) (labels : List WriterLabel) : Always WriterRun.step (fun s =>
      (∀ before channel frame after, s.history = before ++ .served channel frame :: after →
        ∃ rest, accepted channel s.history = served channel before ++ frame :: rest) ∧
      (∀ channel frame, .served channel frame ∈ s.history → isStreamOrdered frame → channel = some frame.streamID) ∧
      UrgentFirst s.history ∧
      (s.writer.closed = false →
        (∀ channel, served channel s.history ++ s.writer.schedule.waiting channel = accepted channel s.history) ∧
        (s.writer.next.1 = none ↔ ∀ channel, s.writer.schedule.waiting channel = []) ∧
        s.writer.order.Nodup ∧ (∀ id, id ∈ s.writer.order ↔ id ∈ s.writer.streams) ∧
        ∀ id q, s.writer.streams.lookup id = some q →
          q.bytes = payloadBytes q.frames ∧ q.bytes ≤ config.withDefaults.streamQueueBytes))
      (newWriterRun config) labels := by
  have hinv : Always WriterRun.step (WriterRun.Delivered config) (newWriterRun config) labels :=
    always_of_step (fun _ _ _ h hstep => h.step hstep) _ labels WriterRun.delivered_new
  refine hinv.mono fun s h => ⟨fun _ _ _ _ => h.before, fun _ _ => h.channel_of_ordered, h.first, fun hopen => ?_⟩
  obtain ⟨hwellFormed, hsound⟩ := h.sound hopen
  refine ⟨hsound.fifo, ?_, hwellFormed.nodup, hwellFormed.tabled, fun id q hlookup => ?_⟩
  · rw [WriterRun.next_eq_none_iff hwellFormed hopen]
    exact ⟨fun hempty channel => by
      cases channel with
      | none => exact hempty.1
      | some id => exact hempty.2 id, fun hempty => ⟨hempty none, fun id => hempty (some id)⟩⟩
  · have hcounted := hwellFormed.queues id q hlookup
    exact ⟨hcounted.counted, h.config ▸ hcounted.bounded⟩

end TunnelMesh.Session
