import TunnelMesh.Session.FairFrameWriter.Delivery

namespace TunnelMesh.Session

open Protocol RoundRobin Transition FairFrameWriter WriterRun

instance (w : FairFrameWriter) (id : UInt32) : Decidable (Unskipped w id) :=
  inferInstanceAs (Decidable (_ ∨ _ ∨ ∀ j ∈ w.order.drop (w.cursor % w.order.length), w.queued j = []))

instance TurnsKept.decidable (s : WriterRun) (label : WriterLabel) : Decidable (TurnsKept s label) := by
  cases label <;> dsimp only [TurnsKept] <;> infer_instance

namespace WriterRun

-- The streams that wait are ahead, up to `Close`. The history stays fair after it.
structure Turned (config : FairWriterConfig) (s : WriterRun) : Prop where
  delivered : Delivered config s
  ordered : s.writer.closed = false → Ordered s.writer.schedule s.history
  fair : Fair s.history

section Turned

variable {config : FairWriterConfig}

theorem not_eq_append_cons {α : Type} (before : List α) (e : α) (after : List α) : [] ≠ before ++ e :: after :=
  (List.append_ne_nil_of_right_ne_nil before (List.cons_ne_nil e after)).symm

theorem fair_nil : Fair ([] : List (Event UInt32 Frame)) := by
  intro before a first since second after hs
  exact absurd hs (not_eq_append_cons _ _ _)

theorem turned_new : Turned config (newWriterRun config) where
  delivered := delivered_new
  ordered _ := by
    refine ⟨fun a b _ hw => ?_, fair_nil⟩
    obtain ⟨before, frame, since, hs, -⟩ := hw
    exact absurd hs (not_eq_append_cons _ _ _)
  fair := fair_nil

theorem Turned.moved (h : Turned config s)
    (hopen : s.writer.closed = false) (hk : TurnsKept s label) (hm : Moved s label s' events) :
    Turned config s' := by
  obtain ⟨-, hs⟩ := h.delivered.sound hopen
  have ho : Ordered s'.writer.schedule s'.history := by
    rw [hm.history]
    exact hm.step.ordered hs (h.ordered hopen) fun hq => hm.orderly hq hk
  exact ⟨h.delivered.moved hopen hm, fun _ => ho, ho.fair⟩

theorem Turned.step (h : Turned config s) (hk : TurnsKept s label)
    (hs : s.step label = some s') : Turned config s' := by
  rcases step_cases (fun ho => (h.delivered.sound ho).1) hs with ⟨ho, events, hm⟩ | rfl | rfl
  · exact h.moved ho hk hm
  · exact h
  · refine ⟨h.delivered.close, fun ho => ?_, h.fair⟩
    rw [closed_close] at ho
    cases ho

end Turned

end WriterRun

-- In a run that makes its queues where no waiting stream is skipped, a stream that
-- has something queued from one turn of another stream to the next has a turn between.
theorem writer_fair (config : FairWriterConfig) (labels : List WriterLabel)
    (hkept : Along WriterRun.step TurnsKept (newWriterRun config) labels) :
    Always WriterRun.step (fun s => Fair s.history) (newWriterRun config) labels := by
  have hinv := always_of_invariant (fun _ _ _ h hguard hstep => h.step hguard hstep) _ labels WriterRun.turned_new hkept
  exact hinv.mono fun s h => h.fair

def dataFrame (id : UInt32) : Frame := ⟨currentVersion, FrameType.data, 0, id, 0, []⟩

theorem writer_fair_at_start :
    let labels : List WriterLabel := [.enqueueData 1 (dataFrame 1), .enqueueData 1 (dataFrame 1), .dequeue,
      .enqueueData 2 (dataFrame 2), .enqueueData 2 (dataFrame 2), .dequeue, .enqueueData 3 (dataFrame 3), .dequeue,
      .dequeue, .dequeue]
    Along WriterRun.step TurnsKept (newWriterRun ⟨0, 0⟩) labels ∧
      Always WriterRun.step (fun s => Fair s.history) (newWriterRun ⟨0, 0⟩) labels := by
  intro labels
  have hkept : Along WriterRun.step TurnsKept (newWriterRun ⟨0, 0⟩) labels := by decide +kernel
  exact ⟨hkept, writer_fair ⟨0, 0⟩ labels hkept⟩

-- Stream 1 has a turn, stream 3 gets a queue and a turn, and then it is stream 1
-- again, though stream 2 has had a frame queued all the time.
theorem new_stream_skips_waiting :
    ∃ s, run WriterRun.step (newWriterRun ⟨0, 0⟩) [.enqueueData 1 (dataFrame 1), .enqueueData 1 (dataFrame 1),
      .enqueueData 2 (dataFrame 2), .enqueueData 2 (dataFrame 2), .dequeue, .dequeue, .enqueueData 3 (dataFrame 3),
      .dequeue, .dequeue] = some s ∧ ¬Fair s.history := by
  refine (exists_run_of_any (by decide +kernel)).imp fun s hs => hs.imp_right fun (hhistory : s.history =
      [.accepted (some 1) (dataFrame 1), .accepted (some 1) (dataFrame 1), .accepted (some 2) (dataFrame 2),
        .accepted (some 2) (dataFrame 2), .served (some 2) (dataFrame 2)] ++
      .served (some 1) (dataFrame 1) :: [.accepted (some 3) (dataFrame 3), .served (some 3) (dataFrame 3)] ++
      .served (some 1) (dataFrame 1) :: []) hfair => ?_
  obtain ⟨frame, hserved⟩ := hfair _ _ _ _ _ _ hhistory (by simp) 2 (by decide) (by decide)
  simp at hserved

end TunnelMesh.Session
