import TunnelMesh.Session.FairFrameWriter.Fairness

namespace TunnelMesh.Session

open Protocol RoundRobin Transition FairFrameWriter List

namespace FairFrameWriter

-- Writers whose cursors may differ, but stand at the same stream.
def Alike (w w' : FairFrameWriter) : Prop :=
  ∃ cursor, w' = { w with cursor } ∧ (w.order = [] ∨ cursor % w.order.length = w.cursor % w.order.length)

variable {w w' : FairFrameWriter}

theorem Alike.refl (w : FairFrameWriter) : Alike w w := ⟨w.cursor, rfl, .inr rfl⟩

theorem Alike.close (h : Alike w w') : Alike w.close w'.close := by
  obtain ⟨cursor, rfl, hc⟩ := h
  unfold close
  split
  · exact ⟨cursor, rfl, hc⟩
  · exact ⟨cursor, rfl, .inl rfl⟩

theorem Alike.enqueueControl (h : Alike w w') (frame : Frame) :
    (w'.enqueueControl frame).2 = (w.enqueueControl frame).2 ∧
      Alike (w.enqueueControl frame).1 (w'.enqueueControl frame).1 := by
  obtain ⟨cursor, rfl, hc⟩ := h
  unfold enqueueControl
  split
  · exact ⟨rfl, cursor, rfl, hc⟩
  · split <;> exact ⟨rfl, cursor, rfl, hc⟩

theorem Alike.enqueueData (h : Alike w w') (id : UInt32) (frame : Frame) :
    (w'.enqueueData id frame).2 = (w.enqueueData id frame).2 ∧
      Alike (w.enqueueData id frame).1 (w'.enqueueData id frame).1 := by
  obtain ⟨cursor, rfl, hc⟩ := h
  unfold enqueueData
  dsimp only
  split
  · exact ⟨rfl, cursor, rfl, hc⟩
  cases w.streams.lookup id with
  | none => exact ⟨rfl, Alike.refl _⟩
  | some q =>
    dsimp only [pushStream]
    cases q.tryPush { frame with streamID := id } <;> exact ⟨rfl, cursor, rfl, hc⟩

theorem Alike.nextData (h : Alike w w') : w'.nextData.1 = w.nextData.1 ∧ Alike w.nextData.2 w'.nextData.2 := by
  obtain ⟨cursor, rfl, hc⟩ := h
  unfold nextData
  by_cases ho : w.order = []
  · simp only [ho, length_nil, scan, retireIdle, foldl_nil, true_and]
    exact ⟨cursor, by rw [ho], .inl ho⟩
  · have hc := hc.resolve_left ho
    have hi : w.cursor % w.order.length < w.order.length := Nat.mod_lt _ (length_pos_of_ne_nil ho)
    obtain ⟨n, hn⟩ := Nat.exists_eq_succ_of_ne_zero (length_pos_of_ne_nil ho).ne'
    have hs : ({ w with cursor } : FairFrameWriter).scan w.order.length [] =
        w.scan w.order.length [] := by
      rw [hn, scan, scan]
      simp only [hc, List.getElem?_eq_getElem hi]
    dsimp only
    rw [hs]
    exact ⟨rfl, Alike.refl _⟩

theorem Alike.next (h : Alike w w') : w'.next.1 = w.next.1 ∧ Alike w.next.2 w'.next.2 := by
  have hd := h.nextData
  obtain ⟨cursor, rfl, hc⟩ := h
  unfold next
  dsimp only
  split
  · exact ⟨rfl, cursor, rfl, hc⟩
  · cases hcontrol : w.control with
    | nil => rw [hcontrol] at hd; exact ⟨congrArg (Option.map _) hd.1, hd.2⟩
    | cons frame rest => exact ⟨rfl, cursor, rfl, hc⟩

-- The queue that was made for the frame goes away again, and the cursor stays
-- behind the end of the order.
theorem refused_eq (h : w.WellFormed) {id : UInt32} (ha : id ∉ w.streams) :
    (w.createStream id).removeStream id = { w with cursor := w.order.length } := by
  have hmem : id ∈ (w.createStream id).streams := (AList.mem_insert _).mpr (.inl rfl)
  have hn : id ∉ w.order := fun hl => ha ((h.tabled id).mp hl)
  have hs : (w.createStream id).streams.erase id = w.streams := by
    apply AList.ext
    change (w.createStream id).streams.entries.kerase id = _
    simp [createStream, kerase_of_notMem_keys ha]
  have ho := order_removeStream hmem
  rw [removeStream, if_pos hmem] at ho ⊢
  simp only [createStream, idxOf_append_of_notMem hn, idxOf_cons_self, Nat.add_zero, lt_irrefl, and_false,
    if_false, erase_append_right _ hn, erase_cons_head, append_nil] at ho hs ⊢
  rw [ho, hs]

theorem enqueueData_refused (hw : w.closed = false → w.WellFormed) {id : UInt32}
    (hr : (w.enqueueData id frame).2 = false) : (w.enqueueData id frame).1 =
      if id = 0 ∨ w.closed ∨ id ∈ w.streams then w else { w with cursor := w.order.length } := by
  unfold enqueueData at hr ⊢
  by_cases hn : id = 0 ∨ w.closed
  · rw [if_pos hn, if_pos (hn.imp_right .inl)]
  rw [if_neg hn] at hr ⊢
  cases hl : w.streams.lookup id with
  | some q =>
    rw [if_pos (.inr (.inr (AList.lookup_isSome.mp (Option.isSome_of_mem hl))))]
    simp only [hl] at hr ⊢
    cases hp : w.pushStream id q { frame with streamID := id } with
    | some _ => simp [hp] at hr
    | none => rfl
  | none =>
    have ha := AList.lookup_eq_none.mp hl
    rw [if_neg (by rw [← or_assoc]; exact not_or.mpr ⟨hn, ha⟩)]
    simp only [hl] at hr ⊢
    split at hr
    · cases hr
    · exact refused_eq (hw (by simpa using (not_or.mp hn).2)) ha

end FairFrameWriter

namespace WriterRun

variable {s s' : WriterRun}

theorem step_alike (hw : s.writer.Alike s'.writer) (hh : s'.history = s.history) (label : WriterLabel) :
    ∃ t t', s.step label = some t ∧ s'.step label = some t' ∧ t.writer.Alike t'.writer ∧ t'.history = t.history := by
  have hdata (id : UInt32) (frame : Frame) : (s.enqueueData id frame).writer.Alike (s'.enqueueData id frame).writer ∧
      (s'.enqueueData id frame).history = (s.enqueueData id frame).history := by
    have hd := hw.enqueueData id frame
    unfold enqueueData
    split <;> split <;> simp_all
  cases label with
  | enqueueData id frame => exact ⟨_, _, rfl, rfl, hdata id frame⟩
  | enqueueControl frame =>
    refine ⟨_, _, rfl, rfl, ?_⟩
    unfold enqueueControl
    split
    · exact hdata _ frame
    · have hc := hw.enqueueControl frame; split <;> split <;> simp_all
  | dequeue =>
    refine ⟨_, _, rfl, rfl, ?_⟩
    have hn := hw.next
    unfold dequeue
    split <;> split <;> simp_all
  | close => exact ⟨_, _, rfl, rfl, hw.close, hh⟩

theorem run_alike (hw : s.writer.Alike s'.writer) (hh : s'.history = s.history) (future : List WriterLabel) :
    (run step s' future).map history = (run step s future).map history := by
  induction future generalizing s s' with
  | nil => simp [hh]
  | cons label rest ih =>
    obtain ⟨t, t', ht, ht', hw, hh⟩ := step_alike hw hh label
    simp only [run, ht, ht', Option.bind_some]
    exact ih hw hh

end WriterRun

theorem refused_enqueue_invisible (config : FairWriterConfig) (labels : List WriterLabel) (s : WriterRun)
    (hrun : run WriterRun.step (newWriterRun config) labels = some s) (id : UInt32) (frame : Frame)
    (hr : (s.writer.enqueueData id frame).2 = false) :
    let w := (s.writer.enqueueData id frame).1
    (w.streams = s.writer.streams ∧ w.order = s.writer.order ∧ w.control = s.writer.control ∧
      w.closed = s.writer.closed ∧ w.order.rotate w.cursor = s.writer.order.rotate s.writer.cursor ∧
      ∀ future, (run WriterRun.step (s.enqueueData id frame) future).map WriterRun.history =
        (run WriterRun.step s future).map WriterRun.history) ↔
    id = 0 ∨ s.writer.closed ∨ id ∈ s.writer.streams ∨ s.writer.order = [] ∨
      s.writer.cursor % s.writer.order.length = 0 := by
  have hd : s.Delivered config :=
    run_preserves (fun _ _ _ h hstep => h.step hstep) WriterRun.delivered_new hrun
  have he := enqueueData_refused (fun hc => (hd.sound hc).1) hr
  constructor
  · rintro ⟨-, -, -, -, hrotate, -⟩
    by_cases hsame : id = 0 ∨ s.writer.closed ∨ id ∈ s.writer.streams
    · tauto
    · rw [he, if_neg hsame] at hrotate
      have hw := (hd.sound (by simpa using (not_or.mp (not_or.mp hsame).2).1)).1
      rw [show s.writer.order.rotate s.writer.order.length = s.writer.order from rotate_length _, eq_comm,
        hw.nodup.rotate_eq_self_iff] at hrotate
      tauto
  · intro hwhen
    have ha : s.writer.Alike (s.writer.enqueueData id frame).1 := by
      rw [he]
      split
      · exact .refl _
      · next hnew => exact ⟨_, rfl, by rw [Nat.mod_self]; tauto⟩
    have hs : s.enqueueData id frame = ⟨(s.writer.enqueueData id frame).1, s.history⟩ := by
      rcases hq : s.writer.enqueueData id frame with ⟨w, taken⟩
      rw [hq] at hr
      obtain rfl : taken = false := hr
      rw [WriterRun.enqueueData, hq]
    refine ⟨?_, ?_, ?_, ?_, ?_, fun future => ?_⟩
    rotate_right
    · rw [hs]
      apply WriterRun.run_alike ?_ ?_ future
      · exact ha
      · rfl
    all_goals
      obtain ⟨cursor, hw, hc⟩ := ha
      rw [hw]
    dsimp only
    rcases hc with ho | hc
    · rw [ho, rotate_nil, rotate_nil]
    · rw [← rotate_mod, hc, rotate_mod]

def largeFrame : Frame := { dataFrame 0 with payload := [0, 0, 0] }

theorem full_queue_refuses :
    ∃ s, run WriterRun.step (newWriterRun ⟨0, 2⟩) [.enqueueData 1 (dataFrame 1), .enqueueData 2 (dataFrame 2)] =
        some s ∧ (s.writer.enqueueData 1 largeFrame).2 = false ∧ 1 ∈ s.writer.streams ∧
      ∀ future, (run WriterRun.step (s.enqueueData 1 largeFrame) future).map WriterRun.history =
        (run WriterRun.step s future).map WriterRun.history := by
  obtain ⟨s, hrun, hr, hmem⟩ :
      ∃ s, run WriterRun.step (newWriterRun ⟨0, 2⟩) [.enqueueData 1 (dataFrame 1), .enqueueData 2 (dataFrame 2)] =
        some s ∧ (s.writer.enqueueData 1 largeFrame).2 = false ∧ 1 ∈ s.writer.streams :=
    exists_run_of_any (by decide +kernel)
  have h := (refused_enqueue_invisible ⟨0, 2⟩ _ s hrun 1 largeFrame hr).mpr (.inr (.inr (.inl hmem)))
  exact ⟨s, hrun, hr, hmem, h.2.2.2.2.2⟩

-- It is the turn of stream 2 when a frame too large for any queue is refused to a new
-- stream. Then stream 1 gets another turn before it.
theorem refused_stream_moves_cursor :
    let labels : List WriterLabel := [.enqueueData 1 (dataFrame 1), .enqueueData 2 (dataFrame 2),
      .enqueueData 1 (dataFrame 1), .enqueueData 2 (dataFrame 2), .dequeue, .dequeue]
    (run WriterRun.step (newWriterRun ⟨0, 2⟩) (labels ++ [.enqueueData 3 largeFrame, .dequeue])).map WriterRun.history ≠
      (run WriterRun.step (newWriterRun ⟨0, 2⟩) (labels ++ [.dequeue])).map WriterRun.history := by
  decide +kernel

end TunnelMesh.Session
