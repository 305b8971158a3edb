import TunnelMesh.Session.FairFrameWriter.Fairness

namespace TunnelMesh.Session

open Protocol RoundRobin Transition FairFrameWriter List

-- `Run` with its writer: the frame in the hands of the sender is in no queue, and
-- `returned` are the sends that are over.
structure Sending where
  run : WriterRun
  inFlight : Option (Event UInt32 Frame)
  returned : List (Event UInt32 Frame)

inductive SendLabel where
  | writer (label : WriterLabel)
  | returned

def FairFrameWriter.hasQueued (w : FairFrameWriter) : Bool :=
  !w.control.isEmpty || w.streams.entries.any fun stream => !stream.2.frames.isEmpty

namespace Sending

def new (config : FairWriterConfig) : Sending := ⟨newWriterRun config, none, []⟩

def step (s : Sending) : SendLabel → Option Sending
  | .writer .dequeue =>
    if s.inFlight.isSome then none
    else some ⟨s.run.dequeue, s.run.writer.next.1.map fun taken => .served taken.1 taken.2, s.returned⟩
  | .writer label => (s.run.step label).map fun run => { s with run }
  | .returned => s.inFlight.map fun sent => { s with inFlight := none, returned := s.returned ++ [sent] }

structure Accounted (config : FairWriterConfig) (s : Sending) : Prop where
  delivered : s.run.Delivered config
  served : ∀ channel, served channel s.run.history = served channel (s.returned ++ s.inFlight.toList)

variable {config : FairWriterConfig} {s next : Sending}

theorem served_append (channel : Option UInt32) (a b : List (Event UInt32 Frame)) :
    served channel (a ++ b) = served channel a ++ served channel b := filterMap_append

theorem step_history {run run' : WriterRun} (h : run.step label = some run') :
    ∃ events, run'.history = run.history ++ events ∧
      (label ≠ .dequeue → ∀ channel, RoundRobin.served channel events = []) := by
  have hd (id : UInt32) (frame : Frame) : ∃ events, (run.enqueueData id frame).history = run.history ++ events ∧
      ∀ channel, RoundRobin.served channel events = [] := by
    unfold WriterRun.enqueueData
    split
    · exact ⟨_, rfl, fun _ => rfl⟩
    · exact ⟨[], (append_nil _).symm, fun _ => rfl⟩
  cases label with
  | enqueueData id frame =>
    cases h
    exact (hd id frame).imp fun _ he => ⟨he.1, fun _ => he.2⟩
  | enqueueControl frame =>
    cases h
    unfold WriterRun.enqueueControl
    split
    · exact (hd _ frame).imp fun _ he => ⟨he.1, fun _ => he.2⟩
    · split
      · exact ⟨_, rfl, fun _ _ => rfl⟩
      · exact ⟨[], (append_nil _).symm, fun _ _ => rfl⟩
  | dequeue =>
    cases h
    unfold WriterRun.dequeue
    split
    · exact ⟨_, rfl, fun hn => absurd rfl hn⟩
    · exact ⟨[], (append_nil _).symm, fun _ _ => rfl⟩
  | close => cases h; exact ⟨[], (append_nil _).symm, fun _ _ => rfl⟩

theorem step_accounted {label : SendLabel} (h : s.Accounted config) (hs : s.step label = some next) :
    next.Accounted config ∧ s.run.history <+: next.run.history := by
  cases label with
  | returned =>
    obtain ⟨sent, hf, rfl⟩ := Option.map_eq_some_iff.mp hs
    refine ⟨⟨h.delivered, fun channel => ?_⟩, prefix_rfl⟩
    rw [h.served channel, hf]
    simp
  | writer label =>
    by_cases hl : label = .dequeue
    · subst hl
      simp only [step, Option.ite_none_left_eq_some] at hs
      obtain ⟨hi, hs⟩ := hs
      cases hs
      have hn : s.inFlight = none := by simpa using hi
      have hr : s.run.step .dequeue = some s.run.dequeue := rfl
      obtain ⟨events, hh, -⟩ := step_history hr
      refine ⟨⟨h.delivered.step hr, fun channel => ?_⟩, ⟨events, hh.symm⟩⟩
      have hserved := h.served channel
      rw [hn] at hserved
      unfold WriterRun.dequeue
      split
      · next hnext => simp [hnext, served_append, hserved]
      · next hnext => simp [hnext, hserved]
    · have hs : (s.run.step label).map (fun run => { s with run }) = some next := by
        cases label with
        | dequeue => exact absurd rfl hl
        | _ => exact hs
      obtain ⟨run, hr, rfl⟩ := Option.map_eq_some_iff.mp hs
      obtain ⟨events, hh, hn⟩ := step_history hr
      refine ⟨⟨h.delivered.step hr, fun channel => ?_⟩, ⟨events, hh.symm⟩⟩
      rw [← h.served channel, hh, served_append, hn hl, append_nil]

theorem run_accounted (h : s.Accounted config) {labels : List SendLabel} (hr : Transition.run step s labels = some next) :
    next.Accounted config ∧ s.run.history <+: next.run.history := by
  have hstep (t : Sending) (label : SendLabel) (u : Sending)
      (hi : t.Accounted config ∧ s.run.history <+: t.run.history) (hs : t.step label = some u) :
      u.Accounted config ∧ s.run.history <+: u.run.history :=
    ⟨(step_accounted hi.1 hs).1, hi.2.trans (step_accounted hi.1 hs).2⟩
  exact run_preserves hstep ⟨h, prefix_rfl⟩ hr

theorem waiting_of_drained {w : FairFrameWriter} (h : w.hasQueued = false) (channel : Option UInt32) :
    w.schedule.waiting channel = [] := by
  simp only [hasQueued, Bool.or_eq_false_iff, any_eq_false, Bool.not_eq_true', Bool.not_eq_false] at h
  cases channel with
  | none => simpa [Schedule.waiting, schedule] using h.1
  | some id =>
    show w.queued id = []
    cases hl : w.streams.lookup id with
    | none => exact queued_of_not_mem (AList.lookup_eq_none.mp hl)
    | some q => rw [queued_of_lookup hl]; simpa using h.2 ⟨id, q⟩ (AList.mem_lookup_iff.mp hl)

-- `Drain` is called in `s` and returns in `t`. It is a barrier if no frame is in the
-- hands of the sender when it looks at the queues.
theorem drain_is_barrier (config : FairWriterConfig) (before after : List SendLabel) (s t : Sending)
    (hs : Transition.run step (new config) before = some s) (ht : Transition.run step s after = some t)
    (hopen : t.run.writer.closed = false) (hd : t.run.writer.hasQueued = false) (hidle : t.inFlight = none)
    (channel : Option UInt32) : accepted channel s.run.history <+: served channel t.returned := by
  have h0 : (new config).Accounted config := ⟨WriterRun.delivered_new, fun _ => rfl⟩
  obtain ⟨ha, hp⟩ := run_accounted (run_accounted h0 hs).1 ht
  have hfifo := ((ha.delivered.sound hopen).2).fifo channel
  rw [waiting_of_drained hd, append_nil, ha.served, hidle, Option.toList_none, append_nil] at hfifo
  rw [hfifo]
  exact hp.filterMap _

theorem sent_before_drain : ∃ s t, Transition.run step (new ⟨0, 0⟩) [.writer (.enqueueData 1 (dataFrame 1))] = some s ∧
      Transition.run step s [.writer .dequeue, .returned] = some t ∧ t.run.writer.closed = false ∧
      t.run.writer.hasQueued = false ∧ t.inFlight = none ∧
      accepted (some 1) s.run.history <+: served (some 1) t.returned := by
  refine ⟨_, _, rfl, rfl, rfl, by decide +kernel, rfl, ?_⟩
  exact drain_is_barrier ⟨0, 0⟩ [.writer (.enqueueData 1 (dataFrame 1))] [.writer .dequeue, .returned] _ _ rfl rfl rfl
    (by decide +kernel) rfl (some 1)

theorem drain_leaves_send :
    ((Transition.run step (new ⟨0, 0⟩) [.writer (.enqueueData 1 (dataFrame 1)), .writer .dequeue]).any fun s =>
      !s.run.writer.closed && !s.run.writer.hasQueued && s.returned.isEmpty &&
        accepted (some 1) s.run.history = [dataFrame 1]) := by decide +kernel

end Sending

-- The control frames with their `done` channels, which are the numbers of the calls
-- of `EnqueueControlSync`. A call returns nil when its channel is closed: `woken`.
-- `sent` are the calls of the sender that returned nil.
structure SyncWriter where
  control : List (Frame × Option ℕ)
  closed : Bool
  inFlight : Option (Frame × Option ℕ)
  calls : List Frame
  woken : List ℕ
  sent : List (Frame × Option ℕ)

inductive SyncLabel where
  | enqueueControl (frame : Frame)
  | enqueueControlSync (frame : Frame)
  | take
  | takeData (frame : Frame)
  | returned (ok : Bool)
  | close

namespace SyncWriter

def new : SyncWriter := ⟨[], false, none, [], [], []⟩

-- `Run` takes the frame of a stream when there is no control frame. A failed send
-- closes the channel of its frame like one that succeeded.
def step (size : ℕ) (s : SyncWriter) : SyncLabel → Option SyncWriter
  | .enqueueControl frame =>
    if s.closed ∨ size ≤ s.control.length then none else some { s with control := s.control ++ [(frame, none)] }
  | .enqueueControlSync frame =>
    if s.closed ∨ size ≤ s.control.length then none
    else some { s with control := s.control ++ [(frame, some s.calls.length)], calls := s.calls ++ [frame] }
  | .take =>
    if s.closed ∨ s.inFlight ≠ none then none
    else s.control.head?.map fun item => { s with control := s.control.tail, inFlight := some item }
  | .takeData frame =>
    if s.closed ∨ s.inFlight ≠ none ∨ s.control ≠ [] then none else some { s with inFlight := some (frame, none) }
  | .returned ok =>
    s.inFlight.map fun item =>
      { s with
        inFlight := none, woken := s.woken ++ item.2.toList, sent := if ok then s.sent ++ [item] else s.sent }
  | .close =>
    some { s with closed := true, control := [], woken := s.woken ++ s.control.filterMap Prod.snd }

-- No synchronous frame is in the hands of a sender that fails or queued at `Close`.
def Undisturbed (s : SyncWriter) : SyncLabel → Prop
  | .returned false => ∀ item ∈ s.inFlight, item.2 = none
  | .close => ∀ item ∈ s.control, item.2 = none
  | _ => True

def Named (s : SyncWriter) (item : Frame × Option ℕ) : Prop := ∀ d ∈ item.2, s.calls[d]? = some item.1

def Truthful (s : SyncWriter) : Prop :=
  ∀ d ∈ s.woken, ∃ frame, s.calls[d]? = some frame ∧ (frame, some d) ∈ s.sent

structure Sound (s : SyncWriter) : Prop where
  queued : ∀ item ∈ s.control, s.Named item
  inFlight : ∀ item ∈ s.inFlight, s.Named item
  truthful : s.Truthful

theorem step_sound {s next : SyncWriter} (h : s.Sound) (hu : s.Undisturbed label)
    (hs : s.step size label = some next) : next.Sound := by
  cases label with
  | enqueueControl frame =>
    simp only [step, Option.ite_none_left_eq_some] at hs
    cases hs.2
    exact { h with queued := forall_mem_append.mpr ⟨h.queued, forall_mem_singleton.mpr fun d hd => by cases hd⟩ }
  | enqueueControlSync frame =>
    simp only [step, Option.ite_none_left_eq_some] at hs
    cases hs.2
    -- the calls made before keep their numbers
    have hk {d : ℕ} {f : Frame} (hd : s.calls[d]? = some f) : (s.calls ++ [frame])[d]? = some f :=
      (getElem?_append_left (List.getElem?_eq_some_iff.mp hd).1).trans hd
    refine ⟨forall_mem_append.mpr ⟨fun item hi d hd => hk (h.queued item hi d hd), ?_⟩,
      fun item hi d hd => hk (h.inFlight item hi d hd), fun d hd => ?_⟩
    · refine forall_mem_singleton.mpr fun d hd => ?_
      cases hd
      simp
    · obtain ⟨f, hf, hsent⟩ := h.truthful d hd; exact ⟨f, hk hf, hsent⟩
  | take =>
    simp only [step, Option.ite_none_left_eq_some, Option.map_eq_some_iff] at hs
    obtain ⟨-, item, hh, rfl⟩ := hs
    refine ⟨fun other ho => h.queued other (mem_of_mem_tail ho), fun other ho => ?_, h.truthful⟩
    cases ho
    exact h.queued _ (mem_of_mem_head? hh)
  | takeData frame =>
    simp only [step, Option.ite_none_left_eq_some] at hs
    cases hs.2
    refine { h with inFlight := fun item hi d hd => ?_ }
    cases hi
    cases hd
  | returned ok =>
    obtain ⟨item, hi, rfl⟩ := Option.map_eq_some_iff.mp hs
    refine ⟨h.queued, (fun other ho => by cases ho), forall_mem_append.mpr ⟨fun d hd => ?_, fun d hd => ?_⟩⟩
    · obtain ⟨f, hf, hsent⟩ := h.truthful d hd
      refine ⟨f, hf, ?_⟩
      dsimp only
      split
      · exact mem_append_left _ hsent
      · exact hsent
    · have hd : item.2 = some d := Option.mem_toList.mp hd
      cases ok with
      | false => simp [hu item hi] at hd
      | true => exact ⟨item.1, h.inFlight item hi d hd, by simp [← hd]⟩
  | close =>
    cases hs
    have hn : s.control.filterMap Prod.snd = [] := filterMap_eq_nil_iff.mpr hu
    refine ⟨forall_mem_nil _, h.inFlight, fun d hd => h.truthful d ?_⟩
    simpa [hn] using hd

-- A call returns nil only after its own frame was sent, as long as no sender fails
-- with a synchronous frame and no such frame is pending at `Close`.
theorem sync_send_truthful (size : ℕ) (labels : List SyncLabel) (hu : Along (step size) Undisturbed new labels) :
    Always (step size) Truthful new labels :=
  (always_of_invariant (fun _ _ _ => step_sound) new labels
    ⟨forall_mem_nil _, (fun _ hi => by cases hi), forall_mem_nil _⟩ hu).mono fun _ h => h.truthful

theorem one_frame_sent_in_sync :
    let labels : List SyncLabel := [.enqueueControlSync (dataFrame 0), .take, .returned true]
    Along (step 64) Undisturbed new labels ∧ Always (step 64) Truthful new labels := by
  have hu : Along (step 64) Undisturbed new [.enqueueControlSync (dataFrame 0), .take, .returned true] :=
    fun _ _ => ⟨trivial, fun _ _ => ⟨trivial, fun _ _ => ⟨trivial, trivial⟩⟩⟩
  exact ⟨hu, sync_send_truthful 64 _ hu⟩

-- The sender fails, and the call returns nil all the same. So it does when the
-- writer is closed while the frame is queued.
theorem failed_send_reported_sent :
    ∃ s t, Transition.run (step 64) new [.enqueueControlSync (dataFrame 0), .take, .returned false] = some s ∧
      Transition.run (step 64) new [.enqueueControlSync (dataFrame 0), .close] = some t ∧ ¬s.Truthful ∧ ¬t.Truthful := by
  refine ⟨_, _, rfl, rfl, fun h => ?_, fun h => ?_⟩ <;>
  · obtain ⟨frame, -, hsent⟩ := h 0 (by decide); cases hsent

end SyncWriter

end TunnelMesh.Session
