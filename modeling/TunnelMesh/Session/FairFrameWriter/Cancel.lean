import TunnelMesh.Session.FairFrameWriter

namespace TunnelMesh.Session

open Transition Option

-- Where `Run` stands. In `looked` it holds the lock and its context had no error; in
-- `waiting` it is on the list of the condition, without the lock.
inductive RunPhase where
  | locking | looked | waiting | sending | returned
  deriving DecidableEq

structure Running where
  run : WriterRun
  phase : RunPhase
  cancelled : Bool
  watched : Bool

inductive RunLabel where
  | cancel | broadcast | watchDone | look | take
  | sent (ok : Bool)
  | enqueueData (streamID : UInt32) (frame : Protocol.Frame) (signal : Bool)
  | enqueueControl (frame : Protocol.Frame) (signal : Bool)
  | close

namespace Running

-- `Run` on a writer, with its context cancelled before or not.
def start (run : WriterRun) (cancelled : Bool) : Running := ⟨run, .locking, cancelled, false⟩

def wake : RunPhase → RunPhase
  | .waiting => .locking
  | phase => phase

variable (s : Running)

def quit : Running := { s with run.writer := s.run.writer.close, phase := .returned }

-- A call that needs the lock. Its signal may go to a `Drain` that waits too.
def locked (run : WriterRun) (signal : Bool) : Option Running :=
  if s.phase = .looked then none else some { s with run, phase := if signal then wake s.phase else s.phase }

def step : RunLabel → Option Running
  | .cancel => some { s with cancelled := true }
  | .broadcast =>
    if s.cancelled ∧ ¬ s.watched then some { s with phase := wake s.phase, watched := true } else none
  | .watchDone => if s.phase = .returned then some { s with watched := true } else none
  | .look =>
    if s.phase ≠ .locking then none
    else if s.run.writer.closed ∨ s.cancelled then some s.quit
    else some { s with phase := .looked }
  | .take =>
    if s.phase ≠ .looked then none
    else some { s with run := s.run.dequeue, phase := if s.run.writer.next.1.isSome then .sending else .waiting }
  | .sent ok =>
    if s.phase ≠ .sending then none
    else if ok ∧ ¬ s.cancelled then some { s with phase := .locking }
    else some s.quit
  | .enqueueData streamID frame signal => s.locked (s.run.enqueueData streamID frame) signal
  | .enqueueControl frame signal => s.locked (s.run.enqueueControl frame) signal
  | .close => s.locked { s.run with writer := s.run.writer.close } true

def Stuck : Prop := s.cancelled ∧ s.watched ∧ s.phase = .waiting
  deriving Decidable

-- `Run` is not between its look at the context and its wait when the watcher broadcasts.
def heard : RunLabel → Bool
  | .broadcast => s.phase ≠ .looked
  | _ => true

def Told : Prop :=
  s.watched → s.phase = .returned ∨ s.cancelled ∧ (s.phase = .locking ∨ s.phase = .sending)

theorem locked_told {s next : Running} (h : s.Told) (hs : s.locked w signal = some next) : next.Told := by
  obtain ⟨-, hs⟩ := ite_none_left_eq_some.mp hs
  cases hs
  intro hw
  rcases h hw with h | ⟨hc, h | h⟩ <;> cases signal <;> simp [wake, *]

theorem step_told {s next : Running} (h : s.Told) (hg : s.heard label)
    (hs : s.step label = some next) : next.Told := by
  cases label with
  | cancel => cases hs; exact fun hw => (h hw).imp_right fun h => ⟨rfl, h.2⟩
  | broadcast =>
    obtain ⟨⟨hc, -⟩, rfl⟩ := guard_eq_some hs
    intro _
    cases hp : s.phase with
    | looked => simp [heard, hp] at hg
    | _ => simp [wake, hc]
  | watchDone => obtain ⟨hp, rfl⟩ := guard_eq_some hs; exact fun _ => .inl hp
  | look =>
    simp only [step, ite_none_left_eq_some, not_not] at hs
    obtain ⟨hp, hs⟩ := hs
    split at hs <;> cases hs
    · exact fun _ => .inl rfl
    · next hn =>
      intro hw
      simp_all [Told]
  | take =>
    obtain ⟨hp, hs⟩ := ite_none_left_eq_some.mp hs
    cases hs
    intro hw
    simp_all [Told]
  | sent ok =>
    simp only [step, ite_none_left_eq_some] at hs
    obtain ⟨hp, hs⟩ := hs
    split at hs <;> cases hs
    · next hn =>
      intro hw
      simp_all [Told]
    · exact fun _ => .inl rfl
  | enqueueData | enqueueControl | close => exact locked_told h hs

theorem cancel_reaches_run (run : WriterRun) (cancelled : Bool) (labels : List RunLabel)
    (ha : Along step (fun s label => s.heard label) (start run cancelled) labels) :
    Always step (fun s => ¬ s.Stuck) (start run cancelled) labels := by
  have hi : (start run cancelled).Told := by simp [Told, start]
  have ht := always_of_invariant (fun _ _ _ h hg hs => step_told h hg hs) (start run cancelled) labels hi ha
  exact ht.mono fun s h hs => by simp_all [Told, Stuck]

theorem waiting_run_quits :
    ∃ s, Transition.run step (start (newWriterRun ⟨0, 0⟩) false) [.look, .take, .cancel, .broadcast, .look] = some s ∧
      s.phase = .returned ∧
      Always step (fun s => ¬ s.Stuck) (start (newWriterRun ⟨0, 0⟩) false) [.look, .take, .cancel, .broadcast, .look] :=
  ⟨_, rfl, rfl, cancel_reaches_run _ _ _ (by decide +kernel)⟩

theorem broadcast_before_wait_lost :
    ∃ s, Transition.run step (start (newWriterRun ⟨0, 0⟩) false) [.look, .cancel, .broadcast, .take] = some s ∧
      s.Stuck :=
  exists_run_of_any (by decide +kernel)

end Running

end TunnelMesh.Session
