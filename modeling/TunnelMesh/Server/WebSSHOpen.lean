import Mathlib.Algebra.Ring.Int.Defs
import TunnelMesh.Transition

namespace TunnelMesh.Server.WebSSHOpen

open Transition Option

inductive Cause where
  | expired
  | released
  | cancelled
  | closed
  | peer
  deriving DecidableEq

-- An open stream. That of `GRPCNodeTransport` is `bound` to the context it was
-- opened with, the one of `AgentRelayTransport` is not.
structure Conn where
  bound : Bool
  ended : Option Cause
  deriving DecidableEq

-- `closing` is the deferred `stream.Close()` and `releasing` the deferred
-- `openCancel()`, which runs after it.
inductive Phase where
  | opening
  | bridging
  | closing
  | releasing
  | returned
  deriving DecidableEq

-- `Handle` from the two contexts on. `streamDone` and `openDone` say that they
-- are done, and `deadline` is that of `openCtx`.
structure Session where
  now : ℤ
  deadline : Option ℤ
  streamDone : Bool
  openDone : Bool
  conn : Option Conn
  phase : Phase

-- The target that the selector found.
inductive Target where
  | here
  | otherNode
  deriving DecidableEq

-- `copied` is the return of the first copy of the bridge, `watch` its watcher,
-- which has seen `streamCtx` done.
inductive Label where
  | tick (elapsed : ℕ)
  | cancel
  | openStream (target : Option Target)
  | peerEnd
  | watch
  | copied
  | unwind

def start (now openTimeout : ℤ) : Session :=
  ⟨now, if 0 < openTimeout then some (now + openTimeout) else none, false, false, none, .opening⟩

def Conn.finish (cause : Cause) (conn : Conn) : Conn := { conn with ended := conn.ended.or (some cause) }

def Conn.spared (conn : Conn) : Bool := conn.ended ≠ some .expired && conn.ended ≠ some .released

theorem Conn.spared_finish {conn : Conn} (h : conn.spared)
    (hc : (Conn.mk conn.bound (some cause)).spared ∨ conn.ended.isSome) : (conn.finish cause).spared := by
  cases he : conn.ended <;> simp_all [finish, spared]

namespace Session

variable (s : Session)

def closeStream (cause : Cause) : Session := { s with conn := s.conn.map (.finish cause) }

def endOpen (cause : Cause) : Session :=
  if s.openDone then s
  else { s with openDone := true, conn := s.conn.map fun conn => if conn.bound then conn.finish cause else conn }

def cancel : Session := { s.endOpen .cancelled with streamDone := true }

def pass (now : ℤ) : Session :=
  if s.deadline.any (· ≤ now) then endOpen { s with now } .expired else { s with now }

-- `none` stands for the errors on the way. A context that is done makes both
-- transports fail.
def openStream : Option Target → Session
  | some target =>
    if s.openDone then { s with conn := none, phase := .releasing }
    else { s with conn := some ⟨target = .otherNode, none⟩, phase := .bridging }
  | none => { s with conn := none, phase := .releasing }

def step : Label → Option Session
  | .tick elapsed => some (s.pass (s.now + elapsed))
  | .cancel => some s.cancel
  | .openStream target => if s.phase = .opening then some (s.openStream target) else none
  | .peerEnd => some (s.closeStream .peer)
  | .watch => if s.phase = .bridging ∧ s.streamDone then some (s.closeStream .closed) else none
  | .copied =>
    if s.phase = .bridging then some { s.cancel.closeStream .closed with phase := .closing } else none
  | .unwind =>
    match s.phase with
    | .closing => some { s.closeStream .closed with phase := .releasing }
    | .releasing =>
      some { (if s.deadline.isSome then s.endOpen .released else s).cancel with phase := .returned }
    | _ => none

-- The deadline does not pass while a stream to another node is in use.
def inTime : Label → Bool
  | .tick elapsed => s.conn.all (fun conn => !conn.bound || conn.ended.isSome) ||
      !s.deadline.any (· ≤ s.now + elapsed)
  | _ => true

def Undisturbed : Prop := ∀ conn ∈ s.conn, conn.spared

structure Kept : Prop where
  undisturbed : s.Undisturbed
  closed : s.phase = .releasing → ∀ conn ∈ s.conn, conn.ended.isSome

variable {s}

theorem Kept.close (h : s.Kept) (hc : (Conn.mk true (some cause)).spared) (phase : Phase) :
    Kept { s.closeStream cause with phase } := by
  constructor
  · intro conn hm
    obtain ⟨before, hb, rfl⟩ := map_eq_some_iff.mp hm
    exact Conn.spared_finish (h.undisturbed before hb) (.inl hc)
  · intro _ conn hm
    obtain ⟨before, -, rfl⟩ := map_eq_some_iff.mp hm
    simp [Conn.finish]

-- The end of `openCtx` does no harm if it is not for the timeout, or if the
-- stream that is bound to it has ended before.
theorem Kept.endOpen (h : s.Kept) (hc : ∀ conn ∈ s.conn, conn.bound →
    (Conn.mk conn.bound (some cause)).spared ∨ conn.ended.isSome) : (s.endOpen cause).Kept := by
  unfold Session.endOpen
  split
  · exact h
  constructor
  · intro conn hm
    obtain ⟨before, hb, rfl⟩ := map_eq_some_iff.mp hm
    split
    · next hbound => exact Conn.spared_finish (h.undisturbed before hb) (hc before hb hbound)
    · exact h.undisturbed before hb
  · intro hp conn hm
    obtain ⟨before, hb, rfl⟩ := map_eq_some_iff.mp hm
    split <;> simp [Conn.finish, h.closed hp before hb]

theorem Kept.cancel (h : s.Kept) : s.cancel.Kept :=
  have he := h.endOpen fun _ _ _ => .inl rfl
  ⟨he.undisturbed, he.closed⟩

theorem step_kept (h : s.Kept) (hg : s.inTime label) (hs : s.step label = some next) : next.Kept := by
  cases label with
  | tick elapsed =>
    cases hs
    have hk (now : ℤ) : Kept { s with now } := ⟨h.undisturbed, h.closed⟩
    unfold pass
    split
    · next hd =>
      refine (hk _).endOpen fun conn hm hb => .inr ?_
      simp only [mem_def] at hm
      simpa [inTime, hd, hm, hb] using hg
    · exact hk _
  | cancel => cases hs; exact h.cancel
  | openStream target =>
    obtain ⟨-, rfl⟩ := guard_eq_some hs
    unfold openStream
    split
    · split
      · exact ⟨by simp [Undisturbed], by simp⟩
      · refine ⟨?_, by simp⟩
        rintro conn ⟨⟩
        rfl
    · exact ⟨by simp [Undisturbed], by simp⟩
  | peerEnd => cases hs; exact h.close rfl s.phase
  | watch => obtain ⟨-, rfl⟩ := guard_eq_some hs; exact h.close rfl s.phase
  | copied => obtain ⟨-, rfl⟩ := guard_eq_some hs; exact h.cancel.close rfl .closing
  | unwind =>
    simp only [step] at hs
    split at hs <;> cases hs
    · exact h.close rfl .releasing
    · next hp =>
      have hr : Kept (if s.deadline.isSome then s.endOpen .released else s) := by
        split
        · exact h.endOpen fun conn hm _ => .inr (h.closed hp conn hm)
        · exact h
      exact ⟨hr.cancel.undisturbed, by simp⟩

theorem open_timeout_spares_stream (now openTimeout : ℤ) (labels : List Label)
    (ha : Along step (fun s label => s.inTime label) (start now openTimeout) labels) :
    Always step Undisturbed (start now openTimeout) labels :=
  (always_of_invariant (fun _ _ _ h hg hs => step_kept h hg hs) (start now openTimeout) labels
    ⟨by simp [start, Undisturbed], by simp [start]⟩ ha).mono fun _ h => h.undisturbed

theorem short_session_undisturbed :
    let labels := [.openStream (some .otherNode), .tick 9, .copied, .unwind, .unwind, .tick 9]
    (run step (start 0 10) labels).isSome ∧ Always step Undisturbed (start 0 10) labels :=
  ⟨by decide, open_timeout_spares_stream 0 10 _ (by decide)⟩

theorem timeout_ends_established_stream :
    ∃ s, run step (start 0 10) [.openStream (some .otherNode), .tick 10] = some s ∧ s.phase = .bridging ∧
      s.streamDone = false ∧ s.conn = some ⟨true, some .expired⟩ :=
  exists_run_of_any (by decide)

end Session

end TunnelMesh.Server.WebSSHOpen
