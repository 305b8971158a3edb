import TunnelMesh.Agent.StreamEntry
import TunnelMesh.Transition

namespace TunnelMesh.Agent

open Session Option

variable {π : Type}

-- `pendingStream`. The token says which OPEN_STREAM of the stream id it is for.
structure PendingStream (π : Type) where
  token : ℕ
  data : List π
  pendingBytes : ℕ
  halfClosed : Bool
  strict : Bool

-- The side of a `streamEntry` that takes in frames, and its target. In the
-- queue `none` is a HALF_CLOSE, and `hand` is the frame that `pumpTarget` has
-- popped. Recorded are the payloads handed to the target, and those handed over
-- at the first `CloseWrite`.
structure Target (π : Type) where
  token : ℕ
  strict : Bool
  present : Bool
  localHalf : Bool
  inbound : FrameQueue (Option π)
  hand : Option (Option π)
  written : List π
  closedAfter : Option (List π)

namespace Target

def opened (token : ℕ) (strict : Bool) (inboundBytes : ℕ) : Target π :=
  ⟨token, strict, true, false, .empty inboundBytes, none, [], none⟩

def removeAndClose (t : Target π) : Target π :=
  { t with present := false, inbound := { t.inbound with frames := [], closed := true } }

def finish (t : Target π) : Target π :=
  { t with present := false, inbound := { t.inbound with closed := true } }

-- `credit` says whether the receive state takes the payload. A stream that was
-- opened without a window has none and takes all.
def admitInbound (size : π → ℕ) (t : Target π) (credit : Bool) (payload : π) : Option (Target π) :=
  if credit then
    (t.inbound.tryPush (frameSize size) (some payload)).map fun inbound => { t with inbound }
  else none

def handleHalfClose (size : π → ℕ) (t : Target π) : Target π :=
  if t.present = false ∨ t.localHalf then t
  else { t with localHalf := true, inbound := (t.inbound.tryPush (frameSize size) none).getD t.inbound }

def pumpTarget (t : Target π) (outcome : Outcome) : Option (Target π) :=
  match t.hand, outcome with
  | none, _ => t.inbound.pop.map fun popped => { t with inbound := popped.2, hand := some popped.1 }
  | some (some payload), .ok => some { t with hand := none, written := t.written ++ [payload] }
  | some (some payload), .failed =>
    some { t with hand := none, written := t.written ++ [payload] }.removeAndClose
  | some none, .ok => some { t with hand := none, closedAfter := some (t.closedAfter.getD t.written) }
  | some none, .failed => some { t with hand := none }.removeAndClose

end Target

-- Where a job of the `DialExecutor` stands: the dial, its result on the way to
-- `completeDial`, the early DATA and half-close that `completeDial` admits after
-- it has published the entry, and `removeCancel`.
inductive DialStage (π : Type) where
  | dialing
  | dialed (ok : Bool)
  | opening (early : List π) (halfClosed : Bool)
  | finished

def DialStage.connected : DialStage π → Bool
  | .dialed ok => ok
  | .dialing | .opening _ _ | .finished => false

structure DialJob (π : Type) where
  token : ℕ
  stage : DialStage π

inductive FrameReader (π : Type) where
  | idle
  | submitting
  | buffering (payload : π)
  | refusing
  | admitting (payload : π)
  | halfClosing

def FrameReader.isIdle : FrameReader π → Bool
  | .idle => true
  | _ => false

-- What a `StreamDispatcher` and its executor have for one stream id. `cancels`
-- keeps a second job of the id out. Recorded are the payloads since the last
-- admitted OPEN_STREAM, how many came before the first HALF_CLOSE, and which
-- opens were removed while pending.
structure StreamSlot (π : Type) where
  opens : ℕ
  pending : Option (PendingStream π)
  target : Option (Target π)
  job : Option (DialJob π)
  reader : FrameReader π
  closed : Bool
  received : List π
  halfAt : Option ℕ
  removed : List ℕ

inductive SlotLabel (π : Type) where
  | opening (strict : Bool)
  | data (payload : π)
  | halfClose
  | reset
  | handle (ok : Bool)
  | dialed (ok : Bool)
  | completeDial
  | admitEarly (ok : Bool)
  | removeCancel
  | pump (outcome : Outcome)
  | retire (drain : Bool)
  | close

namespace StreamSlot

def empty : StreamSlot π := ⟨0, none, none, none, .idle, false, [], none, []⟩

variable (s : StreamSlot π)

def isLive : Bool := s.target.any (·.present)

def holdsConnection : Bool := s.job.any (·.stage.connected)

def closeTarget : StreamSlot π :=
  { s with target := s.target.map fun t => if t.present = true then t.removeAndClose else t }

-- A pending stream leaves for one of the three reasons of `Handle`. The dial
-- is cancelled then, and what it answers is open.
def dropPending : StreamSlot π :=
  { s with pending := none, removed := s.removed ++ (s.pending.map (·.token)).toList }

-- OPEN_STREAM up to `Submit`. A target that has left the table is not followed
-- any more: its queue is closed.
def handleOpen (strict : Bool) : StreamSlot π :=
  if s.closed ∨ s.isLive ∨ s.pending.isSome then s
  else
    { s with
      opens := s.opens + 1
      pending := some ⟨s.opens, [], 0, false, strict⟩
      target := none
      reader := .submitting
      received := []
      halfAt := none }

def submit (accepted : Bool) : StreamSlot π :=
  if accepted ∧ s.job.isNone then { s with job := some ⟨s.opens - 1, .dialing⟩ }
  else { s with pending := none }

def handleData (payload : π) : StreamSlot π :=
  let s : StreamSlot π := { s with received := s.received ++ [payload] }
  if s.isLive then
    if s.target.any (·.localHalf) then s.closeTarget else { s with reader := .admitting payload }
  else
    match s.pending with
    | some pending => { s with reader := if pending.strict then .refusing else .buffering payload }
    | none => s

variable (size : π → ℕ) (inboundBytes : ℕ) (s : StreamSlot π)

def buffer (payload : π) : StreamSlot π :=
  match s.pending with
  | none => s
  | some pending =>
    if inboundBytes < pending.pendingBytes + size payload then s.dropPending
    else
      { s with
        pending := some { pending with
          data := pending.data ++ [payload]
          pendingBytes := pending.pendingBytes + size payload } }

def admitPayload (credit : Bool) (payload : π) : StreamSlot π :=
  { s with target := s.target.map fun t => (t.admitInbound size credit payload).getD t.removeAndClose }

def handleHalfClose : StreamSlot π :=
  let s : StreamSlot π := { s with halfAt := some (s.halfAt.getD s.received.length) }
  if s.isLive then
    if s.target.any (·.localHalf) then s else { s with reader := .halfClosing }
  else { s with pending := s.pending.map fun pending => { pending with halfClosed := true } }

def handleReset : StreamSlot π := s.dropPending.closeTarget

def handleNext (ok : Bool) : Option (StreamSlot π) :=
  let rest := { s with reader := .idle }
  match s.reader with
  | .idle => none
  | .submitting => some (rest.submit ok)
  | .buffering payload => some (rest.buffer size inboundBytes payload)
  | .refusing => some rest.dropPending
  | .admitting payload => some (rest.admitPayload size ok payload)
  | .halfClosing => some { rest with target := s.target.map (·.handleHalfClose size) }

-- The section of `completeDial` that takes the pending entry, whichever OPEN it
-- is for, and publishes the stream.
def completeDial (token : ℕ) (ok : Bool) : StreamSlot π :=
  if ok = false ∨ s.closed ∨ s.isLive then
    { s with pending := none, job := some ⟨token, .finished⟩ }
  else
    { s with
      pending := none
      target := some (.opened token (s.pending.any (·.strict)) inboundBytes)
      job := some ⟨token, .opening (s.pending.elim [] (·.data)) (s.pending.any (·.halfClosed))⟩ }

def admitEarly (token : ℕ) (ok : Bool) :
    List π → Bool → StreamSlot π
  | payload :: rest, halfClosed =>
    match s.target.bind fun t => t.admitInbound size ok payload with
    | some target => { s with target := some target, job := some ⟨token, .opening rest halfClosed⟩ }
    | none => { s with target := s.target.map (·.removeAndClose), job := some ⟨token, .finished⟩ }
  | [], true =>
    { s with target := s.target.map (·.handleHalfClose size), job := some ⟨token, .opening [] false⟩ }
  | [], false =>
    { s with
      target := if ok then s.target else s.target.map (·.removeAndClose)
      job := some ⟨token, .finished⟩ }

def work (label : SlotLabel π) : Option (StreamSlot π) :=
  match s.job, label with
  | some ⟨token, .dialing⟩, .dialed ok => some { s with job := some ⟨token, .dialed ok⟩ }
  | some ⟨token, .dialed ok⟩, .completeDial => some (s.completeDial inboundBytes token ok)
  | some ⟨token, .opening early halfClosed⟩, .admitEarly ok => some (s.admitEarly size token ok early halfClosed)
  | some ⟨_, .finished⟩, .removeCancel => some { s with job := none }
  | _, _ => none

-- `retire` is an end of the stream that `readBack`, `closeTargetWrite` or a
-- WINDOW_UPDATE brings about.
def step : SlotLabel π → Option (StreamSlot π)
  | .opening strict => if s.reader.isIdle then some (s.handleOpen strict) else none
  | .data payload => if s.reader.isIdle then some (s.handleData payload) else none
  | .halfClose => if s.reader.isIdle then some s.handleHalfClose else none
  | .reset => if s.reader.isIdle then some s.handleReset else none
  | .handle ok => s.handleNext size inboundBytes ok
  | .pump outcome => (s.target.bind fun t => t.pumpTarget outcome).map fun target => { s with target := some target }
  | .retire drain =>
    if s.isLive then
      some { s with target := s.target.map fun t => if drain then t.finish else t.removeAndClose }
    else none
  | .close => some { s.closeTarget with closed := true }
  | label => s.work size inboundBytes label

end StreamSlot

namespace Target

-- What no step of a target changes; and a stream that has left the table does
-- not come back.
structure Same (t next : Target π) : Prop where
  token : next.token = t.token
  strict : next.strict = t.strict
  present : next.present → t.present

variable {t : Target π}

theorem Same.refl (t : Target π) : t.Same t := ⟨rfl, rfl, id⟩

theorem same_removeAndClose (t : Target π) : t.Same t.removeAndClose := ⟨rfl, rfl, nofun⟩

theorem same_finish (t : Target π) : t.Same t.finish := ⟨rfl, rfl, nofun⟩

theorem same_admitInbound (hok : t.admitInbound size credit payload = some next) : t.Same next := by
  simp only [admitInbound, ite_none_right_eq_some] at hok
  obtain ⟨inbound, -, rfl⟩ := map_eq_some_iff.mp hok.2
  exact ⟨rfl, rfl, id⟩

theorem same_admitted (size : π → ℕ) (t : Target π) (credit : Bool) (payload : π) :
    t.Same ((t.admitInbound size credit payload).getD t.removeAndClose) := by
  cases hok : t.admitInbound size credit payload with
  | none => exact same_removeAndClose t
  | some admitted => exact same_admitInbound hok

theorem same_handleHalfClose (size : π → ℕ) (t : Target π) : t.Same (t.handleHalfClose size) := by
  unfold handleHalfClose
  split <;> exact ⟨rfl, rfl, id⟩

theorem same_pumpTarget (hs : t.pumpTarget outcome = some next) : t.Same next := by
  unfold pumpTarget at hs
  split at hs
  · obtain ⟨popped, -, rfl⟩ := map_eq_some_iff.mp hs; exact ⟨rfl, rfl, id⟩
  all_goals cases hs
  · exact ⟨rfl, rfl, id⟩
  · exact ⟨rfl, rfl, nofun⟩
  · exact ⟨rfl, rfl, id⟩
  · exact ⟨rfl, rfl, nofun⟩

end Target

namespace StreamSlot

theorem closeTarget_target (s : StreamSlot π) :
    ∀ t' ∈ s.closeTarget.target, ∃ t ∈ s.target, t.Same t' ∧ (t' = t.removeAndClose ∨ t' = t) := by
  intro t' ht'
  obtain ⟨t, ht, rfl⟩ := map_eq_some_iff.mp ht'
  split
  · exact ⟨t, ht, t.same_removeAndClose, .inl rfl⟩
  · exact ⟨t, ht, .refl t, .inr rfl⟩

theorem isLive_iff (s : StreamSlot π) : s.isLive ↔ ∃ t ∈ s.target, t.present := by
  cases ht : s.target with
  | none | some => simp [isLive, ht]

end StreamSlot

end TunnelMesh.Agent
