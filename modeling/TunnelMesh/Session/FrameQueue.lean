import Mathlib.Algebra.BigOperators.Group.List.Basic
import Mathlib.Algebra.GroupWithZero.Nat

namespace TunnelMesh.Session

open Option List

-- `BoundedFrameQueue`: a queue of frames that is bounded by the bytes of their
-- payloads, which `size` gives, and by as many frames.
structure FrameQueue (φ : Type) where
  frames : List φ
  maxBytes : ℕ
  closed : Bool
  deriving DecidableEq

namespace FrameQueue

variable {φ : Type}

def empty (maxBytes : ℕ) : FrameQueue φ := ⟨[], if maxBytes = 0 then 1 else maxBytes, false⟩

def bytes (size : φ → ℕ) (q : FrameQueue φ) : ℕ := (q.frames.map size).sum

def tryPush (size : φ → ℕ) (q : FrameQueue φ) (frame : φ) : Option (FrameQueue φ) :=
  if q.closed then none
  else if q.maxBytes < q.bytes size + size frame ∨ q.maxBytes ≤ q.frames.length then none
  else some { q with frames := q.frames ++ [frame] }

def pop (q : FrameQueue φ) : Option (φ × FrameQueue φ) :=
  match q.frames with
  | [] => none
  | frame :: rest => some (frame, { q with frames := rest })

variable {q next : FrameQueue φ}

theorem tryPush_eq_some (h : q.tryPush size frame = some next) :
    next = { q with frames := q.frames ++ [frame] } := by
  unfold tryPush at h
  split_ifs at h
  exact (some.inj h).symm

theorem bytes_tryPush (h : q.tryPush size frame = some next) :
    next.bytes size = q.bytes size + size frame := by
  rw [tryPush_eq_some h]
  simp [bytes]

theorem bytes_pushed (he : size frame = 0) : ((q.tryPush size frame).getD q).bytes size = q.bytes size := by
  cases hp : q.tryPush size frame with
  | none => rfl
  | some next => rw [getD_some, bytes_tryPush hp, he, Nat.add_zero]

theorem maxBytes_pushed (size : φ → ℕ) (q : FrameQueue φ) (frame : φ) :
    ((q.tryPush size frame).getD q).maxBytes = q.maxBytes := by
  cases hp : q.tryPush size frame with
  | none => rfl
  | some next => rw [getD_some, tryPush_eq_some hp]

theorem closed_pushed (size : φ → ℕ) (q : FrameQueue φ) (frame : φ) :
    ((q.tryPush size frame).getD q).closed = q.closed := by
  cases hp : q.tryPush size frame with
  | none => rfl
  | some next => rw [getD_some, tryPush_eq_some hp]

theorem pop_eq_some (h : q.pop = some (frame, next)) :
    q.frames = frame :: next.frames ∧ next = { q with frames := next.frames } := by
  obtain ⟨frames, maxBytes, closed⟩ := q
  cases frames with
  | nil => cases h
  | cons head rest => cases h; exact ⟨rfl, rfl⟩

theorem bytes_pop (h : q.pop = some (frame, next)) :
    q.bytes size = size frame + next.bytes size := by simp [bytes, (pop_eq_some h).1]

theorem length_le_bytes (h : ∀ frame ∈ q.frames, 0 < size frame) : q.frames.length ≤ q.bytes size := by
  obtain ⟨frames, maxBytes, closed⟩ := q
  simp only [bytes] at h ⊢
  induction frames with
  | nil => exact Nat.zero_le _
  | cons frame rest ih =>
    have hfirst := h frame mem_cons_self
    have hrest := ih fun f hmem => h f (mem_cons_of_mem _ hmem)
    rw [length_cons, map_cons, sum_cons]
    omega

theorem tryPush_of_room (ho : q.closed = false)
    (hf : ∀ f ∈ q.frames, 0 < size f) (hframe : 0 < size frame) (hroom : q.bytes size + size frame ≤ q.maxBytes) :
    q.tryPush size frame = some { q with frames := q.frames ++ [frame] } := by
  have hcount := length_le_bytes hf
  rw [tryPush, if_neg (by simp [ho]), if_neg (by omega)]

end FrameQueue

-- The control frames that a `FairFrameWriter` has queued, and whether it is
-- closed. HALF_CLOSE is not among them, as it goes with the DATA of its stream.
structure ControlQueue (φ : Type) where
  items : List φ
  closed : Bool

def controlQueueSize : ℕ := 64

namespace ControlQueue

variable {φ : Type}

def empty : ControlQueue φ := ⟨[], false⟩

variable (q : ControlQueue φ)

def enqueueControl (frame : φ) : Option (ControlQueue φ) :=
  if q.closed then none
  else if controlQueueSize ≤ q.items.length then none
  else some { q with items := q.items ++ [frame] }

def next : Option (φ × ControlQueue φ) :=
  if q.closed then none
  else
    match q.items with
    | [] => none
    | frame :: rest => some (frame, { q with items := rest })

def close (q : ControlQueue φ) : ControlQueue φ := { q with items := [], closed := true }

def HasRoom : Prop := q.closed = false ∧ q.items.length < controlQueueSize
  deriving Decidable

theorem enqueueControl_of_room {q : ControlQueue φ} (h : q.HasRoom) (frame : φ) :
    q.enqueueControl frame = some { q with items := q.items ++ [frame] } := by
  have hslot := h.2
  rw [enqueueControl, if_neg (by simp [h.1]), if_neg (by omega)]

end ControlQueue

end TunnelMesh.Session
