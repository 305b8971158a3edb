import Mathlib.Data.List.AList
import TunnelMesh.Protocol.Frame
import TunnelMesh.RoundRobin
import TunnelMesh.Transition

namespace TunnelMesh.Session

open Protocol RoundRobin

structure BoundedFrameQueue where
  frames : List Frame
  bytes : ℤ
  maxBytes : ℤ
  closed : Bool

def newBoundedFrameQueue (maxBytes : ℤ) : BoundedFrameQueue := ⟨[], 0, if maxBytes ≤ 0 then 1 else maxBytes, false⟩

namespace BoundedFrameQueue

def tryPush (q : BoundedFrameQueue) (frame : Frame) : Option BoundedFrameQueue :=
  if q.closed then none
  else if q.maxBytes < q.bytes + frame.payload.length ∨ q.maxBytes ≤ q.frames.length then none
  else some { q with frames := q.frames ++ [frame], bytes := q.bytes + frame.payload.length }

def tryPop (q : BoundedFrameQueue) : Option (Frame × BoundedFrameQueue) :=
  match q.frames with
  | [] => none
  | frame :: rest => some (frame, { q with frames := rest, bytes := q.bytes - frame.payload.length })

end BoundedFrameQueue

-- The sizes that `NewFairFrameWriter` replaces by its own where they are not positive.
structure FairWriterConfig where
  controlQueueSize : ℤ
  streamQueueBytes : ℤ

variable (config : FairWriterConfig)

def FairWriterConfig.withDefaults : FairWriterConfig where
  controlQueueSize := if config.controlQueueSize ≤ 0 then 64 else config.controlQueueSize
  streamQueueBytes := if config.streamQueueBytes ≤ 0 then 262144 else config.streamQueueBytes

structure FairFrameWriter where
  config : FairWriterConfig
  control : List Frame
  streams : AList fun _ : UInt32 => BoundedFrameQueue
  order : List UInt32
  cursor : ℕ
  closed : Bool

def newFairFrameWriter : FairFrameWriter := ⟨config.withDefaults, [], ∅, [], 0, false⟩

namespace FairFrameWriter

variable (w : FairFrameWriter)

def enqueueControl (frame : Frame) : FairFrameWriter × Bool :=
  if w.closed then (w, false)
  else if w.config.controlQueueSize ≤ w.control.length then (w, false)
  else ({ w with control := w.control ++ [frame] }, true)

variable (streamID : UInt32)

def removeStream : FairFrameWriter :=
  if streamID ∈ w.streams then
    { w with
      streams := w.streams.erase streamID
      order := w.order.eraseIdx (w.order.idxOf streamID)
      cursor := if streamID ∈ w.order ∧ w.order.idxOf streamID < w.cursor then w.cursor - 1 else w.cursor }
  else w

def createStream : FairFrameWriter :=
  { w with
    streams := w.streams.insert streamID (newBoundedFrameQueue w.config.streamQueueBytes)
    order := w.order ++ [streamID]
    cursor := w.order.length }

def pushStream (q : BoundedFrameQueue) (frame : Frame) :
    Option FairFrameWriter :=
  (q.tryPush frame).map fun q => { w with streams := w.streams.insert streamID q }

def enqueueData (frame : Frame) : FairFrameWriter × Bool :=
  let frame : Frame := { frame with streamID }
  if streamID = 0 ∨ w.closed then (w, false)
  else match w.streams.lookup streamID with
    | some q =>
      match w.pushStream streamID q frame with
      | some next => (next, true)
      | none => (w, false)
    | none =>
      let created := w.createStream streamID
      match created.pushStream streamID (newBoundedFrameQueue w.config.streamQueueBytes) frame with
      | some next => (next, true)
      | none => (created.removeStream streamID, false)

-- A HALF_CLOSE must not overtake the DATA of its stream.
def isStreamOrdered (frame : Frame) : Bool := frame.type == FrameType.halfClose && frame.streamID != 0

-- The loop of `nextDataLocked`, for as many turns as there are still to go and the
-- streams that were found idle so far.
def scan (w : FairFrameWriter) : ℕ → List UInt32 → Option (UInt32 × Frame) × FairFrameWriter × List UInt32
  | 0, idle => (none, w, idle)
  | turns + 1, idle =>
    match w.order[w.cursor % w.order.length]? with
    | none => (none, w, idle)
    | some streamID =>
      let moved : FairFrameWriter := { w with cursor := (w.cursor % w.order.length + 1) % w.order.length }
      match w.streams.lookup streamID with
      | none => moved.scan turns idle
      | some q =>
        match q.tryPop with
        | some (frame, q) => (some (streamID, frame), { moved with streams := w.streams.insert streamID q }, idle)
        | none => moved.scan turns (idle ++ [streamID])

def retireIdle (ids : List UInt32) : FairFrameWriter :=
  ids.foldl (fun w id =>
    match w.streams.lookup id with
    | none => w
    | some q => if q.frames = [] then w.removeStream id else w) w

def nextData : Option (UInt32 × Frame) × FairFrameWriter :=
  let scanned := w.scan w.order.length []
  (scanned.1, scanned.2.1.retireIdle scanned.2.2)

-- One pass of `next`, with the stream a frame is taken from. A pass that finds
-- nothing waits for the next one.
def next : Option (Option UInt32 × Frame) × FairFrameWriter :=
  if w.closed then (none, w)
  else match w.control with
    | frame :: rest => (some (none, frame), { w with control := rest })
    | [] => (w.nextData.1.map fun taken => (some taken.1, taken.2), w.nextData.2)

def close : FairFrameWriter :=
  if w.closed then w else { w with closed := true, control := [], streams := ∅, order := [] }

end FairFrameWriter

inductive WriterLabel where
  | enqueueData (streamID : UInt32) (frame : Frame)
  | enqueueControl (frame : Frame)
  | dequeue
  | close
  deriving DecidableEq

structure WriterRun where
  writer : FairFrameWriter
  history : List (Event UInt32 Frame)

def newWriterRun : WriterRun := ⟨newFairFrameWriter config, []⟩

namespace WriterRun

variable (s : WriterRun)

def enqueueData (streamID : UInt32) (frame : Frame) : WriterRun :=
  match s.writer.enqueueData streamID frame with
  | (w, true) => ⟨w, s.history ++ [.accepted (some streamID) { frame with streamID }]⟩
  | (w, false) => ⟨w, s.history⟩

def enqueueControl (frame : Frame) : WriterRun :=
  if FairFrameWriter.isStreamOrdered frame then s.enqueueData frame.streamID frame
  else match s.writer.enqueueControl frame with
    | (w, true) => ⟨w, s.history ++ [.accepted none frame]⟩
    | (w, false) => ⟨w, s.history⟩

def dequeue : WriterRun :=
  match s.writer.next with
  | (some (channel, frame), w) => ⟨w, s.history ++ [.served channel frame]⟩
  | (none, w) => ⟨w, s.history⟩

def step : WriterLabel → Option WriterRun
  | .enqueueData streamID frame => some (s.enqueueData streamID frame)
  | .enqueueControl frame => some (s.enqueueControl frame)
  | .dequeue => some s.dequeue
  | .close => some { s with writer := s.writer.close }

end WriterRun

end TunnelMesh.Session
