import TunnelMesh.Transition

namespace TunnelMesh.Relay

-- Where a worker of `ClientStreamService` stands with the job: `checking` is the
-- look at the stream's context after `open` has returned.
inductive OpenWorker where
  | queued
  | opening
  | checking
  | delivering (accepted : Bool)
  | done
  deriving DecidableEq

-- Where the goroutine stands that waits for the future: before it removes the
-- opening, before it registers the stream, before it sends the OPEN_RESULT.
inductive OpenWaiter where
  | waiting
  | removing (accepted : Bool)
  | registering
  | answering
  | finished
  deriving DecidableEq

-- Where the frame loop stands with the stream. Its last three stages are the
-- teardown, which has seen in the table what `retiring` says.
inductive FrameLoop where
  | idle
  | cancelling (remove : Bool)
  | removing
  | retiring (seen : Bool)
  | clearing
  | over
  deriving DecidableEq

inductive AgentConnection where
  | none
  | opened
  | closed
  deriving DecidableEq

-- A strict open of a Client's session. A session opens an id once (`seen`), so
-- that the opens do not meet. `opening` and `entry` are the entries of the two
-- tables, and `cancelled` records that the frame loop or the end of the session
-- has cancelled the open.
structure ClientOpen where
  worker : OpenWorker
  jobDone : Bool
  timedOut : Bool
  future : Option Bool
  connection : AgentConnection
  waiter : OpenWaiter
  opening : Bool
  entry : Bool
  loop : FrameLoop
  sessionDone : Bool
  cancelled : Bool

inductive OpenFrame where
  | data
  | halfClose
  | reset

inductive OpenLabel where
  | start
  | answer (accepted : Bool)
  | timeout
  | check
  | deliver
  | closeService
  | wait (done : Bool)
  | remove
  | register
  | sendResult (sent : Bool)
  | retire
  | frame (f : OpenFrame)
  | cancel
  | removeOpening
  | teardown
  | retireStreams
  | cancelOpenings
  | sessionDone

namespace ClientOpen

def opened (full : Bool) : ClientOpen where
  worker := if full then .done else .queued
  jobDone := full
  timedOut := false
  future := if full then some false else none
  connection := .none
  waiter := .waiting
  opening := true
  entry := false
  loop := .idle
  sessionDone := false
  cancelled := false

variable (s : ClientOpen)

-- The OPEN_RESULT is not yet due: the stream is not in the table, and the
-- goroutine goes on.
def underWay : Bool :=
  match s.waiter with
  | .waiting | .removing _ | .registering => true
  | .answering | .finished => false

def retire : ClientOpen :=
  if s.entry then { s with entry := false, connection := .closed } else s

def check : ClientOpen :=
  if s.connection = .opened ∧ (s.jobDone ∨ s.timedOut) then
    { s with connection := .closed, worker := .delivering false }
  else { s with worker := .delivering (s.connection = .opened) }

def deliver (accepted : Bool) : ClientOpen :=
  { s with future := some accepted, worker := .done, jobDone := s.jobDone || !accepted }

def wait : Bool → Option ClientOpen
  | false => s.future.map fun accepted => { s with waiter := .removing accepted, future := none }
  | true => if s.sessionDone then some { s with waiter := .removing false } else none

def register : ClientOpen :=
  if s.entry then { s with connection := .closed, waiter := .finished }
  else { s with entry := true, waiter := .answering }

-- The frame finds neither an opening nor a stream, and is answered with a RESET.
def missed : ClientOpen := { s with cancelled := s.cancelled || s.underWay }

-- A RESET removes the opening before it cancels it, DATA and HALF_CLOSE remove
-- it afterwards.
def handleFrame (f : OpenFrame) : ClientOpen :=
  if s.opening then
    match f with
    | .reset => { s with opening := false, loop := .cancelling false }
    | .data | .halfClose => { s with loop := .cancelling true }
  else if s.entry = false then s.missed
  else
    match f with
    | .reset => s.retire
    | .data | .halfClose => s

def cancel : ClientOpen := { s with jobDone := true, cancelled := true }

-- The ends of a live stream that are not told apart here are `retire`.
def step : OpenLabel → Option ClientOpen
  | .start => if s.worker = .queued then some { s with worker := .opening } else none
  | .answer accepted =>
    if s.worker = .opening then
      some { s with worker := .checking, connection := if accepted then .opened else .none }
    else none
  | .timeout =>
    if s.worker = .opening ∨ s.worker = .checking then some { s with timedOut := true } else none
  | .check => if s.worker = .checking then some s.check else none
  | .deliver =>
    match s.worker with
    | .delivering accepted => some (s.deliver accepted)
    | _ => none
  | .closeService =>
    if s.worker = .queued then some { s with worker := .done, jobDone := true, future := some false } else none
  | .wait done => if s.waiter = .waiting then s.wait done else none
  | .remove =>
    match s.waiter with
    | .removing accepted =>
      some { s with opening := false, waiter := if accepted then .registering else .finished }
    | _ => none
  | .register => if s.waiter = .registering then some s.register else none
  | .sendResult sent =>
    if s.waiter = .answering then
      if sent then some { s with waiter := .finished } else some { s.retire with waiter := .finished }
    else none
  | .retire => some s.retire
  | .frame f => if s.loop = .idle then some (s.handleFrame f) else none
  | .cancel =>
    match s.loop with
    | .cancelling remove => some { s.cancel with loop := if remove then .removing else .idle }
    | _ => none
  | .removeOpening => if s.loop = .removing then some { s with opening := false, loop := .idle } else none
  | .teardown => if s.loop = .idle then some { s with loop := .retiring s.entry } else none
  | .retireStreams =>
    match s.loop with
    | .retiring seen =>
      some (if seen then { s.retire with loop := .clearing } else { s with loop := .clearing })
    | _ => none
  | .cancelOpenings =>
    if s.loop = .clearing then
      some (if s.opening then { s.cancel with loop := .over } else { s.missed with loop := .over })
    else none
  | .sessionDone => some { s.missed with sessionDone := true, jobDone := true }

def Unpassed : Prop := s.connection = .opened → s.worker = .checking

def Timely : OpenLabel → Prop
  | .cancel => s.Unpassed
  | .frame _ => s.opening = false → s.underWay → s.Unpassed
  | .cancelOpenings => s.opening ∨ s.underWay → s.Unpassed
  | .sessionDone => s.underWay → s.Unpassed
  | _ => True

-- The stream of a cancelled open is not in the table, and its connection is
-- closed, at the latest by the check that comes next.
def Abandoned : Prop :=
  s.cancelled → s.entry = false ∧
    (s.connection = .opened → ∃ next, s.step .check = some next ∧ next.connection = .closed)

end ClientOpen

end TunnelMesh.Relay
