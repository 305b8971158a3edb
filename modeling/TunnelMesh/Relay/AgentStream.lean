import TunnelMesh.Protocol.Window
import TunnelMesh.Transition

namespace TunnelMesh.Relay

open Protocol

variable {α : Type}

inductive RelayError where
  | eof
  | closedPipe
  | invalidFrame
  | backpressure
  | reset
  | disconnected
  deriving DecidableEq

-- The fields of `agentRelayStream` that its read side uses. A channel of
-- capacity one that only wakes its receiver is the token in it, and `attached`
-- says that the transport still has the stream.
structure AgentRelayStream (α : Type) where
  readBuf : List α
  readPos : ℕ
  receiveBudget : ℕ
  receiveUnacked : ℕ
  err : Option RelayError
  localHalf : Bool
  remoteHalf : Bool
  dataSignal : Bool
  controlSignal : Bool
  controlCh : List ℕ
  done : Bool
  attached : Bool

namespace AgentRelayStream

def opened (window : ℕ) : AgentRelayStream α where
  readBuf := []
  readPos := 0
  receiveBudget := window
  receiveUnacked := 0
  err := none
  localHalf := false
  remoteHalf := false
  dataSignal := false
  controlSignal := false
  controlCh := []
  done := false
  attached := true

variable (s : AgentRelayStream α)

def unread : List α := s.readBuf.drop s.readPos

def take (size : ℕ) : AgentRelayStream α :=
  let pos := s.readPos + min size s.unread.length
  if pos = s.readBuf.length then { s with readBuf := [], readPos := 0 } else { s with readPos := pos }

def compact : AgentRelayStream α :=
  if 0 < s.readPos then { s with readBuf := s.unread, readPos := 0 } else s

def budget : ℕ :=
  if s.receiveBudget = 0 then defaultServerReceiveWindow else s.receiveBudget

def enqueue (payload : List α) : AgentRelayStream α × Except RelayError Unit :=
  if s.remoteHalf then (s, .error .invalidFrame)
  else
    match s.err with
    | some e => (s, .error e)
    | none =>
      let s := s.compact
      if s.budget < s.readBuf.length + payload.length then (s, .error .backpressure)
      else if payload.length = 0 then (s, .ok ())
      else ({ s with readBuf := s.readBuf ++ payload, dataSignal := true }, .ok ())

-- A later failure replaces the end of file that a HALF_CLOSE has published. The
-- section and the closing of `done` are one step.
def finish (e : RelayError) : AgentRelayStream α :=
  { s with
    err := if s.err = none ∨ (s.err = some .eof ∧ e ≠ .eof) then some e else s.err
    done := true }

def detach : AgentRelayStream α := { s with attached := false }

def releaseReceiveWindow (windows : AgentRelayWindowConfig) (s : AgentRelayStream α) (consumed : ℕ) :
    AgentRelayStream α × ℕ :=
  if consumed = 0 ∨ s.err ≠ none then (s, 0)
  else
    let unacked := uint32 (s.receiveUnacked + uint32 consumed)
    let remaining := uint32 (s.receiveBudget - s.unread.length)
    if shouldFlushWindowUpdate remaining unacked (windows.thresholdFor (uint32 s.receiveBudget)) then
      ({ s with receiveUnacked := 0 }, unacked)
    else ({ s with receiveUnacked := unacked }, 0)

-- The mirror of an Agent's credit for the Client: sixteen slots, and what does
-- not fit is dropped.
def mirror (credit : ℕ) : AgentRelayStream α :=
  if s.controlCh.length < 16 then { s with controlCh := s.controlCh ++ [credit], controlSignal := true } else s

def readControl : Option (ℕ × AgentRelayStream α) :=
  match s.controlCh with
  | [] => none
  | credit :: rest => some (credit, { s with controlCh := rest, controlSignal := false })

def closeWrite : AgentRelayStream α :=
  if (s.err ≠ none ∧ s.err ≠ some .eof) ∨ s.localHalf then s
  else { s with localHalf := true, attached := s.attached && !s.remoteHalf }

end AgentRelayStream

inductive Reader (α : Type) where
  | idle
  | looking (size : ℕ)
  | polling (size : ℕ)
  | checking (size : ℕ)
  | waiting (size : ℕ)
  | releasing (bytes : List α)
  | flushing (bytes : List α) (update : ℕ)

-- Which of the ready channels a waiting call takes, and whether the session
-- refuses a WINDOW_UPDATE.
inductive Choice where
  | data
  | control
  | done
  | refused
  deriving DecidableEq

structure Moved (α : Type) where
  stream : AgentRelayStream α
  reader : Reader α
  result : Option (List α × Option RelayError)
  updates : List ℕ

def Reader.move (windows : AgentRelayWindowConfig) (s : AgentRelayStream α) :
    Reader α → Choice → Option (Moved α)
  | .idle, _ => none
  | .looking size, _ =>
    if 0 < s.unread.length then some ⟨s.take size, .releasing (s.unread.take size), none, []⟩
    else some ⟨{ s with dataSignal := false }, .polling size, none, []⟩
  | .polling size, _ =>
    if s.controlSignal then some ⟨{ s with controlSignal := false }, .idle, some ([], none), []⟩
    else some ⟨s, .checking size, none, []⟩
  | .checking size, _ =>
    match s.err with
    | some e => some ⟨s, .idle, some ([], some e), []⟩
    | none => some ⟨s, .waiting size, none, []⟩
  | .waiting size, .data =>
    if s.dataSignal then some ⟨{ s with dataSignal := false }, .looking size, none, []⟩ else none
  | .waiting _, .control =>
    if s.controlSignal then some ⟨{ s with controlSignal := false }, .idle, some ([], none), []⟩ else none
  | .waiting size, .done => if s.done then some ⟨s, .looking size, none, []⟩ else none
  | .waiting _, .refused => none
  | .releasing bytes, _ =>
    let (released, update) := s.releaseReceiveWindow windows bytes.length
    if update = 0 then some ⟨released, .idle, some (bytes, none), []⟩
    else some ⟨released, .flushing bytes update, none, []⟩
  | .flushing bytes _, .refused => some ⟨s.detach.finish .disconnected, .idle, some (bytes, none), []⟩
  | .flushing bytes update, _ => some ⟨s, .idle, some (bytes, none), [update]⟩

inductive Frame (α : Type) where
  | data (payload : List α)
  | halfClose
  | windowUpdate (credit : ℕ)
  | reset
  deriving DecidableEq

-- The read side of a stream: one caller of `Read`, and the dispatcher of the
-- Agent's frames, which may have an error still to publish and the stream still
-- to detach. `outbox` are the WINDOW_UPDATE frames on their way to the Agent.
-- Recorded are the payloads accepted and the results of `Read`.
structure Reading (α : Type) where
  stream : AgentRelayStream α
  reader : Reader α
  handler : Option (RelayError × Bool)
  outbox : List ℕ
  accepted : List (List α)
  results : List (List α × Option RelayError)

inductive ReadLabel (α : Type) where
  | read (size : ℕ)
  | advance (choice : Choice)
  | frame (f : Frame α)
  | publish
  | readControl
  | closeWrite
  | fail (e : RelayError)
  deriving DecidableEq

namespace Reading

def opened (window : ℕ) : Reading α := ⟨.opened window, .idle, none, [], [], []⟩

variable (r : Reading α)

def read (size : ℕ) : Option (Reading α) :=
  match r.reader with
  | .idle =>
    if size = 0 then some { r with results := r.results ++ [([], none)] }
    else some { r with reader := .looking size }
  | _ => none

def advance (windows : AgentRelayWindowConfig) (r : Reading α) (choice : Choice) : Option (Reading α) :=
  (r.reader.move windows r.stream choice).map fun moved =>
    { r with
      stream := moved.stream
      reader := moved.reader
      outbox := r.outbox ++ moved.updates
      results := r.results ++ moved.result.toList }

def dispatch : Frame α → Reading α
  | .data payload =>
    match r.stream.enqueue payload with
    | (stream, .ok _) => { r with stream, accepted := r.accepted ++ [payload] }
    | (stream, .error e) => { r with stream := stream.detach, handler := some (e, true) }
  | .halfClose =>
    if r.stream.remoteHalf then r
    else { r with stream := { r.stream with remoteHalf := true }, handler := some (.eof, r.stream.localHalf) }
  | .windowUpdate credit => { r with stream := r.stream.mirror credit }
  | .reset => { r with stream := r.stream.detach, handler := some (.reset, true) }

-- One frame after the other is dispatched; those of a stream that the transport
-- no longer has are ignored.
def frame (f : Frame α) : Option (Reading α) :=
  match r.handler with
  | some _ => none
  | none => if r.stream.attached = false then some r else some (r.dispatch f)

def publish : Option (Reading α) :=
  r.handler.map fun (e, complete) =>
    let stream := r.stream.finish e
    { r with stream := if complete then stream.detach else stream, handler := none }

def step (windows : AgentRelayWindowConfig) (r : Reading α) : ReadLabel α → Option (Reading α)
  | .read size => r.read size
  | .advance choice => r.advance windows choice
  | .frame f => r.frame f
  | .publish => r.publish
  | .readControl => r.stream.readControl.map fun (_, stream) => { r with stream }
  | .closeWrite => some { r with stream := r.stream.closeWrite }
  | .fail e => if e = .eof then none else some { r with stream := r.stream.detach.finish e }

end Reading

end TunnelMesh.Relay
