import TunnelMesh.Relay.AgentStream.Write

namespace TunnelMesh.Relay

open Protocol

variable {α : Type}

-- The node that the Agent is connected to. Besides the frames of its end of the
-- stream it has sent the Agent the WINDOW_UPDATEs of the Client, and a RESET. The
-- bytes that the Agent has sent and its HALF_CLOSE are recorded.
structure AgentNode (α : Type) where
  endpoint : Endpoint α
  controls : List ℕ
  reset : Bool
  sent : List α
  ended : Bool

def Reader.resting : Reader α → Bool
  | .idle => true
  | _ => false

namespace AgentNode

def opened (window : ℕ) : AgentNode α := ⟨.opened window, [], false, [], false⟩

variable (windows : AgentRelayWindowConfig) (a : AgentNode α)

def stream : AgentRelayStream α := a.endpoint.reading.stream

def step (label : EndpointLabel α) : Option (AgentNode α) :=
  (a.endpoint.step windows label).map fun endpoint => { a with endpoint }

-- The Agent keeps to its window, sends no DATA after its HALF_CLOSE and does not
-- reset the stream.
def conforms : Frame α → Bool
  | .data payload =>
    !a.ended && (!a.stream.attached || decide (a.stream.unread.length + payload.length ≤ a.stream.budget))
  | .halfClose => !a.ended
  | .windowUpdate _ => true
  | .reset => false

def heard : Frame α → AgentNode α
  | .data payload => { a with sent := a.sent ++ payload }
  | .halfClose => { a with ended := true }
  | .windowUpdate _ => a
  | .reset => a

def frame (f : Frame α) : Option (AgentNode α) :=
  if a.conforms f then (a.step windows (.reading (.frame f))).map fun next => next.heard f else none

def read (choice : Choice) :
    Option (AgentNode α × Option (List α × Option RelayError)) :=
  if choice = .refused then none
  else (a.step windows (.reading (.advance choice))).map fun next =>
    (next, next.endpoint.reading.results[a.endpoint.reading.results.length]?)

def startWrite (payload : List α) :
    Option (AgentNode α × Option (WriteCall α)) :=
  (a.step windows (.write payload)).map fun next => (next, next.endpoint.writes[a.endpoint.writes.length]?)

def write (choice : WriteChoice) :
    Option (AgentNode α × Option (WriteCall α)) :=
  if choice = .refused then none
  else (a.step windows (.writer choice)).map fun next => (next, next.endpoint.writes[a.endpoint.writes.length]?)

def writeControl (credit : ℕ) : AgentNode α := { a with controls := a.controls ++ [credit] }

def close : AgentNode α :=
  let complete := a.stream.localHalf && a.stream.remoteHalf
  let terminal := decide (a.stream.err ≠ none ∧ a.stream.err ≠ some .eof)
  { a with
    endpoint.reading.stream := a.stream.detach.finish .closedPipe
    reset := a.reset || (!complete && !terminal) }

end AgentNode

inductive ReadEnd where
  | eof
  | failed
  deriving DecidableEq

-- The node that the Client is connected to, with the two loops that serve its
-- stream: what `pumpClientUpload` has written and whether it has called
-- `CloseWrite`, and what `relayToClient` has read up to the first error.
structure ClientNode (α : Type) where
  written : List α
  writeClosed : Bool
  received : List α
  credits : List ℕ
  result : Option ReadEnd

namespace ClientNode

def opened : ClientNode α := ⟨[], false, [], [], none⟩

variable (c : ClientNode α)

def wrote (payload : List α) : ClientNode α := { c with written := c.written ++ payload }

def receive (bytes : List α) : ClientNode α := { c with received := c.received ++ bytes }

def credit (credit : ℕ) : ClientNode α := { c with credits := c.credits ++ [credit] }

def stop (result : ReadEnd) : ClientNode α := { c with result := some result }

end ClientNode

-- The frames of the Agent and the errors that its node publishes, the calls of the
-- Client's node, and the steps of the calls that read from the stream and write to
-- it on the Agent's node.
inductive PathLabel (α : Type) where
  | agent (f : Frame α)
  | publish
  | write (payload : List α)
  | writeControl (credit : ℕ)
  | closeWrite
  | read (size : ℕ)
  | reading (choice : Choice)
  | writing (choice : WriteChoice)
  deriving DecidableEq

structure LocalPath (α : Type) where
  agent : AgentNode α
  client : ClientNode α

namespace LocalPath

def opened (window : ℕ) : LocalPath α := ⟨.opened window, .opened⟩

def read (windows : AgentRelayWindowConfig) (s : LocalPath α) (size : ℕ) : Option (LocalPath α) :=
  if s.client.result ≠ none ∨ s.agent.endpoint.reading.reader.resting = false ∨ size = 0 then none
  else match s.agent.stream.controlCh with
    | [] => (s.agent.step windows (.reading (.read size))).map fun agent => { s with agent }
    | credit :: _ =>
      (s.agent.step windows (.reading .readControl)).map fun agent => ⟨agent, s.client.credit credit⟩

def readReturned (s : LocalPath α) : Option (List α × Option RelayError) → LocalPath α
  | none => s
  | some (bytes, none) => { s with client := s.client.receive bytes }
  | some (bytes, some e) =>
    { s with client := (s.client.receive bytes).stop (if e = .eof then .eof else .failed) }

def writeReturned (s : LocalPath α) : Option (WriteCall α) → LocalPath α
  | none => s
  | some call => if call.error = none then s else { s with agent := s.agent.close }

def step (windows : AgentRelayWindowConfig) (s : LocalPath α) : PathLabel α → Option (LocalPath α)
  | .agent f => (s.agent.frame windows f).map fun agent => { s with agent }
  | .publish => (s.agent.step windows (.reading .publish)).map fun agent => { s with agent }
  | .write payload =>
    if s.client.writeClosed ∨ maxPayload < payload.length then none
    else (s.agent.startWrite windows payload).map fun (agent, call) =>
      LocalPath.writeReturned ⟨agent, s.client.wrote payload⟩ call
  | .writeControl credit => some { s with agent := s.agent.writeControl credit }
  | .closeWrite =>
    if s.client.writeClosed ∨ s.agent.endpoint.writer ≠ .idle then none
    else (s.agent.step windows (.reading .closeWrite)).map fun agent =>
      ⟨agent, { s.client with writeClosed := true }⟩
  | .read size => s.read windows size
  | .reading choice =>
    if s.client.result ≠ none then none
    else (s.agent.read windows choice).map fun (agent, result) => { s with agent }.readReturned result
  | .writing choice => (s.agent.write windows choice).map fun (agent, call) => { s with agent }.writeReturned call

end LocalPath

inductive RelayMessage (α : Type) where
  | data (payload : List α)
  | control (credit : ℕ)

inductive Copier where
  | reading
  | polling
  | ended

-- The Client is connected to another node. Its `grpcStreamConn` has bytes and
-- credits still to give away, and the messages of the gRPC stream are in order.
-- On the Agent's node `relayStream` copies from the stream and serves the
-- messages; when it returns, the gRPC stream is over.
structure CrossNode (α : Type) where
  agent : AgentNode α
  client : ClientNode α
  copier : Copier
  serving : Bool
  up : List (RelayMessage α)
  down : List (RelayMessage α)
  pending : List α
  controlCh : List ℕ

namespace CrossNode

def opened (window : ℕ) : CrossNode α := ⟨.opened window, .opened, .reading, true, [], [], [], []⟩

variable (windows : AgentRelayWindowConfig) (s : CrossNode α)

-- `stream.Send` of the copying loop, which does not look at its errors.
def sendDown (message : RelayMessage α) : CrossNode α :=
  if s.serving then { s with down := s.down ++ [message] } else s

-- The copying loop ends at any error, the end of file included, and tells nobody.
def readReturned : Option (List α × Option RelayError) → CrossNode α
  | none => s
  | some (bytes, e) =>
    let s : CrossNode α := if bytes.length = 0 then s else s.sendDown (.data bytes)
    { s with
      copier := if e ≠ none then .ended else if bytes.length = 0 then .polling else .reading }

def copy (choice : Choice) : Option (CrossNode α) :=
  match s.copier with
  | .ended => none
  | .polling =>
    match s.agent.stream.controlCh with
    | [] => some { s with copier := .reading }
    | credit :: _ =>
      (s.agent.step windows (.reading .readControl)).map fun agent =>
        { s with agent, copier := .reading }.sendDown (.control credit)
  | .reading =>
    if s.agent.endpoint.reading.reader.resting then
      (s.agent.step windows (.reading (.read (32 * 2 ^ 10)))).map fun agent => { s with agent }
    else (s.agent.read windows choice).map fun (agent, result) => { s with agent }.readReturned result

def finish : CrossNode α := { s with serving := false, agent := s.agent.close }

def writeReturned : Option (WriteCall α) → CrossNode α
  | none => s
  | some call => if call.error = none then s else s.finish

-- `stream.Recv` of the serving loop. The end of the Client's messages is an error
-- like any other.
def recv : Option (CrossNode α) :=
  match s.up with
  | .data payload :: rest =>
    (s.agent.startWrite windows payload).map fun (agent, call) => { s with agent, up := rest }.writeReturned call
  | .control credit :: rest => some { s with agent := s.agent.writeControl credit, up := rest }
  | [] => if s.client.writeClosed then some s.finish else none

def serve (choice : WriteChoice) : Option (CrossNode α) :=
  if s.serving = false then none
  else if s.agent.endpoint.writer = .idle then s.recv windows
  else (s.agent.write windows choice).map fun (agent, call) => { s with agent }.writeReturned call

-- `stream.SendMsg` of the Client's node fails after `CloseSend` and when the gRPC
-- stream is over.
def sendUp (message : RelayMessage α) : Option (CrossNode α) :=
  if s.client.writeClosed ∨ s.serving = false then none else some { s with up := s.up ++ [message] }

-- `grpcStreamConn.Read`. The status of a `relayStream` that has returned is not OK,
-- so that the end of the gRPC stream is an error and no end of file.
def readConn (size : ℕ) : Option (CrossNode α) :=
  if s.pending.length ≠ 0 then
    some { s with client := s.client.receive (s.pending.take size), pending := s.pending.drop size }
  else match s.down with
    | .data payload :: rest =>
      some { s with client := s.client.receive (payload.take size), pending := payload.drop size, down := rest }
    | .control credit :: rest =>
      if s.controlCh.length < 16 then some { s with controlCh := s.controlCh ++ [credit], down := rest }
      else some { s with client := s.client.stop .failed, down := rest }
    | [] => if s.serving then none else some { s with client := s.client.stop .failed }

def read (size : ℕ) : Option (CrossNode α) :=
  if s.client.result ≠ none ∨ size = 0 then none
  else match s.controlCh with
    | [] => s.readConn size
    | credit :: rest => some { s with client := s.client.credit credit, controlCh := rest }

def step : PathLabel α → Option (CrossNode α)
  | .agent f => (s.agent.frame windows f).map fun agent => { s with agent }
  | .publish => (s.agent.step windows (.reading .publish)).map fun agent => { s with agent }
  | .write payload =>
    if maxPayload < payload.length then none
    else { s with client := s.client.wrote payload }.sendUp (.data payload)
  | .writeControl credit => s.sendUp (.control credit)
  | .closeWrite => if s.client.writeClosed then none else some { s with client.writeClosed := true }
  | .read size => s.read size
  | .reading choice => s.copy windows choice
  | .writing choice => s.serve windows choice

end CrossNode

def internalLabels : List (PathLabel α) :=
  [.publish, .reading .data, .reading .control, .reading .done, .writing .go, .writing .done, .read 1]

def Settled {σ : Type} (step : σ → PathLabel α → Option σ) (s : σ) : Prop :=
  ∀ label ∈ internalLabels, (step s label).isNone
  deriving Decidable

def Frame.payload : Frame α → List α
  | .data payload => payload
  | .halfClose => []
  | .windowUpdate _ => []
  | .reset => []

def dataOf (frames : List (Frame α)) : List α := frames.flatMap Frame.payload

-- All bytes have come to the other end. The end of the Agent's bytes is an end of
-- file that leaves the other direction open, the end of the Client's bytes is a
-- HALF_CLOSE, and nothing is reset.
@[mk_iff] structure Transparent (agent : AgentNode α) (client : ClientNode α) : Prop where
  download : client.received = agent.sent
  upload : dataOf agent.endpoint.frames = client.written
  eof : agent.ended → client.result = some .eof
  usable : client.writeClosed = false → agent.stream.writeError = none
  halfClose : client.writeClosed → .halfClose ∈ agent.endpoint.frames
  noReset : agent.reset = false

instance [DecidableEq α] (agent : AgentNode α) (client : ClientNode α) : Decidable (Transparent agent client) :=
  decidable_of_iff _ (transparent_iff agent client).symm

end TunnelMesh.Relay
