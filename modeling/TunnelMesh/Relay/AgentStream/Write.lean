import TunnelMesh.Protocol.StreamState
import TunnelMesh.Relay.AgentStream

namespace TunnelMesh.Relay

open Protocol

variable {α : Type}

-- Where a call of `Write` stands. It has sent the first `sent` bytes of its
-- payload and has `rest` bytes left.
inductive Writer where
  | idle
  | reserving (sent rest : ℕ)
  | exhausted (sent rest : ℕ)
  | partly (sent rest want : ℕ)
  | waiting (sent rest : ℕ)
  | sending (sent rest chunk : ℕ)
  deriving DecidableEq

inductive WriteError where
  | relay (e : RelayError)
  | protocol (e : StreamError)
  | payloadTooLarge

-- A waiting call is woken by credit or the timer, or finds `done` closed. The
-- session may refuse a frame.
inductive WriteChoice where
  | go
  | done
  | refused
  deriving DecidableEq

-- What a step of a call leaves. A chunk is the offset and the length of a DATA
-- frame that is sent.
structure WriterMoved where
  sendState : StreamState
  writer : Writer
  chunk : Option (ℕ × ℕ)
  result : Option (ℕ × Option WriteError)
  failed : Bool

def AgentRelayStream.writeError (s : AgentRelayStream α) : Option RelayError :=
  if (s.err ≠ none ∧ s.err ≠ some .eof) ∨ s.localHalf then some (s.err.getD .closedPipe) else none

def AgentRelayStream.doneError (s : AgentRelayStream α) : Option RelayError :=
  if s.done then some (s.err.getD .closedPipe) else none

def Writer.reserved (st : StreamState) (sent rest want : ℕ) (exhausted : Writer) : WriterMoved :=
  match st.consumeSend want with
  | .ok st => ⟨st, .sending sent rest want, none, none, false⟩
  | .error .windowExhausted => ⟨st, exhausted, none, none, false⟩
  | .error e => ⟨st, .idle, none, some (sent, some (.protocol e)), false⟩

-- `Write` with `consumeSendWindow` in it: a frame has at most `maxStreamFrame`
-- bytes, and less if the window has less.
def Writer.move (writeError doneError : Option RelayError) (st : StreamState) :
    Writer → WriteChoice → Option WriterMoved
  | .idle, _ => none
  | .reserving sent rest, _ =>
    match writeError with
    | some e => some ⟨st, .idle, none, some (sent, some (.relay e)), false⟩
    | none => some (Writer.reserved st sent rest (min rest maxStreamFrame) (.exhausted sent rest))
  | .exhausted sent rest, _ =>
    if st.sendWindow = 0 then some ⟨st, .waiting sent rest, none, none, false⟩
    else some ⟨st, .partly sent rest (min st.sendWindow (min rest maxStreamFrame)), none, none, false⟩
  | .partly sent rest want, _ => some (Writer.reserved st sent rest want (.waiting sent rest))
  | .waiting sent _, .done =>
    doneError.map fun e => ⟨st, .idle, none, some (sent, some (.relay e)), false⟩
  | .waiting sent rest, _ => some ⟨st, .reserving sent rest, none, none, false⟩
  | .sending sent _ _, .refused => some ⟨st, .idle, none, some (sent, some (.relay .disconnected)), true⟩
  | .sending sent rest chunk, _ =>
    if rest ≤ chunk then some ⟨st, .idle, some (sent, chunk), some (sent + chunk, none), false⟩
    else some ⟨st, .reserving (sent + chunk) (rest - chunk), some (sent, chunk), none, false⟩

-- A call of `Write` that has returned: what it was to send, the DATA frames that
-- it has sent and its error.
structure WriteCall (α : Type) where
  payload : List α
  frames : List (List α)
  sent : ℕ
  error : Option WriteError

-- The Server's end of a stream: its read side, the window that the Agent grants
-- and one caller of `Write`. The frames on their way to the Agent are `frames`,
-- those of the call under way `current`.
structure Endpoint (α : Type) where
  reading : Reading α
  sendState : StreamState
  writer : Writer
  payload : List α
  frames : List (Frame α)
  current : List (List α)
  writes : List (WriteCall α)

inductive EndpointLabel (α : Type) where
  | reading (label : ReadLabel α)
  | write (payload : List α)
  | writer (choice : WriteChoice)

namespace Endpoint

def opened (window : ℕ) : Endpoint α :=
  ⟨.opened window, openedState defaultAgentReceiveWindow, .idle, [], [], [], []⟩

variable (e : Endpoint α)

-- The credit of a WINDOW_UPDATE goes to the window first; what does not fit is
-- left out.
def credited : ReadLabel α → StreamState
  | .frame (.windowUpdate credit) =>
    if e.reading.stream.attached then (e.sendState.addSendWindow credit).toOption.getD e.sendState
    else e.sendState
  | _ => e.sendState

def closing : ReadLabel α → List (Frame α)
  | .closeWrite => if e.reading.stream.writeError = none then [.halfClose] else []
  | _ => []

def write (payload : List α) : Option (Endpoint α) :=
  match e.writer with
  | .idle =>
    if payload.length = 0 then some { e with writes := e.writes ++ [⟨payload, [], 0, none⟩] }
    else if maxPayload < payload.length then
      some { e with writes := e.writes ++ [⟨payload, [], 0, some .payloadTooLarge⟩] }
    else some { e with writer := .reserving 0 payload.length, payload, current := [] }
  | _ => none

def advance (choice : WriteChoice) : Option (Endpoint α) :=
  let stream := e.reading.stream
  (e.writer.move stream.writeError stream.doneError e.sendState choice).map fun moved =>
    let sent := moved.chunk.toList.map fun chunk => (e.payload.drop chunk.1).take chunk.2
    { e with
      reading :=
        { e.reading with stream := if moved.failed = true then stream.detach.finish .disconnected else stream }
      sendState := moved.sendState
      writer := moved.writer
      frames := e.frames ++ sent.map .data
      current := e.current ++ sent
      writes := e.writes ++ moved.result.toList.map fun result => ⟨e.payload, e.current ++ sent, result.1, result.2⟩ }

def step (windows : AgentRelayWindowConfig) (e : Endpoint α) : EndpointLabel α → Option (Endpoint α)
  | .reading label =>
    (e.reading.step windows label).map fun reading =>
      { e with reading, sendState := e.credited label, frames := e.frames ++ e.closing label }
  | .write payload => e.write payload
  | .writer choice => e.advance choice

end Endpoint

end TunnelMesh.Relay
