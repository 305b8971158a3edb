import TunnelMesh.Interleaving
import TunnelMesh.Relay.AgentStream

namespace TunnelMesh.Relay

open Interleaving (System State)

variable {α : Type}

-- A stream with what was sent and received for its wire id. `registered` says
-- that the manager has the generation of the Agent's connection, `answered` and
-- `closing` that `openResultOnce` and `closeOnce` are used up.
structure RelayEntry (α : Type) where
  stream : AgentRelayStream α
  registered : Bool
  strict : Bool
  answered : Bool
  openResult : Option Bool
  closing : Bool
  sentHalfClose : Bool
  sentReset : Bool
  gotReset : Bool
  gotRefusal : Bool

-- The payload of an `invalidResult` does not decode.
inductive AgentFrame (α : Type) where
  | openResult (accepted : Bool)
  | invalidResult
  | data (payload : List α)
  | halfClose
  | windowUpdate (credit : ℕ)
  | reset
  deriving DecidableEq

inductive SentFrame where
  | data
  | windowUpdate
  deriving DecidableEq

-- Where a call on the stream, the dispatcher with a frame, or a call on the
-- transport stands. A send that was refused goes on with `failing`. `publishing`
-- is about to fail the stream, and to send a RESET after that where `reset` is
-- set.
inductive RelayCall (α : Type) where
  | opening
  | awaiting
  | rejecting
  | sending (f : SentFrame)
  | closingWrite
  | halfClosing (complete : Bool)
  | failing
  | closing
  | looking
  | resetting (close : Bool)
  | ending
  | dispatching (f : AgentFrame α)
  | publishing (e : RelayError) (reset : Bool)
  | finishing (complete : Bool)
  | detaching
  | dropping (e : RelayError)
  | returned
  deriving DecidableEq

inductive RelayRequest (α : Type) where
  | write
  | writeControl
  | closeWrite
  | close
  | frame (f : AgentFrame α)
  | failGeneration
  | closeTransport

inductive RelayInput where
  | go
  | refused
  | done
  | cancelled
  deriving DecidableEq

inductive RelayEvent where
  | read (size : ℕ)
  | readControl
  | unregister

namespace RelayEntry

def opened (window : ℕ) (strict : Bool) : RelayEntry α where
  stream := .opened window
  registered := true
  strict := strict
  answered := false
  openResult := none
  closing := false
  sentHalfClose := false
  sentReset := false
  gotReset := false
  gotRefusal := false

variable (s : RelayEntry α)

def terminal : Prop := s.stream.err ≠ none ∧ s.stream.err ≠ some .eof
  deriving Decidable

def detach : RelayEntry α := { s with stream := s.stream.detach }

def finish (e : RelayError) : RelayEntry α := { s with stream := s.stream.finish e }

-- The section of `handleAgentFrameGeneration` under the transport's lock, up to
-- the error that it publishes.
def dispatch : AgentFrame α → RelayEntry α × RelayCall α
  | .openResult accepted =>
    let s : RelayEntry α := { s with gotRefusal := s.gotRefusal || !accepted }
    if s.strict ∧ s.answered = false then
      ({ s with answered := true, openResult := some accepted }, .returned)
    else (s.detach, .publishing .invalidFrame true)
  | .invalidResult => (s.detach, .publishing .invalidFrame true)
  | .data payload =>
    match s.stream.enqueue payload with
    | (stream, .ok _) => ({ s with stream }, .returned)
    | (stream, .error e) => ({ s with stream := stream.detach }, .publishing e true)
  | .halfClose =>
    if s.stream.remoteHalf then (s, .returned)
    else ({ s with stream := { s.stream with remoteHalf := true } }, .finishing s.stream.localHalf)
  | .windowUpdate credit => ({ s with stream := s.stream.mirror credit }, .returned)
  | .reset => ({ s.detach with gotReset := true }, .publishing .reset false)

end RelayEntry

def RelayCall.start : RelayRequest α → RelayCall α
  | .write => .sending .data
  | .writeControl => .sending .windowUpdate
  | .closeWrite => .closingWrite
  | .close => .closing
  | .frame f => .dispatching f
  | .failGeneration => .dropping .disconnected
  | .closeTransport => .dropping .closedPipe

-- `failAgentGeneration` and the `Close` of the transport, which drop the stream.
def RelayCall.drops : RelayCall α → Bool
  | .dropping _ => true
  | _ => false

open RelayEntry in
def RelayCall.move (s : RelayEntry α) : RelayCall α → RelayInput → Option (RelayEntry α × RelayCall α)
  | .opening, .go => some (s, if s.strict = true then .awaiting else .returned)
  | .opening, .refused => some (s, .failing)
  | .awaiting, .go => s.openResult.map fun accepted => (s, if accepted = true then .returned else .rejecting)
  | .awaiting, .done => if s.stream.done = true then some (s, .returned) else none
  | .awaiting, .cancelled => some (s, .closing)
  | .rejecting, .go => some (s.detach, .publishing .reset false)
  | .sending _, .go => some (s, .returned)
  | .sending _, .refused => some (s, .failing)
  | .closingWrite, .go =>
    if s.terminal ∨ s.stream.localHalf = true then some (s, .returned)
    else some ({ s with stream := { s.stream with localHalf := true } }, .halfClosing s.stream.remoteHalf)
  | .halfClosing complete, .go =>
    some ({ s with sentHalfClose := true }, if complete = true then .detaching else .returned)
  | .halfClosing _, .refused => some (s, .failing)
  | .failing, .go => some (s.detach, .publishing .disconnected false)
  | .closing, .go =>
    if s.closing = true then some (s, .returned) else some ({ s.detach with closing := true }, .looking)
  | .looking, .go =>
    if (s.stream.localHalf = true ∧ s.stream.remoteHalf = true) ∨ s.terminal then some (s, .ending)
    else some (s, .resetting true)
  | .resetting close, .go => some ({ s with sentReset := true }, if close = true then .ending else .returned)
  | .resetting close, .refused => some (s, if close = true then .ending else .returned)
  | .ending, .go => some (s.finish .closedPipe, .returned)
  | .dispatching f, .go =>
    if s.registered = false ∨ s.stream.attached = false then some (s, .returned) else some (s.dispatch f)
  | .publishing e reset, .go => some (s.finish e, if reset = true then .resetting false else .returned)
  | .finishing complete, .go => some (s.finish .eof, if complete = true then .detaching else .returned)
  | .detaching, .go => some (s.detach, .returned)
  | .dropping e, .go => some (s.detach, .publishing e false)
  | _, _ => none

namespace RelayEntry

variable (s : RelayEntry α)

def event : RelayEvent → Option (RelayEntry α)
  | .read size => some { s with stream := s.stream.take size }
  | .readControl => s.stream.readControl.map fun (_, stream) => { s with stream }
  | .unregister => some { s with registered := false }

def system : System (RelayEntry α) (RelayCall α) (RelayRequest α) RelayInput RelayEvent :=
  ⟨RelayCall.start, RelayCall.move, event⟩

def started (window : ℕ) (strict : Bool) : State (RelayEntry α) (RelayCall α) := ⟨opened window strict, [.opening]⟩

def Told : Prop :=
  s.sentReset ∨ s.gotReset ∨ s.gotRefusal ∨ (s.sentHalfClose ∧ s.stream.remoteHalf)
  deriving Decidable

-- As long as the generation is registered, the manager takes every frame of the
-- stream, and the transport does not drop the stream.
def Accepted (call : RelayCall α) (input : RelayInput) : Prop :=
  s.registered → input ≠ .refused ∧ call.drops = false
  deriving Decidable

end RelayEntry

-- `Close` that has yet to look at the stream, and calls that have a RESET or a
-- HALF_CLOSE to send.
def RelayCall.owes : RelayCall α → Bool
  | .looking | .resetting _ | .publishing _ true | .halfClosing _ => true
  | _ => false

-- A stream that has left the table of a registered generation. Where no call has
-- a frame left to send, the Agent was told.
def NoOrphan (s : State (RelayEntry α) (RelayCall α)) : Prop :=
  s.store.stream.attached = false → s.store.registered → s.store.Told ∨ ∃ call ∈ s.procs, call.owes

end TunnelMesh.Relay
