import TunnelMesh.Agent.StreamEntry.Theorems
import TunnelMesh.Relay.AgentStream.Write.Theorems
import TunnelMesh.Relay.Download

namespace TunnelMesh.Relay

open Protocol
open Agent (StreamEntry EntryLabel EntryMoved)

variable {α : Type}

-- A stream between the Server and an Agent. The Agent's DATA and HALF_CLOSE
-- frames on their way to the Server are in order; its WINDOW_UPDATE and RESET
-- frames may overtake them. The bytes that the Agent has sent and the credit
-- that has reached it are counted, and a WINDOW_UPDATE that its session has
-- dropped is noted.
structure Link (α : Type) where
  server : Endpoint α
  toServer : List (Frame α)
  control : List (Frame α)
  agent : StreamEntry (List α)
  sent : ℕ
  credited : ℕ
  lost : Bool

inductive LinkLabel (α : Type) where
  | server (label : ReadLabel α)
  | write (payload : List α)
  | writer (choice : WriteChoice)
  | deliver
  | control
  | credit
  | handle
  | agent (label : EntryLabel (List α))

def ReadLabel.own : ReadLabel α → Bool
  | .frame _ => false
  | .fail e => decide (e ≠ .backpressure)
  | _ => true

def dataFrame : Option (List α) → Frame α
  | some payload => .data payload
  | none => .halfClose

namespace Link

def opened (inboundBytes window : ℕ) : Link α :=
  ⟨.opened window, [], [], .opened inboundBytes window, 0, 0, false⟩

def agentMoved (l : Link α) (label : EntryLabel (List α)) (moved : EntryMoved (List α)) : Link α :=
  { l with
    agent := moved.entry
    toServer := l.toServer ++ moved.data.map dataFrame
    control := l.control ++ (moved.updates.map .windowUpdate ++ if moved.reset then [.reset] else [])
    sent := l.sent + (moved.data.map (Agent.frameSize List.length)).sum
    lost := l.lost || l.agent.losesUpdate label }

def agentStep (bufferSize : ℕ) (l : Link α) (label : EntryLabel (List α)) : Option (Link α) :=
  (l.agent.step List.length bufferSize label).map (l.agentMoved label)

variable (windows : AgentRelayWindowConfig)

def serverStep (l : Link α) (label : EndpointLabel α) : Option (Link α) :=
  (l.server.step windows label).map fun server => { l with server }

def deliver (l : Link α) : Option (Link α) :=
  match l.toServer with
  | .data payload :: rest => serverStep windows { l with toServer := rest } (.reading (.frame (.data payload)))
  | .halfClose :: rest => serverStep windows { l with toServer := rest } (.reading (.frame .halfClose))
  | _ => none

def deliverControl (l : Link α) : Option (Link α) :=
  match l.control with
  | .windowUpdate credit :: rest =>
    serverStep windows { l with control := rest } (.reading (.frame (.windowUpdate credit)))
  | .reset :: rest => serverStep windows { l with control := rest } (.reading (.frame .reset))
  | _ => none

def credit (bufferSize : ℕ) (l : Link α) : Option (Link α) :=
  match l.server.reading.outbox with
  | [] => none
  | update :: rest =>
    let server := { l.server with reading := { l.server.reading with outbox := rest } }
    agentStep bufferSize { l with server, credited := l.credited + update } (.windowUpdate update)

def handle (bufferSize : ℕ) (l : Link α) : Option (Link α) :=
  match l.server.frames with
  | .data payload :: rest => agentStep bufferSize { l with server := { l.server with frames := rest } } (.data payload)
  | .halfClose :: rest => agentStep bufferSize { l with server := { l.server with frames := rest } } .halfClose
  | _ => none

def step (bufferSize : ℕ) (l : Link α) : LinkLabel α → Option (Link α)
  | .server label => if label.own then l.serverStep windows (.reading label) else none
  | .write payload => l.serverStep windows (.write payload)
  | .writer choice => l.serverStep windows (.writer choice)
  | .deliver => l.deliver windows
  | .control => l.deliverControl windows
  | .credit => l.credit bufferSize
  | .handle => l.handle bufferSize
  | .agent label => if label.own then l.agentStep bufferSize label else none

def down (l : Link α) : Download α := ⟨l.server.reading, l.toServer, l.sent, l.credited⟩

end Link

end TunnelMesh.Relay
