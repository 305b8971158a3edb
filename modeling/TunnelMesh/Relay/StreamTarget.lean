import TunnelMesh.Relay.StreamRequest
import TunnelMesh.Text

namespace TunnelMesh.Relay

open Text

def streamProtocolExec : String := "exec"

def streamProtocolICMPEcho : String := "icmp-echo"

section Targets

variable (fold : Char → Char)

def openStreamRefuses (proto host : String) (port : ℤ) : Bool :=
  !equalFold fold proto streamProtocolExec && (host == "" || port < 1 || 65535 < port)

def validStreamTargetPort (proto : String) (port : ℤ) : Bool :=
  if port < 0 ∨ 65535 < port then false
  else if equalFold fold proto streamProtocolICMPEcho then true
  else if equalFold fold proto streamProtocolExec then port == 0
  else 1 ≤ port

-- The check of `StreamDispatcher.Handle`, which answers "agent: invalid stream target".
def dispatcherRefuses (streamID : UInt32) (proto host : String) (port : ℤ) : Bool :=
  streamID == 0 || (!equalFold fold proto streamProtocolExec && host == "") ||
    !validStreamTargetPort fold proto port

end Targets

def icmpEchoRequest (nodeID agentID target : String) : StreamRequest String where
  nodeID := nodeID
  agentID := agentID
  caseInsensitiveAgentID := false
  epoch := 0
  targetConnectionID := ""
  targetConnectionEpoch := 0
  streamID := 0
  strictOpen := false
  initialWindow := 0
  protocol := streamProtocolICMPEcho
  targetHost := target
  targetPort := 0
  targetScheme := ""
  hostHeader := ""
  tlsServerName := ""
  metadata := []

section Admission

variable {fold : Char → Char}

theorem not_exec_of_icmpEcho (h : equalFold fold proto streamProtocolICMPEcho) :
    equalFold fold proto streamProtocolExec = false := by
  cases he : equalFold fold proto streamProtocolExec with
  | false => rfl
  | true =>
    have hshort : proto.length = 4 := length_of_equalFold he
    have hlong : proto.length = 9 := length_of_equalFold h
    omega

theorem openStreamRefuses_eq_false : openStreamRefuses fold proto host port = false ↔
      equalFold fold proto streamProtocolExec = true ∨ (host ≠ "" ∧ 1 ≤ port ∧ port ≤ 65535) := by
  simp only [openStreamRefuses, Bool.and_eq_false_iff, Bool.not_eq_false', Bool.or_eq_false_iff, beq_eq_false_iff_ne,
    decide_eq_false_iff_not, Int.not_lt, and_assoc, ne_eq]

theorem validStreamTargetPort_eq_true : validStreamTargetPort fold proto port ↔
      (0 ≤ port ∧ port ≤ 65535) ∧ (equalFold fold proto streamProtocolICMPEcho ∨
        (equalFold fold proto streamProtocolExec ∧ port = 0) ∨
        (equalFold fold proto streamProtocolExec = false ∧ 1 ≤ port)) := by
  unfold validStreamTargetPort
  by_cases hr : port < 0 ∨ 65535 < port
  · have hout : ¬(0 ≤ port ∧ port ≤ 65535) := by omega
    simp only [if_pos hr, hout, false_and, Bool.false_eq_true]
  · have hin : 0 ≤ port ∧ port ≤ 65535 := by omega
    rw [if_neg hr]
    cases equalFold fold proto streamProtocolICMPEcho with
    | true => simp only [hin, and_self, if_true, true_or]
    | false =>
      cases equalFold fold proto streamProtocolExec with
      | true => simp only [hin, Bool.false_eq_true, if_false, if_true, beq_iff_eq, true_and, false_or,
          Bool.true_eq_false, false_and, or_false, and_self]
      | false => simp only [hin, Bool.false_eq_true, if_false, decide_eq_true_eq, true_and, false_or, false_and,
          and_self]

theorem dispatcherRefuses_eq_false (hid : streamID ≠ 0) : dispatcherRefuses fold streamID proto host port = false ↔
      (equalFold fold proto streamProtocolExec = true ∨ host ≠ "") ∧ validStreamTargetPort fold proto port = true := by
  simp only [dispatcherRefuses, Bool.or_eq_false_iff, beq_eq_false_iff_ne, ne_eq, hid, not_false_eq_true, true_and,
    Bool.and_eq_false_iff, Bool.not_eq_false']

theorem icmpEcho_refused (nodeID agentID target : String) :
    openStreamRefuses fold (icmpEchoRequest nodeID agentID target).protocol
      (icmpEchoRequest nodeID agentID target).targetHost (icmpEchoRequest nodeID agentID target).targetPort.toInt := by
  have hs : equalFold fold streamProtocolICMPEcho streamProtocolICMPEcho := by
    rw [equalFold, beq_self_eq_true]
  have he : equalFold fold (icmpEchoRequest nodeID agentID target).protocol streamProtocolExec = false :=
    not_exec_of_icmpEcho hs
  have hz : (0 : Int64).toInt < 1 := by decide
  have hp : (icmpEchoRequest nodeID agentID target).targetPort.toInt < 1 := hz
  simp only [openStreamRefuses, he, hp, Bool.not_false, decide_true, Bool.or_true, Bool.true_or, Bool.and_self]

-- Server and Agent agree on a target exactly where a script run has port 0 and an
-- echo with a host has another one; the requests of the VPN never do.
theorem target_admission_iff (fold : Char → Char) (proto host : String) (port : ℤ) (streamID : UInt32)
    (hid : streamID ≠ 0) :
    ((dispatcherRefuses fold streamID proto host port = false ↔ openStreamRefuses fold proto host port = false) ↔
      (equalFold fold proto streamProtocolExec → port = 0) ∧
        (equalFold fold proto streamProtocolICMPEcho = true → host = "" ∨ port ≠ 0)) ∧ ∀ nodeID agentID target : String,
      openStreamRefuses fold (icmpEchoRequest nodeID agentID target).protocol
        (icmpEchoRequest nodeID agentID target).targetHost
        (icmpEchoRequest nodeID agentID target).targetPort.toInt := by
  refine ⟨?_, icmpEcho_refused⟩
  rw [dispatcherRefuses_eq_false hid, validStreamTargetPort_eq_true, openStreamRefuses_eq_false]
  cases hicmp : equalFold fold proto streamProtocolICMPEcho with
  | true => have hexec := not_exec_of_icmpEcho hicmp; grind
  | false =>
    cases hexec : equalFold fold proto streamProtocolExec with
    | true | false => grind

end Admission

theorem target_admission_tcp : dispatcherRefuses foldASCII 1 "tcp" "10.0.0.1" 443 = false ↔
      openStreamRefuses foldASCII "tcp" "10.0.0.1" 443 = false :=
  (target_admission_iff foldASCII "tcp" "10.0.0.1" 443 1 (by decide)).1.mpr ⟨by decide, by decide⟩

-- The Agent takes the target of an echo that the Server refuses to send, and refuses
-- the port of a script run that the Server sends.
theorem target_admission_differs : (dispatcherRefuses foldASCII 1 "icmp-echo" "10.0.0.1" 0 = false ∧
      openStreamRefuses foldASCII "icmp-echo" "10.0.0.1" 0 = true) ∧
    (dispatcherRefuses foldASCII 1 "exec" "" 22 = true ∧ openStreamRefuses foldASCII "exec" "" 22 = false) := by
  decide

end TunnelMesh.Relay
