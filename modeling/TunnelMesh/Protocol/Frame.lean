import TunnelMesh.Bytes
import TunnelMesh.Fallible
import TunnelMesh.Protocol.Window

namespace TunnelMesh.Protocol

def currentVersion : UInt8 := 1

def maxMetadataPayload : ℕ := 32 * 2 ^ 10

def maxOpenResultPayload : ℕ := 2 ^ 10

-- A type is a byte, as a peer may send one that is not known.
abbrev FrameType := UInt8

namespace FrameType

def openStream : FrameType := 1
def data : FrameType := 2
def halfClose : FrameType := 3
def reset : FrameType := 4
def windowUpdate : FrameType := 5
def goAway : FrameType := 6
def ping : FrameType := 7
def pong : FrameType := 8
def agentHello : FrameType := 9
def agentMetadataAck : FrameType := 11
def traceStart : FrameType := 12
def traceEnd : FrameType := 14
def openResult : FrameType := 15
def clientHello : FrameType := 16
def clientMetadataAck : FrameType := 18

end FrameType

structure Frame where
  version : UInt8
  type : FrameType
  flags : UInt16
  streamID : UInt32
  window : UInt32
  payload : List UInt8
  deriving DecidableEq

inductive FrameError where
  | unsupportedVersion (version : UInt8)
  | unknownFrameType (type : FrameType)
  | payloadTooLarge (size : Option ℕ)
  | invalidFrame
  | eof
  | unexpectedEOF

variable (t : FrameType)

def knownFrameType : Bool := FrameType.openStream ≤ t && t ≤ FrameType.clientMetadataAck

def isMetadataFrame : Bool :=
  (FrameType.agentHello ≤ t && t ≤ FrameType.agentMetadataAck) ||
    (FrameType.clientHello ≤ t && t ≤ FrameType.clientMetadataAck)

def isTraceFrame : Bool := FrameType.traceStart ≤ t && t ≤ FrameType.traceEnd

def connectionLevel : Bool :=
  t == FrameType.goAway || t == FrameType.ping || t == FrameType.pong || isMetadataFrame t || isTraceFrame t

def Frame.validate (f : Frame) : Except FrameError Unit :=
  if f.version ≠ currentVersion then .error (.unsupportedVersion f.version)
  else if knownFrameType f.type = false then .error (.unknownFrameType f.type)
  else if maxPayload < f.payload.length then .error (.payloadTooLarge f.payload.length)
  else if isMetadataFrame f.type ∧ maxMetadataPayload < f.payload.length then
    .error (.payloadTooLarge f.payload.length)
  else if f.type = FrameType.openResult ∧ maxOpenResultPayload < f.payload.length then
    .error (.payloadTooLarge f.payload.length)
  else if f.streamID = 0 ∧ connectionLevel f.type = false then .error .invalidFrame
  else if f.type = FrameType.windowUpdate ∧ f.window = 0 then .error .invalidFrame
  else .ok ()

structure Frame.HeaderRules (f : Frame) (length : ℕ) : Prop where
  version : f.version = currentVersion
  type : knownFrameType f.type
  size : length ≤ maxPayload
  metadata : isMetadataFrame f.type → length ≤ maxMetadataPayload
  openResult : f.type = FrameType.openResult → length ≤ maxOpenResultPayload
  streamID : f.streamID = 0 → connectionLevel f.type

theorem Frame.validate_ok_iff {f : Frame} : f.validate = .ok () ↔
      f.HeaderRules f.payload.length ∧ (f.type = FrameType.windowUpdate → f.window ≠ 0) := by
  simp only [Frame.validate, guard_eq_ok, not_not, not_and, Bool.not_eq_false, Nat.not_lt, and_true]
  constructor
  · rintro ⟨hv, ht, hs, hm, ho, hid, hw⟩; exact ⟨⟨hv, ht, hs, hm, ho, hid⟩, hw⟩
  · rintro ⟨⟨hv, ht, hs, hm, ho, hid⟩, hw⟩; exact ⟨hv, ht, hs, hm, ho, hid, hw⟩

end TunnelMesh.Protocol
