import TunnelMesh.Relay.StructValue

namespace TunnelMesh.Relay

open Rounding Float64 Option ByteArray

-- The strings are kept open: as bytes where they are encoded, and as characters
-- where they are compared.
structure StreamRequest (text : Type) where
  nodeID : text
  agentID : text
  caseInsensitiveAgentID : Bool
  epoch : Int64
  targetConnectionID : text
  targetConnectionEpoch : Int64
  streamID : UInt32
  strictOpen : Bool
  initialWindow : UInt32
  protocol : text
  targetHost : text
  targetPort : Int64
  targetScheme : text
  hostHeader : text
  tlsServerName : text
  metadata : List UInt8

def relayStreamMetadata (req : StreamRequest ByteArray) : List (String × Field) :=
  [("node_id", .string req.nodeID), ("agent_id", .string req.agentID),
    ("case_insensitive_agent_id", .bool req.caseInsensitiveAgentID),
    ("epoch", .int req.epoch.toInt), ("stream_id", .int req.streamID.toNat),
    ("target_connection_id", .string req.targetConnectionID),
    ("target_connection_epoch", .int req.targetConnectionEpoch.toInt),
    ("strict_open", .bool req.strictOpen),
    ("initial_window", .int req.initialWindow.toNat),
    ("protocol", .string req.protocol), ("target_host", .string req.targetHost),
    ("target_port", .int req.targetPort.toInt), ("target_scheme", .string req.targetScheme),
    ("host_header", .string req.hostHeader), ("tls_server_name", .string req.tlsServerName)]

def streamRequestFromRelayMetadata (outside : OutOfRange) (fields : Fields) : StreamRequest ByteArray where
  nodeID := getStringValue (fields.lookup "node_id")
  agentID := getStringValue (fields.lookup "agent_id")
  caseInsensitiveAgentID := getBoolValue (fields.lookup "case_insensitive_agent_id")
  epoch := (getNumberValue (fields.lookup "epoch")).toInt64 outside
  targetConnectionID := getStringValue (fields.lookup "target_connection_id")
  targetConnectionEpoch := (getNumberValue (fields.lookup "target_connection_epoch")).toInt64 outside
  strictOpen := getBoolValue (fields.lookup "strict_open")
  initialWindow := (getNumberValue (fields.lookup "initial_window")).toUInt32 outside
  streamID := (getNumberValue (fields.lookup "stream_id")).toUInt32 outside
  protocol := getStringValue (fields.lookup "protocol")
  targetHost := getStringValue (fields.lookup "target_host")
  targetPort := (getNumberValue (fields.lookup "target_port")).toInt64 outside
  targetScheme := getStringValue (fields.lookup "target_scheme")
  hostHeader := getStringValue (fields.lookup "host_header")
  tlsServerName := getStringValue (fields.lookup "tls_server_name")
  metadata := []

-- A request as the node that owns the Agent gets it; none where it cannot be sent.
def relayedRequest (outside : OutOfRange) (req : StreamRequest ByteArray) : Option (StreamRequest ByteArray) :=
  (newStruct (relayStreamMetadata req)).map (streamRequestFromRelayMetadata outside)

def StreamRequest.strings {text : Type} (req : StreamRequest text) : List text :=
  [req.nodeID, req.agentID, req.targetConnectionID, req.protocol, req.targetHost, req.targetScheme, req.hostHeader,
    req.tlsServerName]

section RoundTrip

theorem isSome_relayStreamMetadata :
    (newStruct (relayStreamMetadata req)).isSome ↔ ∀ s ∈ req.strings, s.IsValidUTF8 := by
  rw [isSome_newStruct]
  simp only [relayStreamMetadata, StreamRequest.strings, List.forall_mem_cons, List.not_mem_nil, false_implies,
    implies_true, and_true, Field.Encodable, true_and]

theorem streamRequestFromRelayMetadata_eq (h : newStruct (relayStreamMetadata req) = some fields) :
    streamRequestFromRelayMetadata outside fields =
      { req with
        epoch := (ofInt req.epoch.toInt).toInt64 outside
        targetConnectionEpoch := (ofInt req.targetConnectionEpoch.toInt).toInt64 outside
        targetPort := (ofInt req.targetPort.toInt).toInt64 outside
        metadata := [] } := by
  have hn := getStringValue_lookup h "node_id" rfl
  have ha := getStringValue_lookup h "agent_id" rfl
  have hcase := getBoolValue_lookup h "case_insensitive_agent_id" rfl
  have he := getNumberValue_lookup h "epoch" rfl
  have hconnection := getStringValue_lookup h "target_connection_id" rfl
  have hc := getNumberValue_lookup h "target_connection_epoch" rfl
  have hs := getNumberValue_lookup h "stream_id" rfl
  have hstrict := getBoolValue_lookup h "strict_open" rfl
  have hw := getNumberValue_lookup h "initial_window" rfl
  have hp := getStringValue_lookup h "protocol" rfl
  have hhost := getStringValue_lookup h "target_host" rfl
  have hport := getNumberValue_lookup h "target_port" rfl
  have hscheme := getStringValue_lookup h "target_scheme" rfl
  have hh := getStringValue_lookup h "host_header" rfl
  have hname := getStringValue_lookup h "tls_server_name" rfl
  rw [streamRequestFromRelayMetadata, hn, ha, hcase, he, hconnection, hc, hs, hstrict,
    hw, hp, hhost, hport, hscheme, hh, hname, toUInt32_ofInt, toUInt32_ofInt]

theorem relayedRequest_eq_some (h : relayedRequest outside req = some got) :
    (newStruct (relayStreamMetadata req)).isSome ∧
      got = { req with
        epoch := (ofInt req.epoch.toInt).toInt64 outside
        targetConnectionEpoch := (ofInt req.targetConnectionEpoch.toInt).toInt64 outside
        targetPort := (ofInt req.targetPort.toInt).toInt64 outside
        metadata := [] } := by
  obtain ⟨fields, hf, rfl⟩ := map_eq_some_iff.mp h
  exact ⟨isSome_iff_exists.mpr ⟨fields, hf⟩, streamRequestFromRelayMetadata_eq hf⟩

-- A request arrives as it was sent exactly where it carries no metadata, its
-- strings are Unicode and its three signed numbers come back from a `float64`.
theorem relayedRequest_eq_iff (outside : OutOfRange) (req : StreamRequest ByteArray) :
    relayedRequest outside req = some req ↔
      req.metadata = [] ∧ (∀ s ∈ req.strings, s.IsValidUTF8) ∧ Float64.Kept outside req.epoch ∧
        Float64.Kept outside req.targetConnectionEpoch ∧ Float64.Kept outside req.targetPort := by
  rw [← isSome_relayStreamMetadata, ← toInt64_ofInt_iff, ← toInt64_ofInt_iff,
    ← toInt64_ofInt_iff]
  constructor
  · intro h
    obtain ⟨hsome, hreq⟩ := relayedRequest_eq_some h
    refine ⟨congrArg StreamRequest.metadata hreq, hsome, ?_, ?_, ?_⟩
    · exact (congrArg StreamRequest.epoch hreq).symm
    · exact (congrArg StreamRequest.targetConnectionEpoch hreq).symm
    · exact (congrArg StreamRequest.targetPort hreq).symm
  · rintro ⟨hmetadata, hsome, hepoch, hconnection, hport⟩
    obtain ⟨fields, hfields⟩ := isSome_iff_exists.mp hsome
    rw [relayedRequest, hfields, map_some, streamRequestFromRelayMetadata_eq hfields, hepoch, hconnection,
      hport, ← hmetadata]

end RoundTrip

def sampleRequest : StreamRequest ByteArray where
  nodeID := "node-b".toByteArray
  agentID := "agent-a".toByteArray
  caseInsensitiveAgentID := false
  epoch := 7
  targetConnectionID := "connection-1".toByteArray
  targetConnectionEpoch := 9007199254740993
  streamID := 3
  strictOpen := true
  initialWindow := 524288
  protocol := "tcp".toByteArray
  targetHost := "10.0.0.1".toByteArray
  targetPort := 443
  targetScheme := empty
  hostHeader := empty
  tlsServerName := empty
  metadata := []

-- An epoch past 53 bits is rounded, and the metadata of a request is not sent.
theorem relayedRequest_loses :
    relayedRequest .wrapping sampleRequest ≠ some sampleRequest ∧
      relayedRequest .wrapping { sampleRequest with targetConnectionEpoch := 9, metadata := [104, 105] } ≠
        some { sampleRequest with targetConnectionEpoch := 9, metadata := [104, 105] } := by
  constructor
  · intro h
    have hepoch := congrArg StreamRequest.targetConnectionEpoch (relayedRequest_eq_some h).2
    have hkept : Float64.Kept .wrapping 9007199254740993 := (toInt64_ofInt_iff _ _).mp hepoch.symm
    revert hkept
    unfold Float64.Kept
    decide
  · intro h
    have hmetadata := congrArg StreamRequest.metadata (relayedRequest_eq_some h).2
    cases hmetadata

end TunnelMesh.Relay
