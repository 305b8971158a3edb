import TunnelMesh.Authorization.Revision
import TunnelMesh.Relay.ConnectionClose

namespace TunnelMesh.Relay

open TunnelMesh.Authorization TunnelMesh.Registry TunnelMesh.Storage Option

section Route

variable {cluster : Cluster}

theorem ownerRoute_remote (h : ownerRoute cluster.nodes localNodeID ownerID = .remote nodeID address epoch) :
    ∃ owner, cluster.nodes.get nodeID = some owner ∧ owner.epoch = epoch := by
  unfold ownerRoute at h
  split at h
  · cases h
  split at h
  · cases h
  · rename_i node hn
    split_ifs at h
    cases h; exact ⟨node, hn, rfl⟩

theorem listAgentConnections_epoch
    (h : owner ∈ Registry.Database.listAgentConnections cluster.nodes cluster.leases agentID now later) :
    ∃ node, cluster.nodes.get owner.serverNodeID = some node ∧ node.epoch = owner.serverNodeEpoch := by
  obtain ⟨lease, -, hl⟩ := List.mem_filterMap.mp h
  split at hl
  · cases hl
  · obtain ⟨node, hn, rfl⟩ := map_eq_some_iff.mp hl; exact ⟨node, hn, rfl⟩

theorem closeRoute_remote (h : closeRoute cluster config now later target = .remote nodeID address epoch) :
    ∃ owner, cluster.nodes.get nodeID = some owner ∧ owner.epoch = epoch := by
  cases target with
  | agent agentID connectionID connectionEpoch =>
    simp only [closeRoute, agentRoute] at h
    split at h
    · cases h
    rename_i exact he
    have hmem := List.mem_of_find?_eq_some he
    split_ifs at h
    cases h; exact listAgentConnections_epoch (List.mem_filter.mp hmem).1
  | client request =>
    simp only [closeRoute, clientRoute] at h
    split at h
    · cases h
    split at h
    · cases h
    · split_ifs at h
      exact ownerRoute_remote h
  | webSSH sessionID =>
    simp only [closeRoute, webSSHRoute] at h
    split at h
    · cases h
    · exact ownerRoute_remote h

theorem dialRelayNode_ok (h : dialRelayNode config endpoint epoch = .ok transport) :
    transport.nodeID = config.nodeID ∧ transport.epoch = epoch ∧ transport.rawToken = config.relay.nodeToken := by
  unfold dialRelayNode at h
  simp only at h
  split_ifs at h <;> cases h <;> exact ⟨rfl, rfl, rfl⟩

theorem sentMetadata_caller (h : sentMetadata config address epoch = some md) :
    callerMetadata config.nodeID epoch config.relay.nodeToken = .ok md := by
  obtain ⟨transport, ht, hc⟩ := bind_eq_some_iff.mp h
  obtain ⟨hn, he, htoken⟩ := dialRelayNode_ok (toOption_eq_some ht)
  rw [← hn, ← he, ← htoken]
  exact toOption_eq_some hc

end Route

-- A node whose close requests should be accepted: it is live, and it holds a
-- token for itself and, under mTLS, a certificate with its name.
structure Legitimate (platform : Platform) (cluster : Cluster) (config : RuntimeConfig) (requireMTLS : Bool)
    (peer : Peer platform) (now : ℕ) (caller : ServerNode) (record : ServiceToken)
    (compiled : CompiledTokenScope platform.toLibrary) : Prop where
  node : cluster.nodes.get config.nodeID = some caller
  live : caller.live now
  token : getByHash cluster.db (platform.hashToken config.relay.nodeToken) = some record
  type : record.type = .serverNode
  scope : clientScopeFromRecord platform.toLibrary cluster.db now record = some compiled
  admits : compiled.scope.serverNodeIDs = [] ∨ config.nodeID ∈ compiled.scope.serverNodeIDs
  certificate : requireMTLS → ∃ cert, peer = .verified cert ∧ certificateHasExactSAN cert config.nodeID

def ScopeLive (cluster : Cluster) (now : ℕ) (serverNodeIDs : List String) : Prop :=
  ∀ nodeID ∈ serverNodeIDs, ∃ node, cluster.nodes.get nodeID = some node ∧ node.live now

section Authenticated

variable {cluster : Cluster}
  {peer : Peer platform}
 

theorem validateServerNode_of_legitimate
    (h : Legitimate platform cluster config requireMTLS peer now caller record compiled)
    (hraw : Text.trimSpace config.relay.nodeToken ≠ "") (found : String × List String) :
    validateServerNode platform ⟨cluster.db, cluster.nodes, requireMTLS⟩ now config.relay.nodeToken = some found ↔
      ScopeLive cluster now compiled.scope.serverNodeIDs ∧ found = (record.id, compiled.scope.serverNodeIDs) := by
  have hl : (compiled.scope.serverNodeIDs.all fun nodeID =>
      nodeLive ⟨cluster.db, cluster.nodes, requireMTLS⟩ now nodeID) ↔
      ScopeLive cluster now compiled.scope.serverNodeIDs := by
    simp only [List.all_eq_true, nodeLive, any_eq_true, ScopeLive]
  have hf : validateServerNode platform ⟨cluster.db, cluster.nodes, requireMTLS⟩ now config.relay.nodeToken =
      (serverNodeScopeFromRecord platform ⟨cluster.db, cluster.nodes, requireMTLS⟩ now record).map
        fun scope => (record.id, scope.scope.serverNodeIDs) := by
    simp only [validateServerNode, hraw, h.token, h.type, if_false, not_true_eq_false, ne_eq,
      bind_eq_bind, bind_some, pure_def, map_eq_bind]
    rfl
  rw [hf, serverNodeScopeFromRecord, h.scope]
  by_cases hs : ScopeLive cluster now compiled.scope.serverNodeIDs
  · simp only [bind_eq_bind, bind_some, hl.mpr hs, if_true, map_some,
      some.injEq, hs, true_and]
    exact eq_comm
  · have hd := mt hl.mp hs
    simp only [bind_eq_bind, bind_some, hd, if_false, map_none, hs, false_and, reduceCtorEq]

-- The epoch that a close request presents is the one of the node it goes to. So
-- it is accepted where both nodes have the same epoch; besides, the other nodes
-- of the token's scope have to be live, and the caller's id is without white
-- space around it.
theorem remote_close_authenticated_iff {now' later : ℕ} {target : CloseTarget} {nodeID address : String}
    {epoch : ℤ} {md : Metadata} (hroute : closeRoute cluster config now' later target = .remote nodeID address epoch)
    (hsent : sentMetadata config address epoch = some md)
    (hlegitimate : Legitimate platform cluster config requireMTLS peer now caller record compiled) :
    (∃ p, authenticateServerNode platform ⟨cluster.db, cluster.nodes, requireMTLS⟩ now ⟨some md, peer⟩ = .ok p) ↔
      (∃ owner, cluster.nodes.get nodeID = some owner ∧ owner.epoch = caller.epoch) ∧
        ScopeLive cluster now compiled.scope.serverNodeIDs ∧ Text.trimSpace config.nodeID = config.nodeID := by
  obtain ⟨owner, howner, hepoch⟩ := closeRoute_remote hroute
  have hcaller := sentMetadata_caller hsent
  have hparse := parseServerNodeMetadata_caller hcaller
  obtain ⟨-, -, hraw, -, -⟩ := callerMetadata_ok hcaller
  have hvalidate := validateServerNode_of_legitimate hlegitimate hraw
  constructor
  · rintro ⟨p, hp⟩
    obtain ⟨c, hc, -, hauthorized⟩ := authenticateServerNode_ok_iff.mp hp
    simp only [hparse] at hc
    split_ifs at hc with htrim
    cases hc
    obtain ⟨ids, hids, -, hadmit, -, -⟩ := authorizeCaller_ok_iff.mp hauthorized
    obtain ⟨node, hnode, -, hsame⟩ := admitNode_ok_iff.mp hadmit
    obtain rfl : caller = node := some.inj (hlegitimate.node.symm.trans hnode)
    exact ⟨⟨owner, howner, hepoch.trans hsame.symm⟩, ((hvalidate _).mp hids).1, htrim⟩
  · rintro ⟨⟨other, hother, hsame⟩, hscope, htrim⟩
    obtain rfl : owner = other := some.inj (howner.symm.trans hother)
    refine ⟨⟨config.nodeID, epoch, record.id⟩, authenticateServerNode_ok_iff.mpr
      ⟨⟨config.nodeID, epoch, config.relay.nodeToken⟩, ?_, ?_, authorizeCaller_ok_iff.mpr
        ⟨compiled.scope.serverNodeIDs, ?_, hlegitimate.admits, ?_, rfl, rfl⟩⟩⟩
    · rw [hparse, if_pos htrim]
    · exact fun hmtls => authenticatePeer_ok_iff.mpr (hlegitimate.certificate hmtls)
    · exact (hvalidate _).mpr ⟨hscope, rfl⟩
    · exact admitNode_ok_iff.mpr ⟨caller, hlegitimate.node, hlegitimate.live, hsame.symm.trans hepoch⟩

end Authenticated

def samplePlatform : Platform where
  toLibrary := sampleLibrary
  ipEqual _ _ := false
  hashToken _ := "hash"

def sampleRecord : ServiceToken := ⟨"t", .serverNode, "u", "", "", "hash", "\x7b\x7d", none, none, none, none⟩

def sampleConfig : RuntimeConfig := ⟨"a", ⟨true, "a:9443", "secret", true⟩⟩

def sampleCluster (a b : ℤ) : Cluster where
  db := { sampleDatabase with tokens := ⟨[sampleRecord], List.nodup_singleton _⟩ }
  nodes := ⟨[⟨"a", "a", "a:9443", a, "\x7b\x7d", true, none, none, none⟩,
    ⟨"b", "b", "b:9443", b, "\x7b\x7d", true, none, none, none⟩], by simp⟩
  leases := Table.empty
  clientLeases := ⟨[⟨"c", "i", "t", "u", "b", 1, 0, 100, 0, 60, 0⟩], List.nodup_singleton _⟩
  sessions := Table.empty

def sampleCompiled : CompiledTokenScope samplePlatform.toLibrary := ⟨⟨[], [], [], [], []⟩, [], [], [], [], []⟩

theorem sampleCluster_legitimate (a b : ℤ) : Legitimate samplePlatform (sampleCluster a b) sampleConfig false .missing 0
      ⟨"a", "a", "a:9443", a, "\x7b\x7d", true, none, none, none⟩ sampleRecord sampleCompiled where
  node := rfl
  live := rfl
  token := rfl
  type := rfl
  scope := rfl
  admits := .inl rfl
  certificate := by simp

def sampleTarget : CloseTarget := .client ⟨"c", 1, "i"⟩

theorem equal_epochs_close_accepted :
    ∃ md, closeRoute (sampleCluster 1 1) sampleConfig 0 0 sampleTarget = .remote "b" "b:9443" 1 ∧
      sentMetadata sampleConfig "b:9443" 1 = some md ∧
      ∃ p, authenticateServerNode samplePlatform ⟨(sampleCluster 1 1).db, (sampleCluster 1 1).nodes, false⟩ 0
        ⟨some md, .missing⟩ = .ok p := by
  have hroute : closeRoute (sampleCluster 1 1) sampleConfig 0 0 sampleTarget = .remote "b" "b:9443" 1 := rfl
  obtain ⟨md, hsent⟩ : ∃ md, sentMetadata sampleConfig "b:9443" 1 = some md := ⟨_, rfl⟩
  refine ⟨md, hroute, hsent, (remote_close_authenticated_iff hroute hsent (sampleCluster_legitimate 1 1)).mpr
    ⟨⟨_, rfl, rfl⟩, by simp [ScopeLive, sampleCompiled], by decide⟩⟩

theorem unequal_epochs_close_refused : Legitimate samplePlatform (sampleCluster 2 1) sampleConfig false .missing 0
        ⟨"a", "a", "a:9443", 2, "\x7b\x7d", true, none, none, none⟩ sampleRecord sampleCompiled ∧
      closeRoute (sampleCluster 2 1) sampleConfig 0 0 sampleTarget = .remote "b" "b:9443" 1 ∧
      ∃ md, sentMetadata sampleConfig "b:9443" 1 = some md ∧
        authenticateServerNode samplePlatform ⟨(sampleCluster 2 1).db, (sampleCluster 2 1).nodes, false⟩ 0
          ⟨some md, .missing⟩ = .error ⟨.failedPrecondition, "relay node epoch is stale"⟩ :=
  ⟨sampleCluster_legitimate 2 1, rfl, _, rfl, rfl⟩

end TunnelMesh.Relay
