import TunnelMesh.Table
import TunnelMesh.Transition
import TunnelMesh.Vpn.Peer

namespace TunnelMesh.Vpn.PeerCapacity

open Transition Table Option List

-- `issuing` are the calls of `Issue` on the node between `checkCapacity` and `Create`,
-- each with whether another one has inserted its peer since.
structure State where
  peers : Table VPNPeer.id
  issuing : List Bool

-- An `Issue` that ends in between, or whose insert is refused, is a `fail`.
inductive Label where
  | checkCapacity
  | create (i : ℕ) (peer : VPNPeer)
  | fail (i : ℕ)
  | revoke (id : String) (now : ℕ)

variable (nodeID : String) (maxPeers : ℤ)

def serves (peer : VPNPeer) : Bool := peer.nodeID = nodeID && peer.status ≠ .revoked

def State.countByNode (s : State) : ℕ := s.peers.affected (serves nodeID)

def revoke (peers : Table VPNPeer.id) (id : String) (now : ℕ) : Table VPNPeer.id :=
  peers.update (fun peer => peer.id = id ∧ peer.status ≠ .revoked)
    (fun peer => { peer with status := .revoked, updatedAt := now }) fun _ => rfl

-- The unique columns of `vpn_peers` besides the id.
def conflicts (peer row : VPNPeer) : Bool :=
  row.publicKey = peer.publicKey || row.nodeID = peer.nodeID && row.vpnIP = peer.vpnIP

def create (peers : Table VPNPeer.id) (peer : VPNPeer) : Option (Table VPNPeer.id) :=
  if peers.rows.any (conflicts peer) then none else peers.insert peer

def step (s : State) : Label → Option State
  | .checkCapacity =>
    if 0 < maxPeers ∧ maxPeers ≤ s.countByNode nodeID then none else some { s with issuing := s.issuing ++ [false] }
  | .create i peer =>
    if s.issuing.length ≤ i then none
    else (create s.peers { peer with nodeID, status := .active }).map fun peers =>
      ⟨peers, (s.issuing.eraseIdx i).map fun _ => true⟩
  | .fail i => if s.issuing.length ≤ i then none else some { s with issuing := s.issuing.eraseIdx i }
  | .revoke id now => some { s with peers := revoke s.peers id now }

-- No other call inserts a peer between the count of an `Issue` and its insert.
def alone (s : State) : Label → Bool
  | .create i _ => s.issuing[i]? = some false
  | _ => true

-- What the count of a call has found still holds until another call inserts.
structure Within (s : State) : Prop where
  bound : s.countByNode nodeID ≤ maxPeers
  room : false ∈ s.issuing → s.countByNode nodeID < maxPeers

variable {nodeID maxPeers} {s next : State}

theorem countByNode_create {peer : VPNPeer}
    (h : create s.peers { peer with nodeID, status := .active } = some peers) :
    State.countByNode nodeID ⟨peers, issuing⟩ = s.countByNode nodeID + 1 := by
  obtain ⟨-, hp⟩ := ite_none_left_eq_some.mp h
  have hc := s.peers.affected_insert hp (serves nodeID)
  simpa [State.countByNode, serves] using hc

theorem countByNode_revoke {id : String} : State.countByNode nodeID ⟨revoke s.peers id now, issuing⟩ ≤ s.countByNode nodeID := by
  refine (s.peers.affected_update_le (serves nodeID) _ (fun peer => { peer with status := .revoked, updatedAt := now })
    fun _ => rfl).trans ?_
  simp [serves, affected, State.countByNode]

theorem step_within (hm : 0 < maxPeers) (h : Within nodeID maxPeers s) (hg : alone s label)
    (hs : step nodeID maxPeers s label = some next) : Within nodeID maxPeers next := by
  cases label with
  | checkCapacity =>
    obtain ⟨hc, hs⟩ := ite_none_left_eq_some.mp hs
    cases hs
    exact ⟨h.bound, fun _ => Int.not_le.mp fun hle => hc ⟨hm, hle⟩⟩
  | create i peer =>
    obtain ⟨-, hs⟩ := ite_none_left_eq_some.mp hs
    obtain ⟨peers, hp, rfl⟩ := map_eq_some_iff.mp hs
    have hlt := h.room (mem_of_getElem? (of_decide_eq_true hg))
    refine ⟨?_, fun hf => absurd hf (by simp)⟩
    rw [countByNode_create hp]
    push_cast
    omega
  | fail i =>
    obtain ⟨-, hs⟩ := ite_none_left_eq_some.mp hs
    cases hs
    exact ⟨h.bound, fun hf => h.room ((eraseIdx_sublist ..).subset hf)⟩
  | revoke id now =>
    cases hs
    have hle : (State.countByNode nodeID ⟨revoke s.peers id now, s.issuing⟩ : ℤ) ≤ s.countByNode nodeID :=
      Int.ofNat_le.mpr countByNode_revoke
    exact ⟨hle.trans h.bound, fun hf => hle.trans_lt (h.room hf)⟩

theorem peers_within_capacity (nodeID : String) (maxPeers : ℤ) (hm : 0 < maxPeers) (peers : Table VPNPeer.id)
    (hp : State.countByNode nodeID ⟨peers, []⟩ ≤ maxPeers) (labels : List Label)
    (ha : Along (step nodeID maxPeers) (fun s label => alone s label) ⟨peers, []⟩ labels) :
    Always (step nodeID maxPeers) (fun s => s.countByNode nodeID ≤ maxPeers) ⟨peers, []⟩ labels :=
  (always_of_invariant (fun _ _ _ h hg hs => step_within hm h hg hs) ⟨peers, []⟩ labels ⟨hp, nofun⟩ ha).mono
    fun _ h => h.bound

def sample (id publicKey vpnIP : String) : VPNPeer :=
  ⟨id, "", "", publicKey, ⟨"", "", "", 0⟩, vpnIP, "", "", [], [], false, false, 0, 0, none, .active, "", 0, 0⟩

-- The second call counts before the first one inserts, and fails.
theorem one_peer_after_another :
    let labels := [.checkCapacity, .checkCapacity, .create 0 (sample "a" "key a" "10.8.0.2"), .fail 0, .revoke "a" 1,
      .checkCapacity, .create 0 (sample "b" "key b" "10.8.0.3")]
    (run (step "node" 1) ⟨Table.empty, []⟩ labels).isSome ∧
      Always (step "node" 1) (fun s => s.countByNode "node" ≤ (1 : ℤ)) ⟨Table.empty, []⟩ labels :=
  ⟨by decide +kernel, peers_within_capacity "node" 1 (by decide) Table.empty (by decide) _ (by decide +kernel)⟩

theorem two_issues_exceed_capacity :
    ∃ s, run (step "node" 1) ⟨Table.empty, []⟩ [.checkCapacity, .checkCapacity, .create 0 (sample "a" "key a" "10.8.0.2"),
      .create 0 (sample "b" "key b" "10.8.0.3")] = some s ∧ s.countByNode "node" = 2 :=
  exists_run_of_any (by decide +kernel)

end TunnelMesh.Vpn.PeerCapacity
