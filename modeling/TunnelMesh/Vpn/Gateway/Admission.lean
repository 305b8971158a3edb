import TunnelMesh.Vpn.Gateway
import TunnelMesh.Vpn.PeerTable.Theorems

namespace TunnelMesh.Vpn

open PeerTable Transition Bytes Option

variable {round : ℚ → ℚ} {g : Gateway} {entry : PeerEntry}

theorem PeerTable.lookupByIP_eq_ok {t : PeerTable} (h : t.lookupByIP address now = .ok entry) :
    ∃ id, t.byIP.lookup address = some id ∧ t.peers.lookup id = some entry ∧ entry.usable now = .ok () := by
  rw [lookupByIP, guard_eq_ok] at h
  cases hid : t.byIP.lookup address with
  | none => simp [hid] at h
  | some id =>
    cases hp : t.peers.lookup id with
    | none => simp [hid, hp] at h
    | some found =>
      simp only [hid, hp] at h
      obtain ⟨_, hu, rfl⟩ := map_eq_ok h.2
      cases hf : found.usable now with
      | error e => rw [hf] at hu; cases hu
      | ok _ => exact ⟨id, rfl, hp, rfl⟩

theorem PeerEntry.usable_eq_ok (h : entry.usable now = .ok ()) :
    entry.status = .active ∧ ∀ expiry ∈ entry.expiresAt, now < expiry := by
  rw [usable, guard_eq_ok, guard_eq_ok] at h
  refine ⟨not_not.mp h.1, fun expiry he => ?_⟩
  by_contra hp
  apply h.2.1
  rw [mem_def.mp he, any_some, decide_eq_true_iff]
  exact not_lt.mp hp

def Denies (effects : List PacketEffect) : Prop :=
  ∃ denial : Denial, effects = [.dropped denial.protocol denial.errorClass, .recorded denial]

theorem denies_denyPacket (parsed : WirePacket) (entry : Option PeerEntry) (errorClass : ErrorClass)
    (reason : String) : Denies (denyPacket parsed entry errorClass reason) := ⟨⟨_, _, _, _, _, _⟩, rfl⟩

namespace Gateway

theorem denies_of_resolve (h : g.resolve packet now = .error effects) : Denies effects := by
  rw [resolve] at h
  split at h
  · cases h; exact ⟨⟨_, _, _, _, _, _⟩, rfl⟩
  split_ifs at h
  · cases h; exact denies_denyPacket _ _ _ _
  · split at h <;> cases h
    exact denies_denyPacket _ _ _ _

theorem resolve_eq_ok (h : g.resolve packet now = .ok (entry, parsed)) :
    parseWirePacket packet = .ok parsed ∧ parsed.fragment = false ∧ g.peers.lookupByIP parsed.src now = .ok entry := by
  rw [resolve] at h
  split at h
  · cases h
  · next found hp =>
    rw [guard_eq_ok] at h
    obtain ⟨hw, h⟩ := h
    split at h <;> cases h
    next hl => exact ⟨hp, Bool.eq_false_iff.mpr hw, hl⟩

theorem bucketFor_snd (round : ℚ → ℚ) (g : Gateway) (entry : PeerEntry) (now : ℕ) :
    ∃ buckets, (g.bucketFor round entry now).2 = { g with buckets } := by
  rw [bucketFor]
  split_ifs
  · exact ⟨g.buckets, rfl⟩
  · cases g.buckets.lookup entry.peerID with
    | some bucket => exact ⟨g.buckets, rfl⟩
    | none => exact ⟨_, rfl⟩

theorem dispatch_cases (relay : PacketRelay) (entry : PeerEntry) (parsed : WirePacket) :
    g.dispatch relay entry parsed = [.served relay entry parsed] ∨ Denies (g.dispatch relay entry parsed) := by
  rw [dispatch]
  split_ifs
  · exact .inl rfl
  · exact .inr (denies_denyPacket _ _ _ _)

theorem route_cases (entry : PeerEntry) (parsed : WirePacket) :
    (∃ relay, g.route entry parsed = [.served relay entry parsed] ∧ g.selfAddress ≠ some parsed.dst ∧
      entry.policy.allow parsed.policyPacket = .ok ()) ∨ Denies (g.route entry parsed) := by
  rw [route]
  by_cases hself : g.selfAddress = some parsed.dst
  · rw [if_pos hself]; exact .inr (denies_denyPacket _ _ _ _)
  rw [if_neg hself]
  cases hallow : entry.policy.allow parsed.policyPacket with
  | error e => exact .inr (denies_denyPacket _ _ _ _)
  | ok _ =>
    have hs : ∀ relay, g.dispatch relay entry parsed = [.served relay entry parsed] ∨
        Denies (g.dispatch relay entry parsed) := fun relay => dispatch_cases relay entry parsed
    split_ifs
    · exact (hs .tcp).imp_left fun h => ⟨.tcp, h, hself, rfl⟩
    · exact (hs .udp).imp_left fun h => ⟨.udp, h, hself, rfl⟩
    · exact (hs .icmp).imp_left fun h => ⟨.icmp, h, hself, rfl⟩
    · exact .inr (denies_denyPacket _ _ _ _)
    · exact .inr (denies_denyPacket _ _ _ _)

structure Admitted (round : ℚ → ℚ) (g : Gateway) (packet : List UInt8) (clock : PacketClock) (entry : PeerEntry)
    (parsed : WirePacket) : Prop where
  ipv4 : packet.getD 0 0 >>> 4 = 4
  parse_eq : parseWirePacket packet = .ok parsed
  whole : isFragment packet = false
  size_le : (parsed.size : ℤ) ≤ entry.policy.mtu
  resolved : ∃ id, g.peers.byIP.lookup (bigEndian (slice packet 12 16)) = some id ∧ g.peers.peers.lookup id = some entry
  active : entry.status = .active
  unexpired : ∀ expiry ∈ entry.expiresAt, clock.looked < expiry
  budget : (g.bucketFor round entry clock.created).1.HasBudget round clock.metered
  dst_eq : parsed.dst = bigEndian (slice packet 16 20)
  not_self : g.selfAddress ≠ some parsed.dst
  safe : ¬(octet parsed.dst 0 = 0 ∨ 224 ≤ octet parsed.dst 0 ∨ (octet parsed.dst 0 = 169 ∧ octet parsed.dst 1 = 254))
  inside : ∃ network ∈ entry.policy.allowedIPs, network.contains parsed.dst
  public_or_allowed : entry.policy.allowPrivateTargets ∨ isPrivateTarget parsed.dst = false
  port : parsed.protocol = protocolTCP ∨ parsed.protocol = protocolUDP → entry.policy.ports ≠ [] →
    (parsed.dstPort : ℤ) ∈ entry.policy.ports

theorem admitted_of_allow (hr : g.resolve packet clock.looked = .ok (entry, parsed))
    (hb : (g.bucketFor round entry clock.created).1.HasBudget round clock.metered)
    (hs : g.selfAddress ≠ some parsed.dst) (hallow : entry.policy.allow parsed.policyPacket = .ok ()) :
    g.Admitted round packet clock entry parsed := by
  obtain ⟨hparse, hw, hl⟩ := resolve_eq_ok hr
  obtain ⟨hv, hh⟩ := parseWirePacket_eq_ok hparse
  obtain ⟨id, hip, hpeer, husable⟩ := lookupByIP_eq_ok hl
  obtain ⟨hactive, hu⟩ := PeerEntry.usable_eq_ok husable
  obtain ⟨dest, ha⟩ := PacketPolicy.allow_eq_ok hallow
  obtain rfl : parsed.dst = dest := some.inj ha.dest_eq
  have hsafe := ha.safe
  exact {
    ipv4 := hv
    parse_eq := hparse
    whole := hh.fragment.symm.trans hw
    size_le := ha.size_le
    resolved := ⟨id, by rw [← hip, hh.src]; rfl, hpeer⟩
    active := hactive
    unexpired := hu
    budget := hb
    dst_eq := hh.dst
    not_self := hs
    safe := by
      simp only [isDangerousAddress, Bool.or_eq_false_iff, Bool.and_eq_false_iff, decide_eq_false_iff_not] at hsafe
      tauto
    inside := ha.inside
    public_or_allowed := ha.public_or_allowed
    port := fun hp => by
      refine (ha.port ?_).2
      rintro hi
      have hboth : parsed.protocol = protocolICMP := hi
      rw [hboth] at hp
      exact absurd hp (by decide) }

theorem handlePacket_cases (round : ℚ → ℚ) (g : Gateway) (packet : List UInt8) (clock : PacketClock) :
    (∃ relay entry parsed, (g.handlePacket round packet clock).2 = [.served relay entry parsed] ∧
      g.Admitted round packet clock entry parsed) ∨ Denies (g.handlePacket round packet clock).2 := by
  rw [handlePacket]
  cases hr : g.resolve packet clock.looked with
  | error effects => exact .inr (denies_of_resolve hr)
  | ok pair =>
    obtain ⟨entry, parsed⟩ := pair
    dsimp only
    split_ifs with ha
    · have hs : ∀ bucket, (((g.bucketFor round entry clock.created).2).putBucket entry bucket).selfAddress =
          g.selfAddress := by
        intro bucket
        obtain ⟨buckets, hb⟩ := bucketFor_snd round g entry clock.created
        rw [hb, putBucket]
        split_ifs <;> rfl
      rcases route_cases entry parsed with ⟨relay, hroute, ho, hallow⟩ | hd
      · rw [hs] at ho
        exact .inl ⟨relay, entry, parsed, hroute,
          admitted_of_allow hr (PacketBucket.hasBudget_of_allow round ha) ho hallow⟩
      · exact .inr hd
    · exact .inr (denies_denyPacket _ _ _ _)

end Gateway

def PeerEntry.Issued (entry : PeerEntry) (calls : List PeerCall) (mtu : ℤ) : Prop :=
  ∃ row readings address policy, PeerCall.apply row readings ∈ calls ∧ entry = .ofRow row address policy ∧
    (policy = .zero ∨ policy = policyOf row mtu)

def PeerTable.Issued (t : PeerTable) (calls : List PeerCall) (mtu : ℤ) : Prop :=
  t.mtu = mtu ∧ ∀ id entry, t.peers.lookup id = some entry → entry.Issued calls mtu

theorem PeerTable.Issued.step {d : Decoders} {calls : List PeerCall} {mtu : ℤ} {s next : PeerState} {call : PeerCall}
    (hi : s.table.Issued calls mtu) (hmem : call ∈ calls) (hs : s.step d call = some next) :
    next.table.Issued calls mtu := by
  cases call with
  | apply row readings =>
    simp only [PeerState.step] at hs
    split at hs
    · cases hs; exact hi
    · next table actions hok =>
      cases hs
      obtain ⟨entry, he, rfl, -⟩ := applyPeer_eq_ok hok
      refine ⟨hi.1, fun id found hf => ?_⟩
      rw [lookup_peers_index] at hf
      split_ifs at hf
      · cases hf
        obtain ⟨-, address, policy, hrow, -, hp⟩ := entryOf_eq_ok he
        exact ⟨row, readings, address, policy, hmem, hrow, hi.1 ▸ hp⟩
      · exact hi.2 id found hf
  | remove peerID =>
    simp only [PeerState.step, removePeer] at hs
    split at hs
    · cases hs; exact hi
    cases hs
    refine ⟨hi.1, fun id found hf => hi.2 id found ?_⟩
    rw [Dict.lookup_erase_eq] at hf
    split_ifs at hf
    exact hf

theorem PeerState.issued_of_run (h : run (step d) (init config) calls = some s) :
    s.table.Issued calls (new config).mtu := by
  have hs : ∀ s call next, s.table.Issued calls (new config).mtu → call ∈ calls →
      step d s call = some next → next.table.Issued calls (new config).mtu :=
    fun s call next hi hmem hs => hi.step hmem hs
  exact run_invariant hs ⟨rfl, fun id entry he => by cases he⟩
    (along_of_forall fun _ _ hmem => hmem) h

-- The second part is for the tables that `ApplyPeer` and `RemovePeer` build: the
-- policy is then the one of an applied row, with the MTU of the table.
theorem packet_admission (round : ℚ → ℚ) (g : Gateway) (packet : List UInt8) (clock : Gateway.PacketClock) :
    (∀ relay entry parsed, .served relay entry parsed ∈ (g.handlePacket round packet clock).2 →
      g.Admitted round packet clock entry parsed ∧
      ∀ d config calls s, run (PeerState.step d) (.init config) calls = some s → g.peers = s.table →
        ∃ row readings address, PeerCall.apply row readings ∈ calls ∧
          entry = .ofRow row address (PeerTable.policyOf row (PeerTable.new config).mtu)) ∧
    ((∀ relay entry parsed, .served relay entry parsed ∉ (g.handlePacket round packet clock).2) →
      Denies (g.handlePacket round packet clock).2) := by
  rcases g.handlePacket_cases round packet clock with ⟨relay, entry, parsed, heffects, hadmitted⟩ | hdenies
  · rw [heffects]
    refine ⟨fun other found read hmem => ?_, fun hnone => absurd (List.mem_singleton_self _) (hnone _ _ _)⟩
    obtain ⟨-, rfl, rfl⟩ := PacketEffect.served.inj (List.mem_singleton.mp hmem)
    refine ⟨hadmitted, fun d config calls s hrun hpeers => ?_⟩
    obtain ⟨id, -, hlookup⟩ := hadmitted.resolved
    rw [hpeers] at hlookup
    obtain ⟨row, readings, address, policy, hcall, rfl, hpolicy⟩ := (PeerState.issued_of_run hrun).2 id found hlookup
    -- The zero policy of a row that could not be served contains nothing.
    obtain ⟨network, hnetwork, -⟩ := hadmitted.inside
    rcases hpolicy with rfl | rfl
    · cases hnetwork
    · exact ⟨row, readings, address, hcall, rfl⟩
  · refine ⟨fun relay entry parsed hmem => ?_, fun _ => hdenies⟩
    obtain ⟨denial, heffects⟩ := hdenies
    rw [heffects] at hmem
    simp at hmem

example :
    let entry : PeerEntry := ⟨"p", "", 0x0a400002, "", "", .active, ⟨[⟨0, 1, by decide⟩], [53], false, false, 576⟩, 0, 9,
      false, none⟩
    let g : Gateway := ⟨(new ⟨576, ""⟩).index entry, ∅, 0, none, [.udp]⟩
    let packet := [69, 0, 0, 28, 0, 0, 0, 0, 64, 17, 0, 0, 10, 64, 0, 2, 8, 8, 8, 8, 0, 9, 0, 53, 0, 8, 0, 0]
    (parseWirePacket packet).toOption.map (fun parsed => [.served .udp entry parsed]) =
      some (g.handlePacket id packet ⟨0, 0, 0⟩).2 := by decide +kernel

end TunnelMesh.Vpn
