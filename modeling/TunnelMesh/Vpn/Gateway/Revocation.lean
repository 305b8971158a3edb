import TunnelMesh.Vpn.FlowTable.Theorems
import TunnelMesh.Vpn.Gateway.Admission
import TunnelMesh.Vpn.Gateway.Run

namespace TunnelMesh.Vpn

open GatewayRun FlowTable PeerTable Dict PeerEntry FlowState PacketEffect Option List Transition PeerState

namespace PeerTable

variable {t : PeerTable}

theorem lookup_of_lookupByIP {address now : ℕ} (h : t.Indexed) (hl : t.lookupByIP address now = .ok entry) :
    t.peers.lookup entry.peerID = some entry := by
  obtain ⟨id, -, hid, -⟩ := lookupByIP_eq_ok hl
  rwa [h.own hid]

structure Rewrites (t : PeerTable) (id : String) (result : PeerTable × List HookAction) : Prop where
  indexed : result.1.Indexed
  others : ∀ p ≠ id, result.1.peers.lookup p = t.peers.lookup p ∨ result.1.peers.lookup p = none
  closes : ∀ p, result.1.peers.lookup p = none → t.peers.lookup p = none ∨ .closePeer p ∈ result.2
  closed : ∀ p, .closePeer p ∈ result.2 → t.peers.lookup p ≠ none ∨ result.1.peers.lookup p ≠ none
  forgets : result.1.peers.lookup id = none ∨ .forgetBucket id ∈ result.2
  forgotten : ∀ p ≠ id, .forgetBucket p ∈ result.2 → result.1.peers.lookup p = none

theorem rewrites_applyPeer (h : t.Indexed) (hok : t.applyPeer d row readings = .ok result) :
    t.Rewrites row.id result ∧ ∃ e, result.1.peers.lookup row.id = some e ∧ e.rateLimit = row.packetRateLimit := by
  obtain ⟨entry, he, hn, ha⟩ := applyPeer_eq_ok hok
  obtain ⟨-, address, policy, rfl, -⟩ := entryOf_eq_ok he
  obtain ⟨next, actions⟩ := result
  subst hn ha
  have hl : ∀ p, (t.index (.ofRow row address policy)).peers.lookup p =
      if p = row.id then some (.ofRow row address policy)
      else if t.holder (.ofRow row address policy) = some p then none else t.peers.lookup p := lookup_peers_index
  -- The hooks of an apply name the peer and the one that it displaces.
  have hhooks : ∀ p ≠ row.id, .closePeer p ∈ t.applyHooks (.ofRow row address policy) readings.hooked ∨
      .forgetBucket p ∈ t.applyHooks (.ofRow row address policy) readings.hooked →
      t.holder (.ofRow row address policy) = some p ∧ t.peers.lookup p ≠ none := by
    intro p hid hp
    simp only [applyHooks, mem_append] at hp
    cases hd : t.displaced (.ofRow row address policy) with
    | none => split_ifs at hp <;> simp_all [peerKeyReplaced, peerApplied, peerRemoved, ofRow]
    | some other =>
      obtain ⟨holder, hh, ho⟩ := bind_eq_some_iff.mp hd
      have hs : p = holder := by
        split_ifs at hp <;> simp_all [peerKeyReplaced, peerApplied, peerRemoved, ofRow, h.own ho]
      rw [hs]
      exact ⟨hh, by simp [ho]⟩
  refine ⟨⟨h.index _, fun p hp => ?_, fun p hp => ?_, fun p hp => ?_, .inr ?_, fun p hid hp => ?_⟩, _,
    by rw [hl, if_pos rfl], rfl⟩
  · rw [hl, if_neg hp]
    split_ifs
    · exact .inr rfl
    · exact .inl rfl
  · rw [hl] at hp
    split_ifs at hp with hid hh
    · cases ho : t.peers.lookup p with
      | none => exact .inl rfl
      | some other =>
        have hd : t.displaced (.ofRow row address policy) = some other := by rw [displaced, hh]; exact ho
        refine .inr ?_
        rw [applyHooks, hd]
        simp [peerRemoved, h.own ho]
    · exact .inl hp
  · by_cases hid : p = row.id
    · exact .inr (by simp [hl, hid])
    · exact .inl (hhooks p hid (.inl hp)).2
  · rw [applyHooks]
    cases isUsable (.ofRow row address policy) readings.hooked <;>
      simp [peerApplied, peerRemoved, ofRow]
  · rw [hl, if_neg hid, if_pos (hhooks p hid (.inr hp)).1]

theorem rewrites_removePeer (h : t.Indexed) (id : String) :
    t.Rewrites id (t.removePeer id) ∧ (t.removePeer id).1.peers.lookup id = none := by
  rw [removePeer]
  cases he : t.peers.lookup id with
  | none =>
    exact ⟨⟨h, fun p _ => .inl rfl, fun p hp => .inl hp, (fun _ hp => by cases hp), .inl he,
      fun _ _ hp => by cases hp⟩, he⟩
  | some entry =>
    have hid : (t.peers.erase id).lookup id = none := by rw [lookup_erase_eq, if_pos rfl]
    refine ⟨⟨h.removePeer he, fun p hp => .inl ?_, fun p hp => ?_, fun p hp => .inl ?_, .inl hid, fun p hne hp => ?_⟩, hid⟩
    · rw [lookup_erase_eq, if_neg hp]
    · by_cases heq : p = id
      · exact .inr (by simp [peerRemoved, heq, h.own he])
      · exact .inl (by rwa [lookup_erase_eq, if_neg heq] at hp)
    · obtain rfl : p = id := by simpa [peerRemoved, h.own he] using hp
      simp [he]
    · exact absurd (by simpa [peerRemoved, h.own he] using hp) hne

end PeerTable

namespace FlowState

theorem mem_of_register {s : FlowState}
    (h : key ∈ (s.register reg now).table.flows) : key ∈ s.table.flows ∨ key = reg.key := by
  rw [register] at h
  split at h
  · next hreg =>
    obtain ⟨-, ⟨hf, -⟩ | ⟨-, -, -, -, -, -, rfl⟩⟩ := register_eq_ok hreg
    · cases hf
    · exact ((AList.mem_insert _).mp h).symm
  · exact .inl h

theorem mem_of_step {s next : FlowState} (h : s.Accounted config)
    (hl : ¬label.registers) (hs : s.step label = some next)
    (hkey : key ∈ next.table.flows) : key ∈ s.table.flows := by
  have hd : ∀ {keys : List FlowKey} {out : FlowTable × List Flow}, s.table.Detaches keys out →
      key ∈ out.1.flows → key ∈ s.table.flows := by
    intro keys out hout hmem
    obtain ⟨flow, hf⟩ := mem_iff_lookup.mp hmem
    rw [hout.lookup] at hf
    split_ifs at hf
    exact mem_of_lookup hf
  cases label with
  | register reg now => exact absurd rfl hl
  | remove key => cases hs; exact hd (detaches_remove h.indexed key) hkey
  | closePeer peerID =>
    cases hs
    exact hd (detaches_closePeer h.indexed peerID) hkey
  | reapIdle now =>
    cases hs
    obtain ⟨keys, hk⟩ := exists_detaches_reapIdle h.indexed now
    exact hd hk hkey
  | drain => cases hs; exact hkey
  | close =>
    cases hs
    obtain ⟨flow, hf⟩ := mem_iff_lookup.mp hkey
    cases hc : s.table.closed with
    | true => exact (close_of_closed hc ▸ hkey :)
    | false => exact absurd (hf.symm.trans (flows_close h.indexed hc key)) (by simp)
  | touch other ref now =>
    cases hs
    have hsame := lookup_touch (t := s.table) other ref now key
    obtain ⟨flow, hf⟩ := mem_iff_lookup.mp hkey
    rw [show (s.table.touch other ref now).flows.lookup key = some flow from hf] at hsame
    obtain ⟨found, hfound, -⟩ := map_eq_some_iff.mp hsame.symm
    exact mem_of_lookup hfound
  | hook ref =>
    rw [step] at hs
    split_ifs at hs
    cases hs
    exact hkey

end FlowState

namespace GatewayRun

variable {round : ℚ → ℚ} {s next : GatewayRun} {label : GatewayLabel}

def Absent (s : GatewayRun) (p : String) : Prop :=
  s.gateway.peers.peers.lookup p = none ∧ .closePeer p ∉ s.hooks

structure Cleared (config : FlowTableConfig) (s : GatewayRun) : Prop where
  indexed : s.gateway.peers.Indexed
  accounted : s.flows.Accounted config
  idle : s.current = none → s.hooks = []
  handlers : ∀ p, s.Absent p → ∀ h ∈ s.handlers, h.peerID ≠ p
  flows : ∀ p, s.Absent p → ∀ key ∈ s.flows.table.flows, key.peerID ≠ p
  removing : ∀ p, s.current = some (.remove p) → s.gateway.peers.peers.lookup p = none
  revoked : ∀ p ∈ s.revoked, s.Absent p

-- A step of the data plane: a handler is of a peer that has one already or that
-- is in the table, and a flow of a peer that has a handler.
theorem Cleared.of_same (h : s.Cleared config) (haccounted : next.flows.Accounted config)
    (hpeers : next.gateway.peers = s.gateway.peers) (hh : next.hooks = s.hooks)
    (hc : next.current = s.current) (hr : next.revoked = s.revoked)
    (hhandlers : ∀ x ∈ next.handlers, (∃ y ∈ s.handlers, y.peerID = x.peerID) ∨
      s.gateway.peers.peers.lookup x.peerID ≠ none)
    (hf : ∀ key ∈ next.flows.table.flows, key ∈ s.flows.table.flows ∨ ∃ y ∈ s.handlers, y.peerID = key.peerID) :
    next.Cleared config := by
  have ha : ∀ p, next.Absent p → s.Absent p := by intro p hp; rwa [Absent, hpeers, hh] at hp
  refine ⟨hpeers ▸ h.indexed, haccounted, ?_, ?_, ?_, ?_, ?_⟩
  · rw [hc, hh]; exact h.idle
  · intro p hp x hx heq
    rcases hhandlers x hx with ⟨y, hy, hs⟩ | hsome
    · exact h.handlers p (ha p hp) y hy (hs.trans heq)
    · exact hsome (heq ▸ (ha p hp).1)
  · intro p hp key hkey heq
    rcases hf key hkey with hold | ⟨y, hy, hs⟩
    · exact h.flows p (ha p hp) key hold heq
    · exact h.handlers p (ha p hp) y hy (hs.trans heq)
  · rw [hc, hpeers]; exact h.removing
  · rw [hr]
    intro p hp
    rw [Absent, hpeers, hh]
    exact h.revoked p hp

theorem registration_peerID
    (h : reg ∈ (s.gateway.route entry parsed).filterMap registration) : reg.key.peerID = entry.peerID := by
  rcases Gateway.route_cases (g := s.gateway) entry parsed with ⟨relay, hr, -⟩ | ⟨denial, hr⟩
  · cases relay <;> simp_all [registration, PacketRelay.registration]
  · simp [hr, registration] at h

theorem handlers_meter (hx : x ∈ (s.meter round i now allowed entry parsed since).handlers) :
    x ∈ s.handlers ∨ ∃ reg, x = .registering reg ∧ reg.key.peerID = entry.peerID := by
  rcases mem_append.mp hx with hold | hnew
  · exact .inl (mem_of_mem_eraseIdx hold)
  · split_ifs at hnew
    · obtain ⟨reg, hreg, rfl⟩ := mem_map.mp hnew; exact .inr ⟨reg, rfl, registration_peerID hreg⟩
    · cases hnew

theorem Cleared.start (h : s.Cleared config) (hc : s.current = none) {id : String}
    (hresult : s.gateway.peers.Rewrites id result)
    (hremove : ∀ p, call = .remove p → result.1.peers.lookup p = none) {revoked : Finset String}
    (hr : ∀ p ∈ revoked, p ∈ s.revoked ∧ result.1.peers.lookup p = none) :
    Cleared config { s.start call id result with revoked } := by
  have ha : ∀ p, Absent { s.start call id result with revoked } p → s.Absent p := by
    intro p hp
    refine ⟨(hresult.closes p hp.1).resolve_right hp.2, ?_⟩
    rw [h.idle hc]
    exact not_mem_nil
  exact {
    indexed := hresult.indexed
    accounted := h.accounted
    idle := fun hn => by cases hn
    handlers := fun p hp => h.handlers p (ha p hp)
    flows := fun p hp => h.flows p (ha p hp)
    removing := fun p hp => hremove p (some.inj hp)
    revoked := fun p hp => ⟨(hr p hp).2, fun hclose =>
      (hresult.closed p hclose).elim (· (h.revoked p (hr p hp).1).1) (· (hr p hp).2)⟩ }

theorem Cleared.hook (h : s.Cleared config) {rest : List HookAction}
    (hh : s.hooks = action :: rest) (hq : ∀ x ∈ s.handlers, action ≠ .closePeer x.peerID) :
    Cleared config { s.act action with hooks := rest } := by
  have hsame : (s.act action).gateway.peers = s.gateway.peers ∧ (s.act action).handlers = s.handlers ∧
      (s.act action).current = s.current ∧ (s.act action).revoked = s.revoked := by
    cases action <;> exact ⟨rfl, rfl, rfl, rfl⟩
  obtain ⟨hpeers, hhandlers, hc, hr⟩ := hsame
  have hf : (s.act action).flows.Accounted config ∧ ∀ key ∈ (s.act action).flows.table.flows,
      key ∈ s.flows.table.flows ∧ action ≠ .closePeer key.peerID := by
    cases action with
    | closePeer p =>
      have hs : s.flows.step (.closePeer p) = some (s.flows.detach (s.flows.table.closePeer p)) := rfl
      refine ⟨h.accounted.step hs, fun key hkey => ⟨mem_of_step h.accounted (by simp [FlowLabel.registers]) hs hkey, ?_⟩⟩
      intro hclose
      obtain ⟨flow, hflow⟩ := mem_iff_lookup.mp hkey
      have hg : (s.flows.table.closePeer p).1.flows.lookup key = none := by
        rw [lookup_closePeer h.accounted.indexed, if_pos (HookAction.closePeer.inj hclose).symm]
      cases hg.symm.trans hflow
    | forgetBucket | installDevicePeer | removeDevicePeer => exact ⟨h.accounted, fun key hkey => ⟨hkey, nofun⟩⟩
  have ha : ∀ p, Absent { s.act action with hooks := rest } p → action ≠ .closePeer p → s.Absent p := by
    intro p hp hne
    refine ⟨hpeers ▸ hp.1, ?_⟩
    rw [hh, mem_cons]
    exact fun hmem => hmem.elim (fun heq => hne heq.symm) hp.2
  refine ⟨hpeers ▸ h.indexed, hf.1, ?_, ?_, ?_, ?_, ?_⟩
  · intro hn; cases (h.idle (hc ▸ hn)).symm.trans hh
  · intro p hp x hx heq
    rw [hhandlers] at hx
    exact h.handlers p (ha p hp (heq ▸ hq x hx)) x hx heq
  · intro p hp key hkey heq
    obtain ⟨hold, hne⟩ := hf.2 key hkey
    exact h.flows p (ha p hp (heq ▸ hne)) key hold heq
  · rw [hc, hpeers]; exact h.removing
  · rw [hr]
    intro p hp
    obtain ⟨hn, hclosed⟩ := h.revoked p hp
    exact ⟨hpeers ▸ hn, fun hmem => hclosed (hh ▸ mem_cons_of_mem _ hmem)⟩

theorem Cleared.finished (h : s.Cleared config) (hh : s.hooks = []) {call : PeerCall}
    (hc : s.current = some call) : Cleared config (s.finished call) := by
  cases call with
  | apply row readings => exact { h with idle := fun _ => hh, removing := fun p hp => (by cases hp) }
  | remove peerID =>
    refine { h with idle := fun _ => hh, removing := fun p hp => (by cases hp), revoked := fun p hp => ?_ }
    rcases Finset.mem_insert.mp hp with rfl | hold
    · exact ⟨h.removing p hc, by rw [GatewayRun.finished, hh]; exact not_mem_nil⟩
    · exact h.revoked p hold

theorem Cleared.begin (h : s.Cleared config) (hc : s.current = none) (call : PeerCall) :
    Cleared config (s.begin d call) := by
  cases call with
  | apply row readings =>
    rw [GatewayRun.begin]
    split
    · exact h
    · next result hok =>
      have hr := (rewrites_applyPeer h.indexed hok).1
      refine h.start hc hr (fun p hp => by cases hp) fun p hp => ?_
      obtain ⟨hne, hold⟩ := Finset.mem_erase.mp hp
      exact ⟨hold, (hr.others p hne).elim (·.trans (h.revoked p hold).1) id⟩
  | remove peerID =>
    obtain ⟨hr, hn⟩ := rewrites_removePeer h.indexed peerID
    refine h.start hc hr (fun p hp => PeerCall.remove.inj hp ▸ hn) fun p hp => ⟨hp, ?_⟩
    by_cases heq : p = peerID
    · exact heq ▸ hn
    · exact (hr.others p heq).elim (·.trans (h.revoked p hp).1) id

-- Where the flows of a peer are closed, no goroutine that has looked the peer up
-- has a flow still to register.
def Quiesced (s : GatewayRun) (label : GatewayLabel) : Prop :=
  label.isHook → ∀ action ∈ s.hooks.head?, ∀ x ∈ s.handlers, action ≠ .closePeer x.peerID
  deriving Decidable

theorem Cleared.step (h : s.Cleared config) (hq : Quiesced s label) (hs : s.step round d label = some next) :
    next.Cleared config := by
  have hold : ∀ {x : Handler}, x ∈ s.handlers → (∃ y ∈ s.handlers, y.peerID = x.peerID) ∨
      s.gateway.peers.peers.lookup x.peerID ≠ none := fun hx => .inl ⟨_, hx, rfl⟩
  cases label
  case packet bytes now =>
    obtain rfl : s.arrive bytes now = next := some.inj hs
    rw [arrive]
    split
    · exact h
    · next entry parsed hr =>
      obtain ⟨-, -, hl⟩ := Gateway.resolve_eq_ok hr
      refine h.of_same h.accounted rfl rfl rfl rfl (fun x hx => ?_) fun key hkey => .inl hkey
      rcases mem_append.mp hx with hx | hx
      · exact hold hx
      · obtain rfl := mem_singleton.mp hx
        exact .inr (by simp [Handler.peerID, lookup_of_lookupByIP h.indexed hl])
  case connect remote target now =>
    obtain rfl : s.connect remote target now = next := some.inj hs
    rw [connect]
    split
    · exact h
    · next entry hl =>
      split_ifs
      · refine h.of_same h.accounted rfl rfl rfl rfl (fun x hx => ?_) fun key hkey => .inl hkey
        rcases mem_append.mp hx with hx | hx
        · exact hold hx
        · obtain rfl := mem_singleton.mp hx
          exact .inr (by simp [Handler.peerID, lookup_of_lookupByIP h.indexed hl])
      · exact h
  all_goals simp only [step] at hs
  case meter i now allowed =>
    split at hs <;> cases hs
    next entry parsed since hi =>
      obtain ⟨buckets, hb⟩ := s.gateway.bucketFor_snd round entry now
      refine h.of_same h.accounted (by simp [meter, hb]) rfl rfl rfl (fun x hx => ?_) fun key hkey => .inl hkey
      rcases handlers_meter hx with hx | ⟨reg, rfl, hreg⟩
      · exact hold hx
      · exact .inl ⟨_, mem_of_getElem? hi, hreg.symm⟩
  case register i now =>
    split at hs <;> cases hs
    next reg hi =>
      refine h.of_same (h.accounted.register reg now) rfl rfl rfl rfl (fun x hx => hold (mem_of_mem_eraseIdx hx))
        fun key hkey => ?_
      rcases mem_of_register hkey with hkey | rfl
      · exact .inl hkey
      · exact .inr ⟨_, mem_of_getElem? hi, rfl⟩
  case leave i =>
    split at hs <;> cases hs
    exact h.of_same h.accounted rfl rfl rfl rfl (fun x hx => hold (mem_of_mem_eraseIdx hx))
      fun key hkey => .inl hkey
  case flow label =>
    split_ifs at hs with hlabel
    obtain ⟨flows, hf, rfl⟩ := map_eq_some_iff.mp hs
    exact h.of_same (h.accounted.step hf) rfl rfl rfl rfl (fun x hx => hold hx)
      fun key hkey => .inl (mem_of_step h.accounted hlabel hf hkey)
  case call call =>
    split_ifs at hs with hc
    cases hs
    exact h.begin hc call
  case hook =>
    split at hs <;> cases hs
    next action rest hh => exact h.hook hh (hq rfl action (by rw [hh]; rfl))
  case finish =>
    split_ifs at hs with hh
    obtain ⟨call, hcall, rfl⟩ := map_eq_some_iff.mp hs
    exact h.finished hh hcall

-- A peer whose `RemovePeer` has returned and that was not applied since has no
-- flow in the table.
def RevokedFlowless (s : GatewayRun) : Prop := ∀ p ∈ s.revoked, ∀ key ∈ s.flows.table.flows, key.peerID ≠ p

theorem cleared_init (peers : PeerTableConfig) (rate : ℤ) (self : Option ℕ) (relays : List PacketRelay) :
    Cleared config (init peers config rate self relays) where
  indexed := indexed_new peers
  accounted := accounted_init
  idle _ := rfl
  handlers p _ x hx := by cases hx
  flows p _ key hkey := by cases hkey
  removing p hp := by cases hp
  revoked p hp := by cases hp

theorem revocation_complete (round : ℚ → ℚ) (d : Decoders) (peers : PeerTableConfig) (config : FlowTableConfig)
    (rate : ℤ) (self : Option ℕ) (relays : List PacketRelay) (labels : List GatewayLabel)
    (h : Along (step round d) Quiesced (init peers config rate self relays) labels) :
    Always (step round d) RevokedFlowless (init peers config rate self relays) labels := by
  have hcleared := always_of_invariant (fun s label next hinv hquiet hstep => hinv.step hquiet hstep) _ labels
      (cleared_init peers rate self relays) h
  exact hcleared.mono fun s hs p hp => hs.flows p (hs.revoked p hp)

def sampleDatagram : List UInt8 :=
  [69, 0, 0, 28, 0, 0, 0, 0, 64, 17, 0, 0, 10, 64, 0, 2, 8, 8, 8, 8, 0, 9, 0, 53, 0, 8, 0, 0]

def sampleApply (rate : ℤ) : List GatewayLabel :=
  [.call (.apply { rowOf "p" 1 0 .active with packetRateLimit := rate } ⟨0, 0, 0⟩), .hook, .hook, .finish]

def sampleRemove : List GatewayLabel := [.call (.remove "p"), .hook, .hook, .hook, .finish]

def sampleInit : GatewayRun := init ⟨576, ""⟩ ⟨0, 0, 0⟩ 0 none [.udp]

theorem revocation_complete_sample :
    let labels := sampleApply 0 ++ [.packet sampleDatagram 0, .meter 0 0 true, .register 0 0] ++ sampleRemove
    ((run (step id PeerState.sampleDecoders) sampleInit labels).any fun s =>
      s.flows.next = 1 ∧ "p" ∈ s.revoked) ∧
    Always (step id PeerState.sampleDecoders) RevokedFlowless sampleInit labels :=
  ⟨by decide +kernel, revocation_complete id _ _ _ _ _ _ _ (by decide +kernel)⟩

-- The datagram's goroutine has looked the peer up before the removal and
-- registers its flow after `RemovePeer` has returned.
theorem late_flow_survives_revocation : ∃ s, run (step id PeerState.sampleDecoders) sampleInit
      (sampleApply 0 ++ [.packet sampleDatagram 0] ++ sampleRemove ++ [.meter 0 0 true, .register 0 0]) = some s ∧
      s.gateway.peers.peers.lookup "p" = none ∧ "p" ∈ s.revoked ∧ ∃ key ∈ s.flows.table.flows.keys, key.peerID = "p" :=
  exists_run_of_any (by decide +kernel)

end GatewayRun

end TunnelMesh.Vpn
