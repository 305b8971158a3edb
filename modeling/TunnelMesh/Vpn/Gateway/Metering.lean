import TunnelMesh.Vpn.Gateway.Revocation

namespace TunnelMesh.Vpn.GatewayRun

open GatewayRun PacketBucket Gateway Option List Transition PeerState

variable {round : ℚ → ℚ} {s next : GatewayRun} {label : GatewayLabel}

-- A goroutine that has looked the peer up, and would now make a bucket, makes one
-- of the rate of the entry `e`.
def Agrees (s : GatewayRun) (p : String) (e : PeerEntry) : Prop :=
  ∀ x ∈ s.handlers, x.peerID = p → ∀ limit ∈ x.rateLimit,
    s.gateway.effectiveRate limit = s.gateway.effectiveRate e.rateLimit
  deriving Decidable

-- The bucket of the peer, and every one that a goroutine would now make, is of
-- the rate of its entry.
structure Current (round : ℚ → ℚ) (s : GatewayRun) (p : String) (e : PeerEntry) : Prop where
  bucket : ∀ bucket, s.gateway.buckets.lookup p = some bucket →
    bucket.rate = rateOf round (s.gateway.effectiveRate e.rateLimit)
  agrees : s.Agrees p e

structure Follows (round : ℚ → ℚ) (s : GatewayRun) : Prop where
  indexed : s.gateway.peers.Indexed
  idle : s.current = none → s.hooks = []
  current : ∀ p e, s.gateway.peers.peers.lookup p = some e → .forgetBucket p ∈ s.hooks ∨ s.Current round p e
  returned : ∀ p row, s.returned p = some row → .forgetBucket p ∉ s.hooks ∧
    ∃ e, s.gateway.peers.peers.lookup p = some e ∧ e.rateLimit = row.packetRateLimit
  applying : ∀ row readings, s.current = some (.apply row readings) →
    ∃ e, s.gateway.peers.peers.lookup row.id = some e ∧ e.rateLimit = row.packetRateLimit
  metered : ∀ pair ∈ s.metered, pair.2.rate = rateOf round (s.gateway.effectiveRate pair.1.packetRateLimit)

-- A step with the same tables: a goroutine before `bucketFor` was there already or
-- has the entry of its peer.
theorem Follows.of_same (h : s.Follows round) (hg : next.gateway = s.gateway) (hh : next.hooks = s.hooks)
    (hc : next.current = s.current) (hr : next.returned = s.returned) (hm : next.metered = s.metered)
    (hhandlers : ∀ x ∈ next.handlers, x ∈ s.handlers ∨
      ∀ limit ∈ x.rateLimit, ∃ e, s.gateway.peers.peers.lookup x.peerID = some e ∧ e.rateLimit = limit) :
    next.Follows round := by
  refine ⟨?_, ?_, ?_, ?_, ?_, ?_⟩
  · rw [hg]; exact h.indexed
  · rw [hc, hh]; exact h.idle
  · rw [hg, hh]
    intro p e he
    refine (h.current p e he).imp_right fun hk => ⟨by rw [hg]; exact hk.bucket, fun x hx hp limit hl => ?_⟩
    rw [hg]
    rcases hhandlers x hx with hold | hnew
    · exact hk.agrees x hold hp limit hl
    · obtain ⟨found, hf, rfl⟩ := hnew limit hl
      rw [hp, he] at hf
      rw [some.inj hf]
  · rw [hg, hh, hr]; exact h.returned
  · rw [hg, hc]; exact h.applying
  · rw [hg, hm]; exact h.metered

theorem bucketFor_rate (g : Gateway) (entry : PeerEntry) (now : ℕ)
    (h : ∀ bucket, g.buckets.lookup entry.peerID = some bucket →
      bucket.rate = rateOf round (g.effectiveRate entry.rateLimit)) :
    (g.bucketFor round entry now).1.rate = rateOf round (g.effectiveRate entry.rateLimit) := by
  rw [bucketFor]
  split_ifs with hu
  · simp only [new, rateOf, lt_irrefl, if_false, not_lt.mpr hu]
  · cases hb : g.buckets.lookup entry.peerID with
    | some bucket => exact h bucket hb
    | none => rfl

theorem lookup_bucketFor {g : Gateway} (h : (g.bucketFor round entry now).2.buckets.lookup p = some bucket) :
    g.buckets.lookup p = some bucket ∨ (p = entry.peerID ∧ bucket = (g.bucketFor round entry now).1) := by
  rw [bucketFor] at h ⊢
  split_ifs at h ⊢
  · exact .inl h
  cases hb : g.buckets.lookup entry.peerID with
  | some other => rw [hb] at h; exact .inl h
  | none =>
    simp only [hb, Dict.lookup_insert_eq] at h
    split_ifs at h with hp
    · exact .inr ⟨hp, (some.inj h).symm⟩
    · exact .inl h

section

variable (h : s.Follows round)

include h

theorem Follows.meter (hi : s.handlers[i]? = some (.looked entry parsed since)) (now : ℕ)
    (allowed : Bool) : (s.meter round i now allowed entry parsed since).Follows round := by
  obtain ⟨buckets, hbuckets⟩ := s.gateway.bucketFor_snd round entry now
  have hrate : ∀ e, s.Current round entry.peerID e →
      (s.gateway.bucketFor round entry now).1.rate = rateOf round (s.gateway.effectiveRate e.rateLimit) := by
    intro e hk
    have hs := hk.agrees _ (mem_of_getElem? hi) rfl entry.rateLimit rfl
    rw [← hs]
    refine bucketFor_rate s.gateway entry now fun bucket hb => ?_
    rw [hk.bucket bucket hb, hs]
  have hr : ∀ limit, (s.gateway.bucketFor round entry now).2.effectiveRate limit = s.gateway.effectiveRate limit := by
    intro limit
    rw [hbuckets]
    rfl
  have hpeers : (s.gateway.bucketFor round entry now).2.peers = s.gateway.peers := by rw [hbuckets]
  refine ⟨?_, h.idle, ?_, ?_, ?_, ?_⟩
  · exact hpeers ▸ h.indexed
  · intro p e he
    replace he : s.gateway.peers.peers.lookup p = some e := hpeers ▸ he
    refine (h.current p e he).imp_right fun hk => ⟨fun bucket hb => ?_, fun x hx hp limit hl => ?_⟩
    · refine Eq.trans ?_ (congrArg _ (hr e.rateLimit).symm)
      rcases lookup_bucketFor hb with hold | ⟨rfl, rfl⟩
      · exact hk.bucket bucket hold
      · exact hrate e hk
    · refine (hr limit).trans (Eq.trans ?_ (hr e.rateLimit).symm)
      rcases handlers_meter hx with hold | ⟨reg, rfl, -⟩
      · exact hk.agrees x hold hp limit hl
      · cases hl
  · intro p row hrow; exact (hpeers ▸ h.returned p row hrow :)
  · intro row readings hc; exact (hpeers ▸ h.applying row readings hc :)
  · intro pair hpair
    refine Eq.trans ?_ (congrArg _ (hr pair.1.packetRateLimit).symm)
    rcases mem_append.mp hpair with hnew | hold
    · split_ifs at hnew with hsince
      · obtain ⟨row, hrow, rfl⟩ := mem_map.mp hnew
        obtain ⟨hh, e, he, hl⟩ := h.returned entry.peerID row (hsince ▸ mem_toList.mp hrow)
        rw [← hl]
        exact hrate e ((h.current _ e he).resolve_left hh)
      · cases hnew
    · exact h.metered pair hold

theorem Follows.start (hc : s.current = none) {call : PeerCall} {id : String}
    {result : PeerTable × List HookAction} (hr : s.gateway.peers.Rewrites id result)
    (ha : ∀ row readings, call = .apply row readings →
      ∃ e, result.1.peers.lookup row.id = some e ∧ e.rateLimit = row.packetRateLimit) (revoked : Finset String) :
    Follows round { s.start call id result with revoked } where
  indexed := hr.indexed
  idle hnone := by cases hnone
  current p e he := by
    by_cases hp : p = id
    · exact .inl (hp ▸ hr.forgets.resolve_left fun hnone => by cases (hp ▸ he).symm.trans hnone)
    · have hs := (hr.others p hp).resolve_right fun hnone => by cases he.symm.trans hnone
      have hk := (h.current p e (hs ▸ he)).resolve_left fun hmem => by rw [h.idle hc] at hmem; cases hmem
      exact .inr ⟨hk.bucket, hk.agrees⟩
  returned p row hrow := by
    have hkept : ¬(p = id ∨ result.1.peers.lookup p = none) ∧ s.returned p = some row := by
      simpa [GatewayRun.start, and_comm] using hrow
    obtain ⟨hne, hold⟩ := hkept
    rw [not_or] at hne
    obtain ⟨-, e, he, hl⟩ := h.returned p row hold
    exact ⟨fun hmem => hne.2 (hr.forgotten p hne.1 hmem), e, ((hr.others p hne.1).resolve_right hne.2).trans he, hl⟩
  applying row readings hcall := ha row readings (some.inj hcall)
  metered := h.metered

theorem Follows.begin (hc : s.current = none) (call : PeerCall) : (s.begin d call).Follows round := by
  cases call with
  | apply row readings =>
    rw [GatewayRun.begin]
    split
    · exact h
    · next result hok =>
      obtain ⟨hr, he⟩ := PeerTable.rewrites_applyPeer h.indexed hok
      exact h.start hc hr (fun _ _ heq => by cases heq; exact he) _
  | remove peerID =>
    exact h.start hc (PeerTable.rewrites_removePeer h.indexed peerID).1 (fun _ _ heq => by cases heq) s.revoked

theorem Follows.hook (hh : s.hooks = action :: rest)
    (hf : ∀ p e, action = .forgetBucket p → s.gateway.peers.peers.lookup p = some e → s.Agrees p e) :
    Follows round { s.act action with hooks := rest } := by
  have hrest : ∀ p, .forgetBucket p ∈ rest → .forgetBucket p ∈ s.hooks := fun p hmem =>
    hh ▸ mem_cons_of_mem _ hmem
  have hi : s.current ≠ none := fun hn => by cases (h.idle hn).symm.trans hh
  have hl : ∀ p, .forgetBucket p ∈ s.hooks → action ≠ .forgetBucket p → .forgetBucket p ∈ rest := by
    intro p hmem hne
    rw [hh, mem_cons] at hmem
    exact hmem.resolve_left (Ne.symm hne)
  have hr : ∀ p row, s.returned p = some row → .forgetBucket p ∉ rest ∧
      ∃ e, s.gateway.peers.peers.lookup p = some e ∧ e.rateLimit = row.packetRateLimit :=
    fun p row hrow => ⟨fun hmem => (h.returned p row hrow).1 (hrest p hmem), (h.returned p row hrow).2⟩
  cases action with
  | forgetBucket q =>
    refine ⟨h.indexed, fun hn => absurd hn hi, fun p e he => ?_, hr, h.applying, h.metered⟩
    by_cases hp : p = q
    · subst hp
      refine .inr ⟨fun bucket hb => ?_, hf p e rfl he⟩
      simp [act, forgetBucket] at hb
    · refine (h.current p e he).imp (hl p · fun heq => hp (HookAction.forgetBucket.inj heq).symm)
        fun hk => ⟨fun bucket hb => hk.bucket bucket ?_, hk.agrees⟩
      simpa [act, forgetBucket, Dict.lookup_erase_eq, hp] using hb
  | closePeer | installDevicePeer | removeDevicePeer =>
    exact ⟨h.indexed, fun hn => absurd hn hi, fun p e he => (h.current p e he).imp (hl p · nofun)
      fun hk => ⟨hk.bucket, hk.agrees⟩, hr, h.applying, h.metered⟩

theorem Follows.finished (hh : s.hooks = []) (hcurrent : s.current = some call) : (s.finished call).Follows round := by
  have hk : ∀ p e, s.gateway.peers.peers.lookup p = some e → s.Current round p e := fun p e he =>
    (h.current p e he).resolve_left fun hmem => by rw [hh] at hmem; cases hmem
  cases call with
  | apply row readings =>
    refine ⟨h.indexed, fun _ => hh, fun p e he => .inr ⟨(hk p e he).bucket, (hk p e he).agrees⟩,
      fun p other ho => ?_, fun _ _ hc => (by cases hc), h.metered⟩
    simp only [GatewayRun.finished] at ho
    split_ifs at ho with hp
    · cases ho
      exact ⟨by rw [GatewayRun.finished, hh]; exact not_mem_nil, hp ▸ h.applying row readings hcurrent⟩
    · exact h.returned p other ho
  | remove peerID =>
    exact ⟨h.indexed, fun _ => hh, fun p e he => .inr ⟨(hk p e he).bucket, (hk p e he).agrees⟩, h.returned,
      fun _ _ hc => (by cases hc), h.metered⟩

end

-- Where the bucket of a peer is forgotten, no goroutine is between its lookup and
-- `bucketFor` with a rate that is not the one of the peer's entry.
def Refreshed (s : GatewayRun) (label : GatewayLabel) : Prop :=
  label.isHook → ∀ action ∈ s.hooks.head?, ∀ x ∈ s.handlers, action = .forgetBucket x.peerID →
    ∀ limit ∈ x.rateLimit, ∀ e ∈ s.gateway.peers.peers.lookup x.peerID,
      s.gateway.effectiveRate limit = s.gateway.effectiveRate e.rateLimit
  deriving Decidable

theorem Follows.step (h : s.Follows round) (hf : Refreshed s label) (hs : s.step round d label = some next) :
    next.Follows round := by
  cases label
  case packet bytes now =>
    obtain rfl : s.arrive bytes now = next := some.inj hs
    rw [arrive]
    split
    · exact h
    · next entry parsed hr =>
      obtain ⟨-, -, hlookup⟩ := resolve_eq_ok hr
      refine h.of_same rfl rfl rfl rfl rfl fun x hx => (mem_append.mp hx).imp_right fun hnew limit hl => ?_
      obtain rfl := mem_singleton.mp hnew
      exact ⟨entry, PeerTable.lookup_of_lookupByIP h.indexed hlookup, some.inj hl⟩
  case connect remote target now =>
    obtain rfl : s.connect remote target now = next := some.inj hs
    rw [connect]
    split
    · exact h
    split_ifs
    · refine h.of_same rfl rfl rfl rfl rfl fun x hx => (mem_append.mp hx).imp_right fun hnew limit hl => ?_
      obtain rfl := mem_singleton.mp hnew
      cases hl
    · exact h
  all_goals simp only [step] at hs
  case meter i now allowed =>
    split at hs <;> cases hs
    next entry parsed since hi => exact h.meter hi now allowed
  case register i | leave i =>
    split at hs <;> cases hs
    exact h.of_same rfl rfl rfl rfl rfl fun x hx => .inl (mem_of_mem_eraseIdx hx)
  case flow label =>
    split_ifs at hs
    obtain ⟨flows, -, rfl⟩ := map_eq_some_iff.mp hs
    exact h.of_same rfl rfl rfl rfl rfl fun x hx => .inl hx
  case call call =>
    split_ifs at hs with hc
    cases hs
    exact h.begin hc call
  case hook =>
    split at hs <;> cases hs
    next action rest hh =>
      refine h.hook hh fun p e ha he x hx hp limit hl => ?_
      exact hf rfl action (by rw [hh]; rfl) x hx (hp ▸ ha) limit hl e (hp ▸ he)
  case finish =>
    split_ifs at hs with hh
    obtain ⟨call, hcall, rfl⟩ := map_eq_some_iff.mp hs
    exact h.finished hh hcall

-- A packet that looked up after `ApplyPeer` of a row had returned, and met no
-- later call on its peer, is metered at the rate of the row.
def MeteredByRow (round : ℚ → ℚ) (s : GatewayRun) : Prop :=
  ∀ pair ∈ s.metered, pair.2.rate = rateOf round (s.gateway.effectiveRate pair.1.packetRateLimit)

theorem follows_init (peers : PeerTableConfig) (flows : FlowTableConfig) (rate : ℤ) (self : Option ℕ)
    (relays : List PacketRelay) : (init peers flows rate self relays).Follows round where
  indexed := PeerTable.indexed_new peers
  idle _ := rfl
  current p e he := by cases he
  returned p row hrow := by cases hrow
  applying row readings hcall := by cases hcall
  metered pair hpair := by cases hpair

theorem budget_follows_row (round : ℚ → ℚ) (d : Decoders) (peers : PeerTableConfig) (flows : FlowTableConfig)
    (rate : ℤ) (self : Option ℕ) (relays : List PacketRelay) (labels : List GatewayLabel)
    (h : Along (step round d) Refreshed (init peers flows rate self relays) labels) :
    Always (step round d) (MeteredByRow round) (init peers flows rate self relays) labels := by
  have hfollows := always_of_invariant (fun s label next hinv hfresh hstep => hinv.step hfresh hstep) _ labels
      (follows_init peers flows rate self relays) h
  exact hfollows.mono fun s hs => hs.metered

theorem budget_follows_row_sample :
    let labels := sampleApply 10 ++ sampleApply 100 ++ [.packet sampleDatagram 0, .meter 0 0 true]
    ((run (step id PeerState.sampleDecoders) sampleInit labels).any fun s =>
      s.metered.map (fun pair => (pair.1.packetRateLimit, pair.2.rate)) = [(100, 100)]) ∧
    Always (step id PeerState.sampleDecoders) (MeteredByRow id) sampleInit labels :=
  ⟨by decide +kernel, budget_follows_row id _ _ _ _ _ _ _ (by decide +kernel)⟩

-- A datagram that was looked up under the old rate makes the bucket again after
-- `ApplyPeer` has forgotten it, and a later datagram is metered by it.
theorem stale_entry_remakes_bucket : ∃ s, run (step id PeerState.sampleDecoders) sampleInit
      (sampleApply 10 ++ [.packet sampleDatagram 0] ++ sampleApply 100 ++
        [.meter 0 0 true, .packet sampleDatagram 0, .meter 1 0 true]) = some s ∧
      s.metered.map (fun pair => (pair.1.packetRateLimit, pair.2.rate)) = [(100, 10)] :=
  exists_run_of_any (by decide +kernel)

end TunnelMesh.Vpn.GatewayRun
