import TunnelMesh.Transition
import TunnelMesh.Vpn.PeerTable

namespace TunnelMesh.Vpn

open List Dict Option

variable {d : Decoders}

theorem peerSpecFromRow_eq_ok (h : peerSpecFromRow d row = .ok spec) :
    d.validatePublicKey row.publicKey = .ok () ∧ spec.toPeerSpec = specFromStored row := by
  rw [peerSpecFromRow, guard_eq_ok] at h
  obtain ⟨_, hkey, h⟩ := bind_eq_ok h.2
  rw [guard_eq_ok, guard_eq_ok] at h
  refine ⟨?_, ?_⟩
  · cases hv : d.validatePublicKey row.publicKey with
    | error e => rw [hv] at hkey; cases hkey
    | ok _ => rfl
  · cases ha : d.parseAddr (Text.trimSpace row.vpnIP) with
    | none => rw [ha] at h; cases h.2.2
    | some address =>
      rw [ha] at h
      obtain ⟨_, _, hs⟩ := bind_eq_ok h.2.2
      rw [← Except.ok.inj hs]

theorem decodeKey_empty : d.decodeKey "" ≠ .ok key := by
  simp [Decoders.decodeKey, d.base64_empty, keySize]

namespace PeerTable

variable {t : PeerTable}

def policyOf (row : VPNPeer) (mtu : ℤ) : PacketPolicy :=
  ⟨row.allowedIPs, row.allowedPorts, row.allowPrivateTargets, row.icmpEnabled, mtu⟩

theorem buildPolicy_eq_ok (hs : spec.toPeerSpec = specFromStored row)
    (h : t.buildPolicy d spec entry readings = .ok built) :
    built = entry ∨ built = { entry with policy := policyOf row t.mtu } := by
  rw [buildPolicy] at h
  split_ifs at h
  · cases hp : PacketPolicy.new d spec t.mtu readings.validated with
    | error e => rw [hp] at h; cases h
    | ok policy =>
      rw [hp] at h
      cases h
      rw [PacketPolicy.new] at hp
      split at hp
      · cases hp
      rw [guard_eq_ok] at hp
      cases hp.2
      have hips : (map some row.allowedIPs).reduceOption = row.allowedIPs :=
        (filterMap_map ..).trans filterMap_some
      exact .inr (by simp only [hs, specFromStored, hips, policyOf])
  · exact .inl (Except.ok.inj h).symm

theorem entryOf_eq_ok (h : t.entryOf d row readings = .ok entry) :
    d.validatePublicKey row.publicKey = .ok () ∧ ∃ address policy, entry = .ofRow row address policy ∧
      d.parseAddr (Text.trimSpace row.vpnIP) = some address ∧ (policy = .zero ∨ policy = policyOf row t.mtu) := by
  rw [entryOf, guard_eq_ok] at h
  obtain ⟨spec, hs, h⟩ := bind_eq_ok h.2
  obtain ⟨hkey, hs⟩ := peerSpecFromRow_eq_ok hs
  cases ha : d.parseAddr (Text.trimSpace row.vpnIP) with
  | none => rw [ha] at h; cases h
  | some address =>
    rw [ha] at h
    rcases buildPolicy_eq_ok hs h with rfl | rfl
    · exact ⟨hkey, address, .zero, rfl, rfl, .inl rfl⟩
    · exact ⟨hkey, address, _, rfl, rfl, .inr rfl⟩

theorem applyPeer_eq_ok {next : PeerTable} (h : t.applyPeer d row readings = .ok (next, actions)) :
    ∃ entry, t.entryOf d row readings = .ok entry ∧ next = t.index entry ∧
      actions = t.applyHooks entry readings.hooked := by
  rw [applyPeer, guard_eq_ok] at h
  obtain ⟨entry, he, h⟩ := map_eq_ok h.2
  cases h
  exact ⟨entry, he, rfl, rfl⟩

structure Indexed (t : PeerTable) : Prop where
  own : ∀ {id entry}, t.peers.lookup id = some entry → entry.peerID = id
  inverse : ∀ ip id, t.byIP.lookup ip = some id ↔ (t.peers.lookup id).map PeerEntry.vpnIP = some ip

theorem indexed_new (config : PeerTableConfig) : (new config).Indexed :=
  ⟨fun he => (nomatch he), fun ip id => by simp [new]⟩

theorem holder_eq_some {id : String} :
    t.holder entry = some id ↔ t.byIP.lookup entry.vpnIP = some id ∧ id ≠ entry.peerID := by
  simp [holder, filter_eq_some_iff]

theorem lookup_withoutHolder (id : String) :
    (t.withoutHolder entry).lookup id = if t.holder entry = some id then none else t.peers.lookup id := by
  rw [withoutHolder]
  cases t.holder entry with
  | none => rfl
  | some holder => simp [lookup_erase_eq, eq_comm]

theorem lookup_withoutPrevious (h : t.Indexed) (ip : ℕ) : (t.withoutPrevious entry).lookup ip =
      if t.byIP.lookup ip = some entry.peerID ∧ ip ≠ entry.vpnIP then none else t.byIP.lookup ip := by
  have hi := h.inverse ip entry.peerID
  rw [withoutPrevious]
  cases hp : t.peers.lookup entry.peerID with
  | none => rw [hp] at hi; simp [hi]
  | some previous =>
    have hs := (h.inverse previous.vpnIP entry.peerID).mpr (by rw [hp]; rfl)
    rw [hp, map_some, some.injEq] at hi
    dsimp only
    by_cases hm : previous.vpnIP = entry.vpnIP
    · rw [if_neg fun hpair => hpair.1 hm, if_neg fun hpair => hpair.2 ((hi.mp hpair.1).symm.trans hm)]
    rw [if_pos ⟨hm, hs⟩, lookup_erase_eq]
    split
    · next hip => rw [if_pos ⟨hip ▸ hs, hip ▸ hm⟩]
    · next hip => rw [if_neg fun hpair => hip (hi.mp hpair.1).symm]

theorem lookup_peers_index (id : String) : (t.index entry).peers.lookup id =
      if id = entry.peerID then some entry
      else if t.holder entry = some id then none else t.peers.lookup id := by
  simp only [index, lookup_insert_eq, lookup_withoutHolder]

theorem Indexed.index (h : t.Indexed) (entry : PeerEntry) : (t.index entry).Indexed := by
  refine ⟨?_, ?_⟩
  · intro id other ho
    rw [lookup_peers_index] at ho
    split_ifs at ho with hid
    · rw [hid, ← some.inj ho]
    · exact h.own ho
  · intro ip id
    have hi := h.inverse
    rw [lookup_peers_index]
    simp only [PeerTable.index, lookup_insert_eq, lookup_withoutPrevious h]
    by_cases hip : ip = entry.vpnIP
    · by_cases hid : id = entry.peerID
      · simp [hip, hid]
      · -- Whoever had the address is gone from both indexes.
        have hg : t.holder entry ≠ some id → (t.peers.lookup id).map PeerEntry.vpnIP ≠ some entry.vpnIP :=
          fun hne hmap => hne (holder_eq_some.mpr ⟨(hi _ _).mpr hmap, hid⟩)
        by_cases hh : t.holder entry = some id
        · simp [hip, hid, Ne.symm hid, hh]
        · simp [hip, hid, Ne.symm hid, hh, hg hh]
    · by_cases hid : id = entry.peerID
      · simp [hip, Ne.symm hip, hid]
      · rw [if_neg hip, if_neg hid]
        have hs : (if t.byIP.lookup ip = some entry.peerID ∧ ip ≠ entry.vpnIP then none
            else t.byIP.lookup ip) = some id ↔ t.byIP.lookup ip = some id := by
          split_ifs with hown
          · simp [hown.1, Ne.symm hid]
          · rfl
        rw [hs, hi]
        split_ifs with hh
        · have hmap := (hi _ _).mp (holder_eq_some.mp hh).1; simp [hmap, Ne.symm hip]
        · rfl

theorem Indexed.removePeer (h : t.Indexed) {id : String} (he : t.peers.lookup id = some entry) :
    Indexed { t with peers := t.peers.erase id, byIP := t.unindex entry } := by
  have hown := h.own he
  have hip := (h.inverse entry.vpnIP id).mpr (by rw [he]; rfl)
  refine ⟨?_, ?_⟩
  · intro other found hf
    rw [lookup_erase_eq] at hf
    split_ifs at hf
    exact h.own hf
  · intro ip other
    simp only [unindex, hown, hip, if_true, lookup_erase_eq]
    by_cases ho : other = id
    · subst ho
      by_cases hs : ip = entry.vpnIP
      · simp [hs]
      · simp [hs, h.inverse, he, Ne.symm hs]
    · by_cases hs : ip = entry.vpnIP
      · simp [hs, ho, ← h.inverse, hip, Ne.symm ho]
      · simp [hs, ho, h.inverse]

end PeerTable

namespace PeerState

variable {s next : PeerState}

open PeerTable Dict Option Transition

section

variable (device : Finset (List UInt8))

include device

variable (entry : PeerEntry)

theorem mem_install :
    key ∈ actOnDevice d device (.installDevicePeer entry) ↔ key ∈ device ∨ d.decodeKey entry.publicKey = .ok key := by
  rw [actOnDevice]
  cases d.decodeKey entry.publicKey with
  | error e => simp
  | ok other => simp [or_comm, eq_comm]

theorem mem_remove (id publicKey : String) :
    key ∈ actOnDevice d device (.removeDevicePeer id publicKey) ↔ key ∈ device ∧ d.decodeKey publicKey ≠ .ok key := by
  rw [actOnDevice]
  cases d.decodeKey publicKey with
  | error e => simp
  | ok other => simp [and_comm, eq_comm]

theorem mem_peerApplied : key ∈ (peerApplied entry).foldl (actOnDevice d) device ↔
      key ∈ device ∨ d.decodeKey entry.publicKey = .ok key :=
  mem_install device entry

theorem mem_peerRemoved : key ∈ (peerRemoved entry).foldl (actOnDevice d) device ↔
      key ∈ device ∧ d.decodeKey entry.publicKey ≠ .ok key :=
  mem_remove device entry.peerID entry.publicKey

end

def Spared (d : Decoders) (t : PeerTable) (entry : PeerEntry) (key : List UInt8) : Prop :=
  (∀ other, t.displaced entry = some other → d.decodeKey other.publicKey ≠ .ok key) ∧
    ∀ previous, t.peers.lookup entry.peerID = some previous → previous.publicKey ≠ entry.publicKey →
      d.decodeKey previous.publicKey ≠ .ok key

theorem mem_applyHooks (t : PeerTable) (device : Finset (List UInt8)) (entry : PeerEntry) (now : ℕ) :
    key ∈ (t.applyHooks entry now).foldl (actOnDevice d) device ↔
      if entry.isUsable now then (key ∈ device ∧ Spared d t entry key) ∨ d.decodeKey entry.publicKey = .ok key
      else (key ∈ device ∧ Spared d t entry key) ∧ d.decodeKey entry.publicKey ≠ .ok key := by
  have hd : ∀ device, key ∈ ((t.displaced entry).elim [] peerRemoved).foldl (actOnDevice d) device ↔
      key ∈ device ∧ ∀ other, t.displaced entry = some other → d.decodeKey other.publicKey ≠ .ok key := by
    intro device
    cases t.displaced entry with
    | none => simp
    | some other => simp [mem_peerRemoved]
  have hr : ∀ device, key ∈ (if t.replacedKey entry = "" then []
      else peerKeyReplaced (t.replacedKey entry) entry).foldl (actOnDevice d) device ↔
      key ∈ device ∧ ∀ previous, t.peers.lookup entry.peerID = some previous →
        previous.publicKey ≠ entry.publicKey → d.decodeKey previous.publicKey ≠ .ok key := by
    intro device
    rw [replacedKey]
    cases t.peers.lookup entry.peerID with
    | none => simp
    | some previous =>
      by_cases hkey : previous.publicKey = entry.publicKey
      · simp [hkey]
      · by_cases he : previous.publicKey = ""
        · simp [he, decodeKey_empty]
        · simp [hkey, he, peerKeyReplaced, mem_remove]
  rw [applyHooks, foldl_append, foldl_append]
  cases entry.isUsable now with
  | true => simp only [if_true, mem_peerApplied, hr, hd, Spared, and_assoc]
  | false => simp only [Bool.false_eq_true, if_false, mem_peerRemoved, hr, hd, Spared, and_assoc]

def DistinctKeys (d : Decoders) (s : PeerState) : Prop :=
  (s.table.peers.entries.map fun entry => (d.decodeKey entry.2.publicKey).toOption).Nodup
  deriving Decidable

theorem DistinctKeys.unique (h : s.DistinctKeys d)
    (ha : s.table.peers.lookup a = some x) (hb : s.table.peers.lookup b = some y)
    (hx : d.decodeKey x.publicKey = .ok key) (hy : d.decodeKey y.publicKey = .ok key) : a = b := by
  have heq := inj_on_of_nodup_map h (mem_entries_iff.mpr ha) (mem_entries_iff.mpr hb) (by simp only [hx, hy])
  exact congrArg Sigma.fst heq

structure InStep (d : Decoders) (s : PeerState) : Prop where
  indexed : s.table.Indexed
  device : ∀ key, key ∈ s.device ↔ ∃ id entry, s.table.peers.lookup id = some entry ∧
    s.usable.lookup id = some true ∧ d.decodeKey entry.publicKey = .ok key

theorem inStep_init (config : PeerTableConfig) : (init config).InStep d where
  indexed := indexed_new config
  device key := by simp [init, PeerTable.new]

theorem InStep.apply (h : s.InStep d) (hk : s.DistinctKeys d) {table : PeerTable}
    (hok : s.table.applyPeer d row readings = .ok (table, actions)) {usable : Dict String Bool} (hu : usable =
      s.usable.insert row.id ((table.peers.lookup row.id).any (·.isUsable readings.hooked)))
    (hn : DistinctKeys d ⟨table, actions.foldl (actOnDevice d) s.device, usable⟩) :
    InStep d ⟨table, actions.foldl (actOnDevice d) s.device, usable⟩ := by
  obtain ⟨entry, he, rfl, rfl⟩ := applyPeer_eq_ok hok
  have hid : entry.peerID = row.id := by
    obtain ⟨_, address, policy, rfl, -⟩ := entryOf_eq_ok he
    rfl
  have hnew : (s.table.index entry).peers.lookup row.id = some entry := by
    rw [lookup_peers_index, if_pos hid.symm]
  rw [hnew, any_some] at hu
  subst hu
  refine ⟨h.indexed.index entry, fun key => ?_⟩
  rw [mem_applyHooks]
  by_cases hown : d.decodeKey entry.publicKey = .ok key
  · cases hserves : entry.isUsable readings.hooked with
    | true =>
      simp only [if_true, hown, or_true, true_iff]
      exact ⟨row.id, entry, hnew, by rw [lookup_insert_eq, if_pos rfl], hown⟩
    | false =>
      simp only [Bool.false_eq_true, if_false, hown, ne_eq, not_true, and_false, false_iff]
      rintro ⟨id, other, ho, hs, hkey⟩
      rw [lookup_insert_eq, if_pos (hn.unique ho hnew hkey hown)] at hs
      cases hs
  · have hsame : (if entry.isUsable readings.hooked then
        (key ∈ s.device ∧ Spared d s.table entry key) ∨ d.decodeKey entry.publicKey = .ok key
        else (key ∈ s.device ∧ Spared d s.table entry key) ∧ d.decodeKey entry.publicKey ≠ .ok key) ↔
        key ∈ s.device ∧ Spared d s.table entry key := by split_ifs <;> simp [hown]
    rw [hsame, h.device]
    constructor
    · rintro ⟨⟨id, other, ho, hs, hkey⟩, hd, hr⟩
      have hne : id ≠ row.id := by
        rintro rfl
        refine hr other (hid ▸ ho) (fun hsame => hown (hsame ▸ hkey)) hkey
      refine ⟨id, other, ?_, by rw [lookup_insert_eq, if_neg hne, hs], hkey⟩
      rw [lookup_peers_index, if_neg (hid ▸ hne), if_neg ?_, ho]
      intro hh
      exact hd other (by rw [displaced, hh]; exact ho) hkey
    · rintro ⟨id, other, ho, hs, hkey⟩
      have hne : id ≠ row.id := by
        rintro rfl
        rw [hnew] at ho
        exact hown (some.inj ho ▸ hkey)
      rw [lookup_peers_index, if_neg (hid ▸ hne)] at ho
      rw [lookup_insert_eq, if_neg hne] at hs
      split_ifs at ho with hh
      refine ⟨⟨id, other, ho, hs, hkey⟩, ?_, ?_⟩
      · intro out hout hsame
        obtain ⟨holder, hholder', hl⟩ := bind_eq_some_iff.mp hout
        exact hh (hk.unique ho hl hkey hsame ▸ hholder')
      · intro previous hp _ hsame; exact hne (hid ▸ hk.unique ho hp hkey hsame)

theorem InStep.remove (h : s.InStep d) (hk : s.DistinctKeys d) (peerID : String) : InStep d { s with
      table := (s.table.removePeer peerID).1
      device := (s.table.removePeer peerID).2.foldl (actOnDevice d) s.device } := by
  rw [removePeer]
  cases he : s.table.peers.lookup peerID with
  | none => exact h
  | some entry =>
    refine ⟨h.indexed.removePeer he, fun key => ?_⟩
    rw [mem_peerRemoved, h.device]
    simp only [lookup_erase_eq]
    constructor
    · rintro ⟨⟨id, other, ho, hs, hkey⟩, hg⟩
      refine ⟨id, other, ?_, hs, hkey⟩
      rw [if_neg ?_, ho]
      rintro rfl
      rw [he] at ho
      exact hg (some.inj ho ▸ hkey)
    · rintro ⟨id, other, ho, hs, hkey⟩
      split_ifs at ho with hid
      exact ⟨⟨id, other, ho, hs, hkey⟩, fun hsame => hid (hk.unique ho he hkey hsame)⟩

def KeepsDistinct (d : Decoders) (s : PeerState) (call : PeerCall) : Prop :=
  ∀ next ∈ s.step d call, next.DistinctKeys d
  deriving Decidable

theorem InStep.step (h : s.InStep d) (hk : s.DistinctKeys d) (hn : next.DistinctKeys d)
    (hs : s.step d call = some next) : next.InStep d := by
  cases call with
  | apply row readings =>
    simp only [PeerState.step] at hs
    split at hs
    · cases hs; exact h
    · next table actions hok =>
      cases hs
      exact h.apply hk hok rfl hn
  | remove peerID => cases hs; exact h.remove hk peerID

theorem device_in_step (d : Decoders) (config : PeerTableConfig) (calls : List PeerCall)
    (h : Along (step d) (KeepsDistinct d) (init config) calls) : Always (step d) (InStep d) (init config) calls := by
  have hinv : Always (step d) (fun s => s.InStep d ∧ s.DistinctKeys d) (init config) calls :=
    always_of_invariant
      (fun s call next hinv hguard hstep =>
        ⟨hinv.1.step hinv.2 (hguard next hstep) hstep, hguard next hstep⟩)
      (init config) calls ⟨inStep_init config, List.nodup_nil⟩ h
  exact hinv.mono fun s hs => hs.1

-- The keys and the addresses of the samples, as base64 and `netip.ParseAddr` read
-- them.
def sampleKeys : List (String × List UInt8) :=
  [("", []), ("AQEBAQEBAQEBAQEBAQEBAQEBAQEBAQEBAQEBAQEBAQE=", replicate keySize 1),
    ("AgICAgICAgICAgICAgICAgICAgICAgICAgICAgICAgI=", replicate keySize 2),
    ("AwMDAwMDAwMDAwMDAwMDAwMDAwMDAwMDAwMDAwMDAwM=", replicate keySize 3)]

def sampleAddresses : List (String × ℕ) :=
  [("10.64.0.2", 0x0a400002), ("10.64.0.3", 0x0a400003), ("10.64.0.4", 0x0a400004)]

def sampleDecoders : Decoders where
  base64 text := (sampleKeys.lookup text).elim (.error "illegal base64 data at input byte 0") .ok
  parseAddr text := sampleAddresses.lookup text
  base64_empty := rfl

def rowOf (id : String) (key address : ℕ) (status : PeerStatus) : VPNPeer :=
  ⟨id, "laptop", "user-1", (sampleKeys.getD key default).1, ⟨"", "", "", 0⟩, (sampleAddresses.getD address default).1,
    "node-1", "agent-1", [⟨0, 1, by decide⟩], [], false, false, 0, 0, none, status, "", 0, 0⟩

-- Two peers; the first rotates its key and moves, then takes the address of the
-- second, is disabled, and the second comes back at another address.
def sampleCalls : List PeerCall :=
  [.apply (rowOf "p" 1 0 .active) ⟨0, 0, 0⟩, .apply (rowOf "q" 2 1 .active) ⟨0, 0, 0⟩,
    .apply (rowOf "p" 3 2 .active) ⟨0, 0, 0⟩, .apply (rowOf "p" 3 1 .active) ⟨0, 0, 0⟩,
    .apply (rowOf "p" 3 1 .disabled) ⟨0, 0, 0⟩, .apply (rowOf "q" 2 0 .active) ⟨0, 0, 0⟩, .remove "p"]

theorem device_in_step_sample : ((run (step sampleDecoders) (init ⟨1420, "node-1"⟩) sampleCalls).any fun s =>
      s.device = {List.replicate keySize 2} ∧ s.table.byIP.entries.length = 1) ∧
    Always (step sampleDecoders) (InStep sampleDecoders) (init ⟨1420, "node-1"⟩) sampleCalls :=
  ⟨by decide +kernel, device_in_step sampleDecoders ⟨1420, "node-1"⟩ sampleCalls (by decide +kernel)⟩

end PeerState

end TunnelMesh.Vpn
