import TunnelMesh.Server.AgentSessions.Theorems
import TunnelMesh.Server.RelayTransport

namespace TunnelMesh.Server

open Interleaving Transition SessionRegistry AgentRelayTransport RelayStore AgentSessionManager Option

variable {stream : RelayStream}

section Lookup

variable {cfg : AgentSessionConfig} {r : SessionRegistry} {agentID : String}
  {s target : AgentSession}

theorem findSession_eq_some (hinv : Invariant cfg r)
    (h : findSession fold r.manager request = some (some (agentID, s))) : s ∈ r.log ∧ s.agentID = agentID := by
  unfold findSession at h
  split at h
  · split at h
    · next hf =>
      obtain ⟨s, rfl, hp⟩ := map_eq_some_iff.mp h
      cases hp
      obtain ⟨key, id, hl⟩ := lookup_of_getCaseInsensitive hf
      exact ⟨hinv.logged key id s hl, rfl⟩
    · cases h
  · obtain ⟨found, hf, hp⟩ := map_eq_some_iff.mp (some.inj h)
    cases hp
    obtain ⟨id, hl⟩ := lookup_of_get hf
    exact ⟨hinv.logged _ id s hl, (hinv.live_of_lookup hl).1⟩

theorem targetSession_eq_some (hinv : Invariant cfg r) (hs : s ∈ r.log ∧ s.agentID = agentID)
    (h : targetSession r.manager request agentID s = some target) : target ∈ r.log ∧ target.agentID = agentID := by
  unfold targetSession at h
  split at h
  · cases h; exact hs
  · have hl := lookup_of_getConnection (filter_eq_some_iff.mp h).1
    exact ⟨hinv.logged agentID _ target hl, (hinv.live_of_lookup hl).1⟩

end Lookup

namespace AgentRelayTransport

variable {t : AgentRelayTransport}

theorem lastWireID_insert (generation other : RelayGeneration) (last : ℕ) :
    { t with allocators := t.allocators.insert generation last }.lastWireID other =
      if other = generation then last else t.lastWireID other := by
  unfold lastWireID
  split
  · next hs => rw [hs, AList.lookup_insert, getD_some]
  · next hs => rw [AList.lookup_insert_ne hs]

theorem lastWireID_le_insert (hle : t.lastWireID generation ≤ last) (other : RelayGeneration) :
    t.lastWireID other ≤ { t with allocators := t.allocators.insert generation last }.lastWireID other := by
  rw [lastWireID_insert]
  by_cases hs : other = generation
  · rw [if_pos hs, hs]; exact hle
  · rw [if_neg hs]

inductive Allocated (t : AgentRelayTransport) (generation : RelayGeneration) (handle : ℕ) :
    AgentRelayTransport × Except AllocateError RelayStream → Prop where
  | refused {t' : AgentRelayTransport} {e : AllocateError} (hstreams : t'.streams = t.streams)
      (hclosed : t'.closed = t.closed) (hlast : ∀ other, t.lastWireID other ≤ t'.lastWireID other) :
      Allocated t generation handle (t', .error e)
  | issued {t' : AgentRelayTransport} (hopen : t.closed = false) (hclosed : t'.closed = false)
      (hstreams : t'.streams = t.streams.insert ⟨generation, t.lastWireID generation + 1⟩
        ⟨generation, t.lastWireID generation + 1, handle⟩)
      (hlast : ∀ other, t'.lastWireID other =
        if other = generation then t.lastWireID generation + 1 else t.lastWireID other) :
      Allocated t generation handle (t', .ok ⟨generation, t.lastWireID generation + 1, handle⟩)

theorem allocate_spec (maxActive : ℤ) (agentID : String) (session : AgentSession) (handle : ℕ) :
    Allocated t (session.relayGeneration agentID) handle (t.allocate maxActive agentID session handle) := by
  unfold allocate
  dsimp only
  by_cases hc : t.closed
  · rw [if_pos hc]; exact .refused rfl rfl fun _ => Nat.le_refl _
  rw [if_neg hc]
  have ho : t.closed = false := Bool.eq_false_iff.mpr hc
  split
  · exact .refused rfl rfl (lastWireID_le_insert (Nat.le_refl _))
  split
  · exact .refused rfl rfl (lastWireID_le_insert (Nat.le_succ _))
  · exact .issued ho ho rfl fun other => lastWireID_insert _ other _

theorem lookup_of_lookup_erase {streams : AList fun _ : RelayStreamKey => RelayStream}
    (h : (streams.erase erased).lookup key = some stream) : streams.lookup key = some stream := by
  by_cases hs : key = erased
  · rw [hs, AList.lookup_erase] at h; cases h
  · rw [AList.lookup_erase_ne hs] at h; exact h

theorem lookup_foldl_erase {streams : AList fun _ : RelayStreamKey => RelayStream} {keys : List RelayStreamKey}
    (h : (keys.foldl (fun streams key => streams.erase key) streams).lookup key = some stream) :
    streams.lookup key = some stream := by
  induction keys generalizing streams with
  | nil => exact h
  | cons first rest ih => exact lookup_of_lookup_erase (ih h)

theorem exists_lookup_of_mem_streamsOf (h : key ∈ t.streamsOf agentID serverGeneration) :
    ∃ stream, t.streams.lookup key = some stream ∧ stream.generation.serverGeneration = serverGeneration := by
  obtain ⟨⟨key, stream⟩, hmem, rfl⟩ := List.mem_map.mp h
  obtain ⟨he, hof⟩ := List.mem_filter.mp hmem
  exact ⟨stream, AList.mem_lookup_iff.mpr he, (of_decide_eq_true hof).2⟩

end AgentRelayTransport

def RelayCall.holds (serverGeneration wireID : ℕ) : RelayCall → ℕ
  | .send stream => if stream.generation.serverGeneration = serverGeneration ∧ stream.wireID = wireID then 1 else 0
  | _ => 0

-- The ids up to the last one of a session's allocator are good for one frame each.
-- A closed transport gives no ids away, so there it no longer matters.
def RelayStore.quota (store : RelayStore) (s : AgentSession) (wireID : ℕ) : ℕ :=
  if store.transport.closed ∨ wireID ≤ store.transport.lastWireID (s.relayGeneration s.agentID) then 1 else 0

variable (cfg : RelayConfig)

-- The account of the OPEN_STREAM frames, sent and held. It is kept for the sessions
-- that are live, since to the others nothing is sent any more.
structure Issued (store : RelayStore) (held : ℕ → ℕ → ℕ) : Prop where
  registry : Invariant cfg.sessions store.registry
  once : ∀ g w, store.sent.count (g, w) ≤ 1
  future : ∀ g w, store.registry.manager.nextServerGeneration < g → store.sent.count (g, w) + held g w = 0
  live : ∀ s, Live store.registry s → ∀ w,
    store.sent.count (s.serverGeneration, w) + held s.serverGeneration w ≤ store.quota s w

section Issued

variable {cfg : RelayConfig} {store : RelayStore} {held : ℕ → ℕ → ℕ}

theorem quota_le_one (s : AgentSession) (w : ℕ) : store.quota s w ≤ 1 := by
  unfold quota
  split <;> omega

theorem quota_close (s : AgentSession) (w : ℕ) : { store with transport := store.transport.close }.quota s w = 1 := by
  have hc : store.transport.close.closed := by
    unfold close
    split
    · assumption
    · rfl
  exact if_pos (.inl hc)

section

variable (h : Issued cfg store held)

include h

theorem Issued.mono (hle : ∀ g w, he g w ≤ held g w) : Issued cfg store he where
  registry := h.registry
  once := h.once
  future g w hg := by
    have hzero := h.future g w hg
    have hsmall := hle g w
    omega
  live s hs w := by
    have hbound := h.live s hs w
    have hsmall := hle s.serverGeneration w
    omega

theorem Issued.registry_effect
    (he : Effect cfg.sessions store.registry r) : Issued cfg { store with registry := r } held where
  registry := he.invariant h.registry
  once := h.once
  future g w hg := by
    apply h.future g w
    have hg' : r.manager.nextServerGeneration < g := hg
    rcases he.log with ⟨-, hn⟩ | ⟨-, -, -, -, hn⟩ <;> omega
  live s hs w := by
    rcases he.live hs with hb | ⟨-, hgeneration, -⟩
    · exact h.live s hb w
    · -- a session that has just come has nothing on its account
      have hnone := h.future s.serverGeneration w (by omega)
      exact hnone.trans_le (Nat.zero_le _)

theorem Issued.of_quota (hr : store'.registry = store.registry) (hsent : store'.sent = store.sent)
    (hq : ∀ s, Live store.registry s → ∀ w, store.quota s w ≤ store'.quota s w) : Issued cfg store' held where
  registry := hr ▸ h.registry
  once := hsent ▸ h.once
  future := by
    rw [hr, hsent]
    exact h.future
  live s hs w := by
    rw [hr] at hs
    rw [hsent]
    exact (h.live s hs w).trans (hq s hs w)

theorem Issued.allocate {handles : ℕ} (hs : s ∈ store.registry.log) (hopen : store.transport.closed = false)
    (hgeneration : stream.generation = s.relayGeneration s.agentID)
    (hw : stream.wireID = store.transport.lastWireID (s.relayGeneration s.agentID) + 1)
    (hc : t.closed = false) (hlast : ∀ other, t.lastWireID other = if other = s.relayGeneration s.agentID then
      store.transport.lastWireID (s.relayGeneration s.agentID) + 1 else store.transport.lastWireID other) :
    Issued cfg { store with transport := t, handles } (fun g w => held g w + (RelayCall.send stream).holds g w) where
  registry := h.registry
  once := h.once
  future g w hg := by
    have hgen : stream.generation.serverGeneration = s.serverGeneration := by rw [hgeneration]; rfl
    have hle := h.registry.generations s hs
    have ho : ¬(stream.generation.serverGeneration = g ∧ stream.wireID = w) := by
      rintro ⟨rfl, -⟩
      have hnext : store.registry.manager.nextServerGeneration < stream.generation.serverGeneration := hg
      omega
    rw [RelayCall.holds, if_neg ho]
    exact h.future g w hg
  live other hl w := by
    have hgen : stream.generation.serverGeneration = s.serverGeneration := by rw [hgeneration]; rfl
    have hb := h.live other hl w
    have hmem : other ∈ store.registry.log := h.registry.logged _ _ other hl
    dsimp only [quota, RelayCall.holds] at hb ⊢
    rw [hopen] at hb
    rw [hc, hlast, hgen, hw]
    by_cases hsame : other = s
    · subst hsame
      simp only [Bool.false_eq_true, false_or, true_and, if_true] at hb ⊢
      split at hb <;> split <;> split <;> omega
    · have hne : s.serverGeneration ≠ other.serverGeneration :=
        fun heq => hsame (h.registry.eq_of_generation hmem hs heq.symm)
      rw [if_neg (fun hboth => hne hboth.1), if_neg fun hgen => hne (congrArg RelayGeneration.serverGeneration hgen).symm]
      exact hb

end

theorem Issued.send
    (h : Issued cfg store fun g w => held g w + (RelayCall.send stream).holds g w) (hl : Live store.registry s)
    (hgeneration : s.serverGeneration = stream.generation.serverGeneration) :
    Issued cfg { store with sent := store.sent ++ [(s.serverGeneration, stream.wireID)] } held := by
  have hc (g w : ℕ) : (store.sent ++ [(s.serverGeneration, stream.wireID)]).count (g, w) =
      store.sent.count (g, w) + (RelayCall.send stream).holds g w := by
    rw [List.count_append, List.count_singleton, RelayCall.holds, hgeneration]
    congr 1
    simp only [beq_iff_eq, Prod.mk.injEq]
  refine ⟨h.registry, fun g w => ?_, fun g w hg => ?_, fun other ho w => ?_⟩
  · rw [hc, RelayCall.holds]
    have honce := h.once g w
    split
    · rename_i hboth
      obtain ⟨rfl, rfl⟩ := hboth
      have hb := (h.live s hl stream.wireID).trans (quota_le_one s _)
      rw [hgeneration, RelayCall.holds, if_pos ⟨rfl, rfl⟩] at hb
      omega
    · omega
  · have hzero := h.future g w hg
    rw [hc]
    omega
  · have hb := h.live other ho w
    have hquota : { store with sent := store.sent ++ [(s.serverGeneration, stream.wireID)] }.quota other w =
        store.quota other w := rfl
    rw [hc]
    omega

end Issued

-- The table has each stream under its own key, and the streams are of sessions
-- that were registered.
structure Tabled (r : SessionRegistry) (t : AgentRelayTransport) : Prop where
  keyed : ∀ key stream, t.streams.lookup key = some stream → stream.key = key
  logged : ∀ key stream, t.streams.lookup key = some stream →
    ∃ s ∈ r.log, stream.generation = s.relayGeneration s.agentID

section Tabled

variable {r : SessionRegistry} {t t' : AgentRelayTransport}

section

variable (h : Tabled r t)

include h

theorem Tabled.of_lookup
    (hsub : ∀ key stream, t'.streams.lookup key = some stream → t.streams.lookup key = some stream) : Tabled r t' where
  keyed key stream hlookup := h.keyed key stream (hsub key stream hlookup)
  logged key stream hlookup := h.logged key stream (hsub key stream hlookup)

theorem Tabled.insert (hs : s ∈ r.log) (stream : RelayStream) (hg : stream.generation = s.relayGeneration s.agentID)
    (hstreams : t'.streams = t.streams.insert stream.key stream) : Tabled r t' := by
  have hc (key : RelayStreamKey) (other : RelayStream) (hl : t'.streams.lookup key = some other) :
      (key = stream.key ∧ other = stream) ∨ t.streams.lookup key = some other := by
    rw [hstreams] at hl
    by_cases hsame : key = stream.key
    · rw [hsame, AList.lookup_insert] at hl; exact .inl ⟨hsame, (some.inj hl).symm⟩
    · rw [AList.lookup_insert_ne hsame] at hl; exact .inr hl
  refine ⟨fun key other hl => ?_, fun key other hl => ?_⟩
  · rcases hc key other hl with ⟨rfl, rfl⟩ | hb
    · rfl
    · exact h.keyed key other hb
  · rcases hc key other hl with ⟨rfl, rfl⟩ | hb
    · exact ⟨s, hs, hg⟩
    · exact h.logged key other hb

theorem Tabled.effect {cfg : AgentSessionConfig} {r' : SessionRegistry} (he : Effect cfg r r') : Tabled r' t where
  keyed := h.keyed
  logged key stream hlookup := by
    obtain ⟨s, hs, hg⟩ := h.logged key stream hlookup
    exact ⟨s, he.mem_log hs, hg⟩

theorem Tabled.detach (stream : RelayStream) : Tabled r (t.detach stream) := by
  apply h.of_lookup
  intro key other hl
  unfold AgentRelayTransport.detach at hl
  split at hl
  · exact AgentRelayTransport.lookup_of_lookup_erase hl
  · exact hl

theorem Tabled.close : Tabled r t.close := by
  apply h.of_lookup
  intro key other hl
  unfold AgentRelayTransport.close at hl
  split at hl
  · exact hl
  · cases hl

theorem Tabled.lastWireID_fail {cfg : AgentSessionConfig}
    (hinv : Invariant cfg r) (hs : s ∈ r.log) (ho : other ∈ r.log) (hne : other ≠ s) :
    (t.failAgentGeneration s.agentID s.serverGeneration).lastWireID (other.relayGeneration other.agentID) =
      t.lastWireID (other.relayGeneration other.agentID) := by
  have hd : other.serverGeneration ≠ s.serverGeneration :=
    fun hsame => hne (hinv.eq_of_generation ho hs hsame)
  unfold failAgentGeneration lastWireID
  dsimp only
  cases hlast : (t.streamsOf s.agentID s.serverGeneration).getLast? with
  | none => rfl
  | some key =>
    obtain ⟨stream, hl, hg⟩ :=
      exists_lookup_of_mem_streamsOf (List.mem_of_getLast? hlast)
    have hkey : key.generation = stream.generation :=
      congrArg RelayStreamKey.generation (h.keyed key stream hl).symm
    have ha : other.relayGeneration other.agentID ≠ key.generation := by
      intro hsame
      apply hd
      rw [← hg, ← hkey, ← hsame]
      rfl
    rw [AList.lookup_erase_ne ha]

end

end Tabled

def RelayCall.Own (r : SessionRegistry) : RelayCall → Prop
  | .target _ agentID s => s ∈ r.log ∧ s.agentID = agentID
  | .allocate agentID s => s ∈ r.log ∧ s.agentID = agentID
  | .serving s => s ∈ r.log
  | .handling s found _ => s ∈ r.log ∧ found ∈ r.log ∧ found.serverGeneration = s.serverGeneration
  | .removed s => Stale r s
  | _ => True

theorem RelayCall.Own.effect {cfg : AgentSessionConfig} {p : RelayCall} (h : p.Own r)
    (hinv : Invariant cfg r) (he : Effect cfg r r') : p.Own r' := by
  cases p with
  | target | allocate => exact ⟨he.mem_log h.1, h.2⟩
  | serving s => exact he.mem_log h
  | handling s found wireID => exact ⟨he.mem_log h.1, he.mem_log h.2.1, h.2.2⟩
  | removed s => exact he.stale hinv h
  | _ => trivial

def Fenced (delivered : List (AgentSession × RelayStream)) : Prop :=
  ∀ d ∈ delivered, d.2.generation = d.1.relayGeneration d.1.agentID

structure Kept (store : RelayStore) (p : RelayCall) (store' : RelayStore) (p' : RelayCall) :
    Prop where
  issued : ∀ rest : ℕ → ℕ → ℕ, Issued cfg store (fun g w => rest g w + p.holds g w) →
    Issued cfg store' fun g w => rest g w + p'.holds g w
  tabled : Tabled store.registry store.transport → Tabled store'.registry store'.transport
  fenced : Fenced store.delivered → Fenced store'.delivered
  own : p'.Own store'.registry
  others : ∀ q : RelayCall, q.Own store.registry → q.Own store'.registry

section Kept

variable {cfg : RelayConfig} {store : RelayStore} {p p' : RelayCall}

theorem RelayCall.holds_le (hp : ∀ stream, p' ≠ .send stream) (rest : ℕ → ℕ → ℕ) (g w : ℕ) :
    rest g w + p'.holds g w ≤ rest g w + p.holds g w := by
  refine Nat.add_le_add_left ?_ _
  cases p' with
  | send stream => exact absurd rfl (hp stream)
  | _ => exact Nat.zero_le _

theorem Kept.phase (hp : ∀ stream, p' ≠ .send stream) (hown : p'.Own store.registry) : Kept cfg store p store p' where
  issued rest h := h.mono (RelayCall.holds_le hp rest)
  tabled h := h
  fenced h := h
  own := hown
  others _ h := h

theorem Kept.transport (hp : ∀ stream, p' ≠ .send stream) (hown : p'.Own store.registry)
    (hq : ∀ s, Live store.registry s → ∀ w, store.quota s w ≤ { store with transport := t }.quota s w)
    (ht : Tabled store.registry store.transport → Tabled store.registry t) :
    Kept cfg store p { store with transport := t } p' where
  issued rest h := (h.mono (RelayCall.holds_le hp rest)).of_quota rfl rfl hq
  tabled := ht
  fenced h := h
  own := hown
  others _ h := h

theorem quota_le_of_lastWireID (hclosed : t.closed = store.transport.closed)
    (hl : store.transport.lastWireID (s.relayGeneration s.agentID) ≤ t.lastWireID (s.relayGeneration s.agentID))
    (w : ℕ) : store.quota s w ≤ { store with transport := t }.quota s w := by
  unfold quota
  rw [hclosed]
  split
  · next hc => rw [if_pos (hc.imp_right hl.trans')]
  · exact Nat.zero_le _

theorem allocate_kept (hs : s ∈ store.registry.log ∧ s.agentID = agentID) :
    Kept cfg store (.allocate agentID s) (store.allocate cfg agentID s).1 (store.allocate cfg agentID s).2 := by
  obtain ⟨hlog, rfl⟩ := hs
  have hspec := store.transport.allocate_spec cfg.maxActiveStreamsPerAgent s.agentID s store.handles
  unfold RelayStore.allocate
  cases hr : store.transport.allocate cfg.maxActiveStreamsPerAgent s.agentID s store.handles with
  | mk t result =>
    rw [hr] at hspec
    cases hspec with
    | refused hstreams hc hl =>
      refine Kept.transport nofun trivial ?_ ?_
      · intro other _ w; exact quota_le_of_lastWireID hc (hl _) w
      · intro ht; exact ht.of_lookup fun key stream hlookup => hstreams ▸ hlookup
    | issued ho hc hstreams hl =>
      refine ⟨fun rest h => ?_, fun ht => ?_, fun h => h, trivial, fun _ h => h⟩
      · exact h.allocate hlog ho rfl rfl hc hl
      · exact ht.insert hlog ⟨_, _, store.handles⟩ rfl hstreams

theorem detach_kept (stream : RelayStream) :
    Kept cfg store (.detach stream) { store with transport := store.transport.detach stream } .finished := by
  refine Kept.transport nofun trivial ?_ fun h => h.detach stream
  intro s _ w
  obtain ⟨hc, ha⟩ : (store.transport.detach stream).closed = store.transport.closed ∧
      (store.transport.detach stream).allocators = store.transport.allocators := by
    unfold detach
    split <;> exact ⟨rfl, rfl⟩
  exact quota_le_of_lastWireID hc (by rw [lastWireID, lastWireID, ha]) w

variable (hinv : Invariant cfg.sessions store.registry)

include hinv

theorem Kept.registry (he : Effect cfg.sessions store.registry r) (hp : ∀ stream, p' ≠ .send stream)
    (hown : p'.Own r) : Kept cfg store p { store with registry := r } p' where
  issued rest h := (h.mono (RelayCall.holds_le hp rest)).registry_effect he
  tabled h := h.effect he
  fenced h := h
  own := hown
  others _ h := h.effect hinv he

theorem lookup_kept : Kept cfg store (.lookup request) store (store.lookup cfg request) := by
  unfold lookup
  split
  · exact .phase nofun trivial
  · split
    · exact .phase nofun trivial
    · exact .phase nofun trivial
    · next hf => exact .phase nofun (findSession_eq_some hinv hf)

theorem target_kept (hs : s ∈ store.registry.log ∧ s.agentID = agentID) :
    Kept cfg store (.target request agentID s) store (store.target request agentID s) := by
  unfold target
  cases ht : targetSession store.registry.manager request agentID s with
  | none => exact .phase nofun trivial
  | some target =>
    dsimp only
    split
    · exact .phase nofun trivial
    · exact .phase nofun (targetSession_eq_some hinv hs ht)

theorem send_kept : Kept cfg store (.send stream) (store.send stream).1 (store.send stream).2 := by
  unfold send
  cases hs : store.registry.manager.sendServerGeneration stream.generation.agentID
      stream.generation.serverGeneration with
  | none => exact .phase nofun trivial
  | some s =>
    obtain ⟨hg, id, hl⟩ := lookup_of_sendServerGeneration hs
    have hlive : Live store.registry s := (hinv.live_of_lookup hl).2
    exact ⟨fun rest h => h.send hlive hg, fun h => h, fun h => h, trivial, fun _ h => h⟩

theorem register_kept (authenticated : Bool) : Kept cfg store (.connect req) (store.register cfg req authenticated).1
      (store.register cfg req authenticated).2 := by
  have he : Effect cfg.sessions store.registry (store.registry.register cfg.sessions req authenticated) :=
    register_effect req authenticated
  unfold RelayStore.register
  cases hr : store.registry.manager.register cfg.sessions req authenticated with
  | mk m result =>
    cases result with
    | ok s =>
      refine Kept.registry hinv he nofun ?_
      rw [RelayCall.Own, SessionRegistry.register, hr]
      exact List.mem_append_right _ (List.mem_singleton_self s)
    | error e => exact Kept.registry hinv he nofun trivial

theorem receive_kept (hs : s ∈ store.registry.log) : Kept cfg store (.serving s) store (store.receive s wireID) := by
  unfold receive
  cases hf : store.registry.manager.getServerGeneration s.serverGeneration with
  | none => exact .phase nofun hs
  | some found =>
    obtain ⟨hg, key, id, hl⟩ := lookup_of_getServerGeneration hf
    exact .phase nofun ⟨hs, hinv.logged key id found hl, hg⟩

theorem deliver_kept (ends : Bool) (hown : (RelayCall.handling s found wireID).Own store.registry) :
    Kept cfg store (.handling s found wireID) (store.deliver s found wireID ends) (.serving s) := by
  obtain ⟨hs, hfound, hg⟩ := hown
  obtain rfl : found = s := hinv.eq_of_generation hfound hs hg
  unfold deliver
  cases hstream : store.transport.streamFor found.agentID found.serverGeneration found wireID with
  | none => exact .phase nofun hs
  | some stream =>
    obtain ⟨hlookup, hsame⟩ := filter_eq_some_iff.mp hstream
    have hf := of_decide_eq_true hsame
    refine ⟨fun rest h => h.of_quota rfl rfl ?_, ?_, ?_, hs, fun _ h => h⟩
    · intro other _ w; cases ends <;> exact Nat.le_refl _
    · intro ht
      cases ends with
      | false => exact ht
      | true => exact ht.of_lookup fun key other ho => lookup_of_lookup_erase ho
    · intro hb d hd
      rcases List.mem_append.mp hd with hold | hnew
      · exact hb d hold
      · rw [List.mem_singleton.mp hnew]; exact hf

theorem fail_kept (ht : Tabled store.registry store.transport) (hs : Stale store.registry s) :
    Kept cfg store (.removed s)
      { store with transport := store.transport.failAgentGeneration s.agentID s.serverGeneration } .finished := by
  refine Kept.transport nofun trivial ?_ ?_
  · intro other hl w
    -- the failed session is no longer live, so it is another one that is looked at
    have hne : other ≠ s := fun hsame => hs.displaced (hsame ▸ hl)
    have ho : other ∈ store.registry.log := hinv.logged _ _ other hl
    have hlast := ht.lastWireID_fail hinv hs.registered ho hne
    have hc : (store.transport.failAgentGeneration s.agentID s.serverGeneration).closed =
        store.transport.closed := rfl
    exact quota_le_of_lastWireID hc hlast.ge w
  · intro h; exact h.of_lookup fun key stream hlookup => lookup_foldl_erase hlookup

end Kept

section Move

variable {cfg : RelayConfig} {store : RelayStore} {p : RelayCall}

theorem move_kept (hinv : Invariant cfg.sessions store.registry)
    (ht : Tabled store.registry store.transport) (hown : p.Own store.registry)
    (hm : store.move cfg p input = some moved) : Kept cfg store p moved.1 moved.2 := by
  unfold RelayStore.move at hm
  split at hm <;> cases hm
  · exact lookup_kept hinv
  · exact .phase nofun trivial
  · exact target_kept hinv hown
  · exact allocate_kept hown
  · exact .phase nofun trivial
  · exact send_kept hinv
  · exact .phase nofun trivial
  · exact .phase nofun trivial
  · exact detach_kept _
  · exact register_kept hinv true
  · exact register_kept hinv false
  · exact receive_kept hinv hown
  · exact deliver_kept hinv false hown
  · exact deliver_kept hinv true hown
  · exact .phase nofun hown.1
  · next s =>
    have he : Effect cfg.sessions store.registry (store.registry.apply cfg.sessions (.removeSession s.agentID s)) :=
      apply_effect _
    exact .registry hinv he nofun ⟨he.mem_log hown, not_live_removeSession store.registry s⟩
  · exact fail_kept hinv ht hown

end Move

structure RelayInvariant (s : RelayState) : Prop where
  issued : Issued cfg s.store fun g w => s.weight (RelayCall.holds g w)
  tabled : Tabled s.store.registry s.store.transport
  fenced : Fenced s.store.delivered
  own : ∀ p ∈ s.procs, p.Own s.store.registry

section Run

variable {cfg : RelayConfig} {s next : RelayState}

theorem relayInvariant_new : RelayInvariant cfg newRelayState where
  issued := ⟨invariant_new, fun _ _ => Nat.zero_le 1, fun _ _ _ => rfl, fun _ _ _ => Nat.zero_le _⟩
  tabled := ⟨fun _ _ h => (nomatch h), fun _ _ h => (nomatch h)⟩
  fenced _ hd := nomatch hd
  own _ hp := nomatch hp

theorem RelayInvariant.move (h : RelayInvariant cfg s) (hp : s.procs[i]? = some p) (hk : Kept cfg s.store p store' p') :
    RelayInvariant cfg ⟨store', s.procs.set i p'⟩ := by
  refine ⟨?_, hk.tabled h.tabled, hk.fenced h.fenced, ?_⟩
  · have hb := h.issued
    have hw (g w : ℕ) := weight_eq_others (RelayCall.holds g w) hp
    have hm (g w : ℕ) := weight_set (RelayCall.holds g w) hp store' p'
    simp only [hw] at hb
    simp only [hm]
    exact hk.issued _ hb
  · exact forall_mem_set (fun q hq => hk.others q (h.own q hq)) hk.own

theorem RelayInvariant.step {label : RelayLabel} (h : RelayInvariant cfg s)
    (hs : (relaySystem cfg).step s label = some next) : RelayInvariant cfg next := by
  cases label with
  | start request =>
    rw [step_start_eq_some hs]
    have hi (g w : ℕ) : ((relaySystem cfg).start request).holds g w = 0 := by cases request <;> rfl
    have hown : ((relaySystem cfg).start request).Own s.store.registry := by
      cases request <;> trivial
    refine ⟨?_, h.tabled, h.fenced, forall_mem_append_singleton h.own hown⟩
    simp only [weight_start, hi, Nat.add_zero]
    exact h.issued
  | move i input =>
    obtain ⟨p, store', p', hp, hm, rfl⟩ := step_move_eq_some hs
    have hown := h.own p (List.mem_of_getElem? hp)
    exact h.move hp (move_kept h.issued.registry h.tabled hown hm)
  | event e =>
    obtain ⟨store', hevent, rfl⟩ := step_event_eq_some hs
    cases e with
    | manage op =>
      cases hevent
      have he : Effect cfg.sessions s.store.registry (s.store.registry.apply cfg.sessions op) :=
        apply_effect op
      exact ⟨h.issued.registry_effect he, h.tabled.effect he, h.fenced,
        fun p hp => (h.own p hp).effect h.issued.registry he⟩
    | close =>
      cases hevent
      refine ⟨h.issued.of_quota rfl rfl ?_, h.tabled.close, h.fenced, h.own⟩
      intro t _ w
      exact (quota_le_one t w).trans (quota_close t w).ge

end Run

-- No two OPEN_STREAM frames of one connection of an Agent have the same wire id, and
-- a frame only comes to a stream that was opened on the connection it came in on.
theorem relay_generations_fenced (cfg : RelayConfig) (labels : List RelayLabel) :
    Always (relaySystem cfg).step (fun s => s.store.sent.Nodup ∧
      ∀ d ∈ s.store.delivered, d.2.generation = d.1.relayGeneration d.1.agentID) newRelayState labels := by
  have hinv : Always (relaySystem cfg).step (RelayInvariant cfg) newRelayState labels :=
    always_of_step (fun _ _ _ h hstep => h.step hstep) newRelayState labels relayInvariant_new
  refine hinv.mono fun s h => ⟨?_, h.fenced⟩
  exact List.nodup_iff_count_le_one.mpr fun ⟨g, w⟩ => h.issued.once g w

end TunnelMesh.Server
