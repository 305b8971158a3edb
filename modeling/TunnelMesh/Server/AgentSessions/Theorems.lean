import Mathlib.Data.List.Perm.Basic
import TunnelMesh.Dict
import TunnelMesh.Server.AgentSessions

namespace TunnelMesh.Server

open List Dict Option

namespace AgentSessionManager

structure View where
  connections : Connections
  order : List String

def view (m : AgentSessionManager) (agentID : String) : View := ⟨m.connections agentID, m.order agentID⟩

def View.place (v : View) (s : AgentSession) : View :=
  ⟨v.connections.insert s.connectionID s,
    if s.connectionID ∈ v.order then v.order else v.order ++ [s.connectionID]⟩

def View.drop (v : View) (connectionID : String) : View :=
  ⟨v.connections.erase connectionID, v.order.filter fun id => id != connectionID⟩

section View

variable {m : AgentSessionManager}

theorem view_ensureAgent : (m.ensureAgent agentID).view other = m.view other := by
  unfold ensureAgent
  split
  · rfl
  · next ha =>
    simp only [view, connections, order, lookup_insert_eq]
    split
    · next ho => rw [ho, AList.lookup_eq_none.mpr ha]; rfl
    · rfl

variable (s : AgentSession)

theorem view_place :
    (m.place s).view other = if other = s.agentID then (m.view s.agentID).place s else m.view other := by
  have ho : (m.place s).order other = ((if s.connectionID ∈ m.order s.agentID then m.connectionOrder
      else m.connectionOrder.insert s.agentID (m.order s.agentID ++ [s.connectionID])).lookup other).getD [] := rfl
  rw [view, ho]
  simp only [connections, place, View.place, view, lookup_insert_eq]
  by_cases hm : s.connectionID ∈ m.order s.agentID
  · simp only [hm, if_true]
    split
    · next hs => rw [hs]; rfl
    · rfl
  · simp only [hm, if_false, lookup_insert_eq]
    split <;> rfl

theorem view_remove : (m.remove agentID).view other = if other = agentID then ⟨∅, []⟩ else m.view other := by
  simp only [view, connections, order, remove, lookup_erase_eq]
  split <;> rfl

theorem view_removeSession (hl : (m.connections agentID).lookup s.connectionID = some s) :
    (m.removeSession agentID s).view other =
      if other = agentID then
        if ((m.connections agentID).erase s.connectionID).keys = [] then ⟨∅, []⟩
        else (m.view agentID).drop s.connectionID
      else m.view other := by
  rw [removeSession, if_pos hl]
  dsimp only
  split
  · simp only [view, connections, order, lookup_erase_eq]
    split <;> rfl
  · simp only [view, connections, order, lookup_insert_eq]
    split <;> rfl

end View

section Lookup

variable {m : AgentSessionManager}

theorem lookup_of_get (h : m.get agentID = some s) : ∃ id, (m.connections agentID).lookup id = some s := by
  have hmem : s ∈ m.list agentID := mem_of_mem_head? h
  obtain ⟨id, -, hid⟩ := mem_filterMap.mp hmem
  exact ⟨id, hid⟩

theorem lookup_of_getConnection (h : m.getConnection agentID connectionID = some s) :
    (m.connections agentID).lookup connectionID = some s := by
  unfold getConnection at h
  split_ifs at h
  exact h

theorem lookup_of_getCaseInsensitive (h : m.getCaseInsensitive fold agentID = .ok (some s)) :
    ∃ key id, (m.connections key).lookup id = some s := by
  unfold getCaseInsensitive at h
  split_ifs at h
  split at h
  · cases h
  · rename_i key hkey; exact ⟨key, lookup_of_get (Except.ok.inj h)⟩
  · cases h

theorem lookup_of_getServerGeneration (h : m.getServerGeneration serverGeneration = some s) :
    s.serverGeneration = serverGeneration ∧ ∃ key id, (m.connections key).lookup id = some s := by
  have hg := find?_some h
  obtain ⟨⟨key, held⟩, hh, he⟩ := mem_flatMap.mp (mem_of_find?_eq_some h)
  obtain ⟨⟨id, t⟩, hmem, rfl⟩ := mem_map.mp he
  have hkey := AList.mem_lookup_iff.mpr hh
  refine ⟨of_decide_eq_true hg, key, id, ?_⟩
  rw [connections, hkey]
  exact AList.mem_lookup_iff.mpr hmem

theorem lookup_of_sendServerGeneration (h : m.sendServerGeneration agentID serverGeneration = some s) :
    s.serverGeneration = serverGeneration ∧ ∃ id, (m.connections agentID).lookup id = some s := by
  have hg := find?_some h
  obtain ⟨⟨id, t⟩, hmem, rfl⟩ := mem_map.mp (mem_of_find?_eq_some h)
  exact ⟨of_decide_eq_true hg, id, AList.mem_lookup_iff.mpr hmem⟩

end Lookup

-- The ids of an Agent's connections are those of its order, and no more than it may have.
structure View.Consistent (v : View) (limit : ℕ) (agentID : String) : Prop where
  perm : v.order.Perm v.connections.keys
  bounded : v.order.length ≤ limit
  named : ∀ connectionID s, v.connections.lookup connectionID = some s →
    s.agentID = agentID ∧ s.connectionID = connectionID

section Consistent

variable {v : View}

theorem View.Consistent.nodup (h : v.Consistent limit agentID) : v.order.Nodup :=
  h.perm.nodup_iff.mpr v.connections.keys_nodup

theorem consistent_empty : View.Consistent ⟨∅, []⟩ limit agentID where
  perm := List.Perm.refl []
  bounded := Nat.zero_le limit
  named _ _ hlookup := nomatch hlookup

theorem View.Consistent.place {s : AgentSession} (h : v.Consistent limit agentID) (ha : s.agentID = agentID)
    (hr : s.connectionID ∉ v.connections → v.connections.keys.length < limit) :
    (v.place s).Consistent limit agentID := by
  have hk : (v.place s).connections.keys = s.connectionID :: v.connections.keys.erase s.connectionID :=
    AList.keys_insert v.connections
  refine ⟨?_, ?_, ?_⟩
  · rw [hk]
    unfold View.place
    split
    · rename_i hmem
      have hkey : s.connectionID ∈ v.connections.keys := h.perm.mem_iff.mp hmem
      exact h.perm.trans (perm_cons_erase hkey)
    · rename_i hmem
      have hkey : s.connectionID ∉ v.connections.keys := fun hkey => hmem (h.perm.mem_iff.mpr hkey)
      rw [erase_of_not_mem hkey]
      exact (perm_append_singleton _ _).trans (h.perm.cons _)
  · unfold View.place
    split
    · exact h.bounded
    rename_i hmem
    have hkey : s.connectionID ∉ v.connections := fun hkey => hmem (h.perm.mem_iff.mpr (AList.mem_keys.mp hkey))
    have hlength := h.perm.length_eq
    have hlimit := hr hkey
    rw [length_append, length_singleton]
    omega
  · intro connectionID other hl
    rw [View.place, lookup_insert_eq] at hl
    split at hl
    · next hs => cases hl; exact ⟨ha, hs.symm⟩
    · exact h.named connectionID other hl

theorem View.Consistent.drop (h : v.Consistent limit agentID) (connectionID : String) :
    (v.drop connectionID).Consistent limit agentID := by
  have hf : (v.drop connectionID).order = v.order.erase connectionID := by
    rw [h.nodup.erase_eq_filter]
    rfl
  refine ⟨?_, ?_, ?_⟩
  · rw [hf, View.drop, AList.keys_erase]; exact h.perm.erase connectionID
  · rw [hf]; exact length_erase_le.trans h.bounded
  · intro other s hl
    rw [View.drop, lookup_erase_eq] at hl
    split_ifs at hl
    exact h.named other s hl

end Consistent

end AgentSessionManager

namespace SessionRegistry

open AgentSessionManager List

inductive Effect (cfg : AgentSessionConfig) (r : SessionRegistry) : SessionRegistry → Prop where
  | quiet {m : AgentSessionManager} (hnext : m.nextServerGeneration = r.manager.nextServerGeneration)
      (hview : ∀ id, m.view id = r.manager.view id) : Effect cfg r ⟨m, r.log⟩
  | placed {m : AgentSessionManager} (s : AgentSession)
      (hgeneration : s.serverGeneration = r.manager.nextServerGeneration + 1)
      (hroom : r.manager.nextServerGeneration ≠ 2 ^ 64 - 1)
      (hnext : m.nextServerGeneration = r.manager.nextServerGeneration + 1)
      (hepoch : ∀ old, (r.manager.connections s.agentID).lookup s.connectionID = some old →
        old.connectionEpoch < s.connectionEpoch)
      (hlimit : s.connectionID ∉ r.manager.connections s.agentID →
        (r.manager.connections s.agentID).keys.length < cfg.connectionLimit)
      (hview : ∀ id, m.view id = if id = s.agentID then (r.manager.view s.agentID).place s else r.manager.view id) :
      Effect cfg r ⟨m, r.log ++ [s]⟩
  | dropped {m : AgentSessionManager} (agentID connectionID : String)
      (hnext : m.nextServerGeneration = r.manager.nextServerGeneration)
      (hview : ∀ id, m.view id =
        if id = agentID then (r.manager.view agentID).drop connectionID else r.manager.view id) :
      Effect cfg r ⟨m, r.log⟩
  | cleared {m : AgentSessionManager} (agentID : String)
      (hnext : m.nextServerGeneration = r.manager.nextServerGeneration)
      (hview : ∀ id, m.view id = if id = agentID then ⟨∅, []⟩ else r.manager.view id) : Effect cfg r ⟨m, r.log⟩

section Effect

theorem Effect.refl : Effect cfg r r := .quiet rfl fun _ => rfl

theorem nextServerGeneration_ensureAgent (m : AgentSessionManager) (agentID : String) :
    (m.ensureAgent agentID).nextServerGeneration = m.nextServerGeneration := by
  unfold ensureAgent
  split <;> rfl

theorem nextServerGeneration_removeSession (m : AgentSessionManager) (agentID : String) (expected : AgentSession) :
    (m.removeSession agentID expected).nextServerGeneration = m.nextServerGeneration := by
  unfold removeSession
  dsimp only
  split
  · split <;> rfl
  · rfl

theorem register_effect (req : AgentRegistration) (authenticated : Bool) :
    Effect cfg r (r.register cfg req authenticated) := by
  have hn := nextServerGeneration_ensureAgent r.manager req.agentID
  have hv (id : String) : (r.manager.ensureAgent req.agentID).view id = r.manager.view id := view_ensureAgent
  have hh : (r.manager.ensureAgent req.agentID).connections req.agentID = r.manager.connections req.agentID :=
    congrArg View.connections (hv req.agentID)
  have hm : Effect cfg r ⟨r.manager.ensureAgent req.agentID, r.log⟩ := .quiet hn hv
  unfold register AgentSessionManager.register
  dsimp only
  split_ifs with _ _ he hf hl
  · exact .refl
  · exact .refl
  · exact hm
  · exact hm
  · exact hm
  rw [hh] at he hf
  refine .placed { newAgentSession cfg req with
    serverGeneration := (r.manager.ensureAgent req.agentID).nextServerGeneration + 1 }
    (congrArg (· + 1) hn) (hn ▸ hl) (congrArg (· + 1) hn) ?_ ?_ ?_
  · intro old hold
    rw [show (r.manager.connections req.agentID).lookup (newAgentSession cfg req).connectionID = some old
      from hold] at he
    simpa using he
  · intro habsent
    by_contra hle
    exact hf ⟨habsent, Nat.not_lt.mp hle⟩
  · intro id; rw [view_place, hv, hv]

theorem removeSession_effect (agentID : String) (expected : AgentSession) :
    Effect cfg r ⟨r.manager.removeSession agentID expected, r.log⟩ := by
  by_cases hl : (r.manager.connections agentID).lookup expected.connectionID = some expected
  · have hn := nextServerGeneration_removeSession r.manager agentID expected
    by_cases he : ((r.manager.connections agentID).erase expected.connectionID).keys = []
    · refine .cleared agentID hn fun id => ?_; rw [view_removeSession expected hl, if_pos he]
    · refine .dropped agentID expected.connectionID hn fun id => ?_
      rw [view_removeSession expected hl, if_neg he]
  · rw [removeSession, if_neg hl]; exact .refl

theorem apply_effect (op : SessionOperation) : Effect cfg r (r.apply cfg op) := by
  cases op with
  | register req authenticated => exact register_effect req authenticated
  | remove agentID => exact .cleared agentID rfl fun id => view_remove
  | removeSession agentID expected => exact removeSession_effect agentID expected
  | _ => exact .refl

theorem Effect.live (h : Effect cfg r r') (hlive : (r'.manager.connections agentID).lookup connectionID = some s) :
    (r.manager.connections agentID).lookup connectionID = some s ∨
      (r'.log = r.log ++ [s] ∧ s.serverGeneration = r.manager.nextServerGeneration + 1 ∧
        ∀ old, (r.manager.connections agentID).lookup connectionID = some old →
          old.connectionEpoch < s.connectionEpoch) := by
  change (r'.manager.view agentID).connections.lookup connectionID = some s at hlive
  cases h with
  | quiet hn hv => rw [hv] at hlive; exact .inl hlive
  | placed t hg hroom hn he hlimit hv =>
    rw [hv] at hlive
    split at hlive
    · next ha =>
      rw [View.place, lookup_insert_eq] at hlive
      subst ha
      split at hlive
      · next hc => cases hlive; subst hc; exact .inr ⟨rfl, hg, he⟩
      · exact .inl hlive
    · exact .inl hlive
  | dropped agent connection hn hv =>
    rw [hv] at hlive
    split at hlive
    · next ha =>
      rw [View.drop, lookup_erase_eq] at hlive
      subst ha
      split_ifs at hlive
      exact .inl hlive
    · exact .inl hlive
  | cleared agent hn hv =>
    rw [hv] at hlive
    split at hlive
    · cases hlive
    · exact .inl hlive

theorem Effect.log (h : Effect cfg r r') :
    (r'.log = r.log ∧ r'.manager.nextServerGeneration = r.manager.nextServerGeneration) ∨
      (∃ s, r'.log = r.log ++ [s] ∧ s.serverGeneration = r.manager.nextServerGeneration + 1 ∧
        r.manager.nextServerGeneration ≠ 2 ^ 64 - 1 ∧
        r'.manager.nextServerGeneration = r.manager.nextServerGeneration + 1) := by
  cases h with
  | quiet hn | dropped _ _ hn | cleared _ hn => exact .inl ⟨rfl, hn⟩
  | placed s hg hr hn _ _ _ => exact .inr ⟨s, rfl, hg, hr, hn⟩

theorem Effect.mem_log (h : Effect cfg r r') (hmem : s ∈ r.log) : s ∈ r'.log := by
  rcases h.log with ⟨hlog, -⟩ | ⟨t, hlog, -⟩
  · exact hlog ▸ hmem
  · exact hlog ▸ mem_append_left [t] hmem

theorem Effect.consistent (h : Effect cfg r r')
    (hc : ∀ id, (r.manager.view id).Consistent cfg.connectionLimit id) (agentID : String) :
    (r'.manager.view agentID).Consistent cfg.connectionLimit agentID := by
  cases h with
  | quiet hn hv => rw [hv]; exact hc agentID
  | placed s hgeneration hroom hn hepoch hl hv =>
    rw [hv]
    split
    · next ha => exact ha ▸ (hc s.agentID).place rfl hl
    · exact hc agentID
  | dropped agent connection hn hv =>
    rw [hv]
    split
    · next ha => exact ha ▸ (hc agent).drop connection
    · exact hc agentID
  | cleared agent hn hv =>
    rw [hv]
    split
    · exact consistent_empty
    · exact hc agentID

end Effect

structure Invariant (cfg : AgentSessionConfig) (r : SessionRegistry) : Prop where
  consistent : ∀ agentID, (r.manager.view agentID).Consistent cfg.connectionLimit agentID
  logged : ∀ agentID connectionID s, (r.manager.connections agentID).lookup connectionID = some s → s ∈ r.log
  ascending : r.log.Pairwise fun s t => s.serverGeneration < t.serverGeneration
  generations : ∀ s ∈ r.log, s.serverGeneration ≤ r.manager.nextServerGeneration
  exact64 : r.manager.nextServerGeneration < 2 ^ 64

section Invariant

variable {r : SessionRegistry}

theorem invariant_new : Invariant cfg newSessionRegistry where
  consistent _ := consistent_empty
  logged _ _ _ hlookup := nomatch hlookup
  ascending := .nil
  generations _ hmem := nomatch hmem
  exact64 := by decide

theorem Effect.invariant (h : Effect cfg r r') (hinv : Invariant cfg r) : Invariant cfg r' := by
  have hl (agentID connectionID : String) (s : AgentSession)
      (hlive : (r'.manager.connections agentID).lookup connectionID = some s) : s ∈ r'.log := by
    rcases h.live hlive with hb | ⟨hlog, -, -⟩
    · exact h.mem_log (hinv.logged agentID connectionID s hb)
    · exact hlog ▸ mem_append_right r.log (mem_singleton_self s)
  rcases h.log with ⟨hlog, hn⟩ | ⟨t, hlog, hg, hroom, hn⟩
  · refine ⟨h.consistent hinv.consistent, hl, hlog ▸ hinv.ascending, ?_, hn ▸ hinv.exact64⟩
    intro s hmem
    rw [hn]
    exact hinv.generations s (hlog ▸ hmem)
  · refine ⟨h.consistent hinv.consistent, hl, ?_, ?_, ?_⟩
    · rw [hlog, pairwise_append]
      refine ⟨hinv.ascending, pairwise_singleton _ t, fun s hs u hu => ?_⟩
      have hle := hinv.generations s hs
      rw [mem_singleton.mp hu]
      omega
    · intro s hmem
      rw [hlog] at hmem
      rw [hn]
      rcases mem_append.mp hmem with hold | hnew
      · exact (hinv.generations s hold).trans (Nat.le_succ _)
      · rw [mem_singleton.mp hnew, hg]
    · have hbound := hinv.exact64; omega

variable (ops : List SessionOperation)

theorem applyAll_invariant (hinv : Invariant cfg r) :
    Invariant cfg (r.applyAll cfg ops) := by
  induction ops generalizing r with
  | nil => exact hinv
  | cons op rest ih => exact ih ((apply_effect op).invariant hinv)

theorem Invariant.eq_of_generation (hinv : Invariant cfg r) (hs : s ∈ r.log) (ht : t ∈ r.log)
    (hsame : s.serverGeneration = t.serverGeneration) : s = t := by
  by_contra hne
  have hsymm : Std.Symm fun s t : AgentSession => s.serverGeneration ≠ t.serverGeneration :=
    ⟨fun _ _ h => h.symm⟩
  have hd := hinv.ascending.imp fun hlt => Nat.ne_of_lt hlt
  exact hd.forall hs ht hne hsame

def Live (r : SessionRegistry) (s : AgentSession) : Prop :=
  (r.manager.connections s.agentID).lookup s.connectionID = some s

theorem Invariant.live_of_lookup (hinv : Invariant cfg r)
    (hl : (r.manager.connections agentID).lookup connectionID = some s) : s.agentID = agentID ∧ Live r s := by
  obtain ⟨ha, hc⟩ := (hinv.consistent agentID).named connectionID s hl
  subst ha hc
  exact ⟨rfl, hl⟩

structure Stale (r : SessionRegistry) (s : AgentSession) : Prop where
  registered : s ∈ r.log
  displaced : ¬Live r s

theorem not_live_removeSession (r : SessionRegistry) (s : AgentSession) :
    ¬Live (r.apply cfg (.removeSession s.agentID s)) s := by
  intro hlive
  by_cases hb : Live r s
  · have hv : (r.manager.removeSession s.agentID s).view s.agentID = _ := view_removeSession s hb
    rw [if_pos rfl] at hv
    have hc := congrArg View.connections hv
    have hl := (congrArg (AList.lookup s.connectionID) hc).symm.trans hlive
    split at hl
    · cases hl
    · rw [View.drop, AList.lookup_erase] at hl; cases hl
  · have hs : r.manager.removeSession s.agentID s = r.manager := if_neg hb
    rw [apply, Live, hs] at hlive
    exact hb hlive

theorem Effect.stale (h : Effect cfg r r') (hinv : Invariant cfg r) (hs : Stale r s) : Stale r' s := by
  refine ⟨h.mem_log hs.registered, fun hl => ?_⟩
  rcases h.live hl with hb | ⟨-, hgeneration, -⟩
  · exact hs.displaced hb
  · have hle := hinv.generations s hs.registered; omega

theorem applyAll_stale (hinv : Invariant cfg r) (hs : Stale r s) :
    Stale (r.applyAll cfg ops) s := by
  induction ops generalizing r with
  | nil => exact hs
  | cons op rest ih => exact ih ((apply_effect op).invariant hinv) ((apply_effect op).stale hinv hs)

theorem Stale.removeSession (hinv : Invariant cfg r) (hs : Stale r s) (agentID : String) :
    r.manager.removeSession agentID s = r.manager := by
  apply if_neg
  intro hl
  exact hs.displaced (hinv.live_of_lookup hl).2

theorem applyAll_epoch (htaken : ∀ before, before <+: ops →
      ((r.applyAll cfg before).manager.connections agentID).lookup connectionID ≠ none)
    (hs : (r.manager.connections agentID).lookup connectionID = some s)
    (ht : ((r.applyAll cfg ops).manager.connections agentID).lookup connectionID = some t) :
    s.connectionEpoch ≤ t.connectionEpoch := by
  induction ops generalizing r s with
  | nil => have hsame : s = t := some.inj (hs.symm.trans ht); exact hsame ▸ Int.le_refl _
  | cons op rest ih =>
    have hf := htaken [op] (prefix_append [op] rest)
    obtain ⟨u, hu⟩ := ne_none_iff_exists'.mp hf
    have hr := ih (fun before hb => htaken (op :: before) (cons_prefix_cons.mpr ⟨rfl, hb⟩)) hu ht
    rcases (apply_effect op).live hu with hb | ⟨-, -, he⟩
    · have hsame : s = u := some.inj (hs.symm.trans hb); exact hsame ▸ hr
    · have hraised := he s hs; omega

end Invariant

theorem session_registry_invariant (cfg : AgentSessionConfig) (ops : List SessionOperation) :
    let r := newSessionRegistry.applyAll cfg ops
    (∀ agentID, (r.manager.order agentID).Nodup ∧ (r.manager.order agentID).Perm (r.manager.connections agentID).keys ∧
      (r.manager.order agentID).length ≤ cfg.connectionLimit) ∧
    (∀ agentID connectionID s, (r.manager.connections agentID).lookup connectionID = some s → s ∈ r.log) ∧
    (r.log.Pairwise fun s t => s.serverGeneration < t.serverGeneration) ∧ (∀ agentID connectionID more s t,
      (∀ before, before <+: more → ((r.applyAll cfg before).manager.connections agentID).lookup connectionID ≠ none) →
      (r.manager.connections agentID).lookup connectionID = some s →
      ((r.applyAll cfg more).manager.connections agentID).lookup connectionID = some t →
      s.connectionEpoch ≤ t.connectionEpoch) ∧
    (∀ s ∈ r.log, (r.manager.connections s.agentID).lookup s.connectionID ≠ some s → ∀ more agentID,
      (r.applyAll cfg more).manager.removeSession agentID s = (r.applyAll cfg more).manager) := by
  intro r
  have hinv : Invariant cfg r := applyAll_invariant ops invariant_new
  refine ⟨fun agentID => ?_, hinv.logged, hinv.ascending, ?_, ?_⟩
  · have hview := hinv.consistent agentID; exact ⟨hview.nodup, hview.perm, hview.bounded⟩
  · intro agentID connectionID more s t htaken hs ht; exact applyAll_epoch more htaken hs ht
  · intro s hlogged hdisplaced more agentID
    have hstale := applyAll_stale more hinv ⟨hlogged, hdisplaced⟩
    exact hstale.removeSession (applyAll_invariant more hinv) agentID

end SessionRegistry

end TunnelMesh.Server
