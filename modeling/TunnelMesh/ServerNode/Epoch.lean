import TunnelMesh.Relay.NodeAuth.Theorems
import TunnelMesh.ServerNode.Services

namespace TunnelMesh.ServerNode

open TunnelMesh.Registry TunnelMesh.Storage Program Registration Storage Option Transition Yields Table

namespace Epoch

structure History where
  store : Store
  left : List (String × ℤ)

def departed (old new : NodeTable) : List (String × ℤ) :=
  old.rows.filterMap fun row =>
    if (new.get row.id).any fun node => node.epoch = row.epoch then none else some (row.id, row.epoch)

variable (h : History)

def step (label : Call × List Input) : Option History :=
  (label.1.program.finish exec h.store label.2).map fun outcome =>
    ⟨outcome.1, departed h.store.nodes outcome.1.nodes ++ h.left⟩

def init (nodes : NodeTable) (leases : LeaseTable) : History := ⟨⟨nodes, leases, []⟩, []⟩

def registrationPair (req : NodeRegistration) : String × String :=
  (req.agentID, if req.connectionID = "" then "legacy" else req.connectionID)

def nextEpoch (leases : LeaseTable) (pair : String × String) : ℤ :=
  (leases.get pair).elim 1 fun old => int64 (old.connectionEpoch + 1)

-- A connection registers on a node only while the node's epoch is not above the
-- one that the connection's lease gets.
def Ahead (label : Call × List Input) : Prop :=
  match label.1 with
  | .register req =>
    ∀ node ∈ h.store.nodes.get req.nodeID, node.epoch ≤ nextEpoch h.store.leases (registrationPair req)
  | _ => True

def Above : Prop :=
  ∀ id epoch, (id, epoch) ∈ h.left → ∃ node, h.store.nodes.get id = some node ∧ epoch < node.epoch

-- Epochs only grow: a node's epoch is above all that it has left, and the relay
-- accepts none of those.
structure Forward : Prop where
  above : Above h
  refused : ∀ platform db requireMTLS now incoming p,
    Relay.authenticateServerNode platform ⟨db, h.store.nodes, requireMTLS⟩ now incoming = .ok p →
      (p.nodeID, p.epoch) ∉ h.left

-- The epochs of all nodes stay, but for that of `target`, which may become `next`.
def Sets (target : String) (next : ℤ) (old new : NodeTable) : Prop :=
  ∀ id row, old.get id = some row →
    ∃ row', new.get id = some row' ∧ (row'.epoch = row.epoch ∨ (id = target ∧ row'.epoch = next))

def Keeps (old new : NodeTable) : Prop :=
  ∀ id row, old.get id = some row → ∃ row', new.get id = some row' ∧ row'.epoch = row.epoch

section Tables

theorem Keeps.refl (nodes : NodeTable) : Keeps nodes nodes := fun _ row h => ⟨row, h, rfl⟩

theorem Keeps.trans (h : Keeps old mid) (h' : Keeps mid new) : Keeps old new := by
  intro id row hrow
  obtain ⟨row', hrow', hepoch⟩ := h id row hrow
  obtain ⟨row'', hr, he⟩ := h' id row' hrow'
  exact ⟨row'', hr, he.trans hepoch⟩

theorem Keeps.sets (h : Keeps old new) : Sets target next old new := by
  intro id row hrow
  obtain ⟨row', hr, he⟩ := h id row hrow
  exact ⟨row', hr, .inl he⟩

theorem Sets.trans_keeps (h : Sets target next old mid) (h' : Keeps mid new) : Sets target next old new := by
  intro id row hrow
  obtain ⟨row', hrow', he⟩ := h id row hrow
  obtain ⟨row'', hr, hs⟩ := h' id row' hrow'
  refine ⟨row'', hr, ?_⟩
  rw [hs]
  exact he

theorem Sets.keeps (h : Sets target next old new) (hn : ∀ row, old.get target = some row → next = row.epoch) :
    Keeps old new := by
  intro id row hrow
  obtain ⟨row', hr, he | ⟨rfl, he⟩⟩ := h id row hrow
  · exact ⟨row', hr, he⟩
  · exact ⟨row', hr, he.trans (hn row hrow)⟩

theorem keeps_create (h : createNode old v = some new) : Keeps old new := by
  have hf := get_of_createNode h
  intro id row hrow
  have hne : v.id ≠ id := by
    rintro rfl
    rw [hf] at hrow
    cases hrow
  refine ⟨row, ?_, rfl⟩
  rw [get_createNode h, if_neg hne]
  exact hrow

theorem keeps_touch {id : String} (h : touchNode old id lastSeen expires = some new) : Keeps old new := by
  intro other row hrow
  have hget := get_touchNode h other
  rw [hrow] at hget
  split at hget
  · exact ⟨row.touched lastSeen expires, hget, rfl⟩
  · exact ⟨row, hget, rfl⟩

theorem sets_update (h : Storage.updateNode old v = some new) : Sets v.id v.epoch old new := by
  obtain ⟨⟨stored, hstored, hnew⟩, ho⟩ := get_updateNode h
  intro id row hrow
  by_cases hid : v.id = id
  · subst hid; exact ⟨v.overwrite stored, hnew, .inr ⟨rfl, v.epoch_overwrite stored⟩⟩
  · refine ⟨row, ?_, .inl rfl⟩
    rw [ho id hid]
    exact hrow

end Tables

section Programs

def quiet (c : Command) : Prop := ∀ actor v, c ≠ .updateNode actor v

theorem effect_keeps (he : NodeEffect store c next) (hq : quiet c) : Keeps store.nodes next.nodes := by
  cases he with
  | none hn hdecisions => rw [hn]; exact Keeps.refl _
  | create hc => exact keeps_create hc
  | @update v nodes actor hupdate => exact absurd rfl (hq actor v)
  | touch ht => exact keeps_touch ht

def Keeping {α : Type} (p : Proc α) : Prop :=
  ∀ store, p.Yields exec (fun next _ => Keeps store.nodes next.nodes) store

theorem keeping_of_only {α : Type} {p : Proc α} (h : p.Only quiet) : Keeping p := fun _ =>
  h.yields (fun a b => Keeps a.nodes b.nodes) (fun s => Keeps.refl s.nodes) Keeps.trans
    fun s c input => effect_keeps (exec_effect s c input)

theorem only_quiet {c : Command} (h : quiet c := by simp [quiet]) : (perform c).Only quiet := Only.perform h

theorem keeping_perform {c : Command} (h : quiet c := by simp [quiet]) : Keeping (perform c) :=
  keeping_of_only (only_quiet h)

theorem Keeping.bind {α β : Type} {p : Proc α} {f : α → Proc β} (hp : Keeping p) (hf : ∀ a, Keeping (f a)) :
    Keeping (p >>= f) := fun store =>
  (hp store).bind (fun s a hs => (hf a s).mono fun _ _ => hs.trans) fun _ _ hs => hs

theorem Keeping.attempt_bind {α β : Type} {p : Proc α} {f : Except NodeError α → Proc β} (hp : Keeping p)
    (hf : ∀ r, Keeping (f r)) : Keeping (p.attempt >>= f) := fun store =>
  (hp store).attempt_bind fun s r hs => (hf r s).mono fun _ _ => hs.trans

theorem exec_updateNode_sets (store : Store) (actor : Actor) (v : ServerNode) (input : Input) :
    Sets v.id v.epoch store.nodes (exec store (.updateNode actor v) input).1.nodes := by
  have he := exec_effect store (.updateNode actor v) input
  generalize (exec store (.updateNode actor v) input).1 = next at he
  cases he with
  | none hn hdecisions => rw [hn]; exact (Keeps.refl _).sets
  | update hu => cases actor <;> exact sets_update hu

theorem exec_getNode (store : Store) (id : String) (input : Input) : (exec store (.getNode id) input).1 = store ∧
      ∀ found, (exec store (.getNode id) input).2 = .ok found → found = store.nodes.get id := by
  obtain ⟨now, fault⟩ := input
  cases fault with
  | none => exact ⟨rfl, fun found h => (Except.ok.inj h).symm⟩
  | some fault => cases fault <;> exact ⟨rfl, fun found h => by cases h⟩

theorem getNode_yields (store : Store) (id : String) : (perform (.getNode id)).Yields exec
      (fun s r => s = store ∧ ∀ found, r = .ok found → found = store.nodes.get id) store :=
  yields_perform (exec_getNode store id)

theorem refreshNode_yields {id : String} {change : ServerNode → ServerNode}
    (hm : missing.Only quiet) (hid : ∀ node, (change node).id = node.id) : (refreshNode id missing change).Yields exec
      (fun next _ => Keeps store.nodes next.nodes ∨ ∃ node, store.nodes.get id = some node ∧
        Sets id (change node).epoch store.nodes next.nodes) store := by
  refine bind (getNode_yields store id) ?_ ?_
  · rintro s found ⟨rfl, hf⟩
    cases found with
    | none => exact (keeping_of_only hm s).mono fun next _ => .inl
    | some node =>
      have hn : s.nodes.get id = some node := (hf _ rfl).symm
      have hkey : (change node).id = id := (hid node).trans (s.nodes.key_of_get hn)
      refine yields_perform fun input => .inr ⟨node, hn, ?_⟩
      rw [← hkey]
      exact exec_updateNode_sets s .dataPlane (change node) input
  · rintro s e ⟨rfl, -⟩; exact .inl (Keeps.refl _)

theorem keeping_refreshNode {id : String} {change : ServerNode → ServerNode}
    (hm : missing.Only quiet) (hc : ∀ node, (change node).id = node.id ∧ (change node).epoch = node.epoch) :
    Keeping (refreshNode id missing change) := by
  intro store
  refine (refreshNode_yields hm fun node => (hc node).1).mono fun next _ h => ?_
  rcases h with hk | ⟨node, hn, hs⟩
  · exact hk
  · refine hs.keeps fun row hrow => ?_
    obtain rfl : node = row := some.inj (hn.symm.trans hrow)
    exact (hc node).2

theorem findNode_yields (store : Store) (id : String) : (findNode id).Yields exec
      (fun s r => s = store ∧ ∀ node, r = .ok node → store.nodes.get id = some node) store := by
  refine bind (getNode_yields store id) ?_ ?_
  · rintro s found ⟨rfl, hf⟩
    cases found with
    | none => exact ⟨rfl, fun node h => by cases h⟩
    | some node =>
      refine ⟨rfl, fun other h => ?_⟩
      cases h
      exact (hf _ rfl).symm
  · rintro s e ⟨rfl, -⟩; exact ⟨rfl, fun node h => by cases h⟩

theorem keeping_findNode (id : String) : Keeping (findNode id) := by
  refine .bind keeping_perform fun found => ?_
  cases found <;> exact keeping_of_only trivial

theorem decideNode_keeps {node v : ServerNode} (hn : store.nodes.get node.id = some node)
    (hid : v.id = node.id) (he : v.epoch = node.epoch) :
    (decideNode v).Yields exec (fun next _ => Keeps store.nodes next.nodes) store := by
  have hu : (perform (.updateNode .administrator v)).Yields exec
      (fun next _ => Keeps store.nodes next.nodes) store := by
    refine yields_perform fun input => ?_
    refine (exec_updateNode_sets store .administrator v input).keeps fun row hrow => ?_
    rw [hid] at hrow
    obtain rfl : node = row := some.inj (hn.symm.trans hrow)
    exact he
  refine bind hu (fun s _ hs => ?_) fun s e hs => hs
  have hr : Keeping (do
      perform .writeAudit
      let found ← findNode v.id
      perform (.stats found.id)
      return found : Proc ServerNode) := by
    refine .bind keeping_perform fun _ => (keeping_findNode v.id).bind fun found => ?_
    exact .bind keeping_perform fun _ => keeping_of_only trivial
  exact (hr s).mono fun next _ => hs.trans

end Programs

section Register

variable {store : Store} {v : Request} {next : ℤ}

def Pending (v : Request) (next : ℤ) : Prop :=
  (v.epoch ≤ 0 ∨ v.epoch = next) ∧ (v.connectionEpoch ≤ 0 ∨ v.connectionEpoch = next)

theorem Pending.filled (h : Pending v next) :
    (v.defaultEpochs next).epoch = next ∧ (v.defaultEpochs next).connectionEpoch = next := by
  obtain ⟨hepoch, hconnection⟩ := h
  have hf : (v.defaultEpochs next).connectionEpoch = next := by
    simp only [Request.defaultEpochs]
    split <;> omega
  refine ⟨?_, hf⟩
  simp only [Request.defaultEpochs] at hf ⊢
  split <;> omega

theorem select_cases (v : Request) (leases : LeaseTable) (now : ℕ) :
    (∃ filled e, v.select now (leases.get v.pair) = (filled, .returned (.error e))) ∨
      (∃ time autoEpoch oldEpoch, v.select now (leases.get v.pair) =
        (v.defaultEpochs (nextEpoch leases v.pair), .update time autoEpoch oldEpoch)) ∨
      ∃ time, v.select now (leases.get v.pair) = (v.defaultEpochs (nextEpoch leases v.pair), .insert time) := by
  cases hget : leases.get v.pair with
  | none => refine .inr (.inr ⟨now, ?_⟩); simp only [Request.select, nextEpoch, hget, elim_none]
  | some old =>
    simp only [Request.select, nextEpoch, hget, elim_some]
    split
    · exact .inl ⟨_, _, rfl⟩
    · split
      · exact .inl ⟨_, _, rfl⟩
      · exact .inr (.inl ⟨_, _, _, rfl⟩)

theorem wrote_false (h : (store.wrote leases).2 = .ok false) : (store.wrote leases).1 = store := by
  cases leases with
  | none => rfl
  | some leases => cases h

theorem takeover_yields (store : Store) (v : Request) (time : ℕ) (autoEpoch : Bool) (oldEpoch : ℤ) :
    (perform (.takeoverLease v time autoEpoch oldEpoch)).Yields exec
      (fun s r => s.nodes = store.nodes ∧ (r = .ok false → s = store)) store := by
  refine yields_perform fun input => ⟨(exec_effect store _ input).nodes_eq rfl, fun h => ?_⟩
  have hrun := exec_of_ok h
  rw [hrun] at h ⊢
  exact wrote_false h

theorem insert_yields (store : Store) (v : Request) (time : ℕ) : (perform (.insertLease v time)).Yields exec
      (fun s r => s.nodes = store.nodes ∧ (r = .ok false → s = store)) store := by
  refine yields_perform fun input => ⟨(exec_effect store _ input).nodes_eq rfl, fun h => ?_⟩
  have hrun := exec_of_ok h
  rw [hrun] at h ⊢
  exact wrote_false h

theorem clock_yields (store : Store) : (perform .clock).Yields exec (fun s _ => s = store) store :=
  yields_perform fun input => by rfl

theorem selectLease_yields (store : Store) (pair : String × String) : (perform (.selectLease pair)).Yields exec
      (fun s r => s = store ∧ ∀ row, r = .ok row → row = store.leases.get pair) store := by
  refine yields_perform fun input => ?_
  obtain ⟨now, fault⟩ := input
  cases fault with
  | none => exact ⟨rfl, fun row h => (Except.ok.inj h).symm⟩
  | some fault => cases fault <;> exact ⟨rfl, fun row h => by cases h⟩

-- What one attempt leaves: no node has changed, a lease has the next epoch, and
-- without a lease the leases are as they were.
structure Attempted (store : Store) (v : Request) (next : ℤ) (s : Store)
    (r : Except NodeError (Request × Option AgentLease)) : Prop where
  nodes : s.nodes = store.nodes
  lease : ∀ filled lease, r = .ok (filled, some lease) → lease.epoch = next
  retry : ∀ filled, r = .ok (filled, none) → s = store ∧ filled = v.defaultEpochs next

theorem attempted_error (hn : s.nodes = store.nodes) : Attempted store v next s (.error e) :=
  ⟨hn, fun _ _ h => (by cases h), fun _ h => (by cases h)⟩

theorem attempted_write (hn : s.nodes = store.nodes)
    (hlost : (Except.ok won : Except NodeError Bool) = .ok false → s = store) (hl : lease.epoch = next) :
    Attempted store v next s (.ok (v.defaultEpochs next, if won then some lease else none)) := by
  cases won with
  | true =>
    refine ⟨hn, fun filled found h => ?_, fun filled h => (by cases h)⟩
    cases h
    exact hl
  | false =>
    refine ⟨hn, fun filled found h => (by cases h), fun filled h => ?_⟩
    cases h
    exact ⟨hlost rfl, rfl⟩

theorem attemptLease_yields (hp : Pending v (nextEpoch store.leases v.pair)) :
    (attemptLease v).Yields exec (Attempted store v (nextEpoch store.leases v.pair)) store := by
  have hf := hp.filled.1
  refine bind (clock_yields store) ?_ fun s e hs => attempted_error (by rw [hs])
  rintro s now rfl
  refine bind (selectLease_yields s v.pair) ?_ fun s' e hs => attempted_error (by rw [hs.1])
  rintro s' row ⟨rfl, hrow⟩
  obtain rfl := hrow row rfl
  rcases select_cases v s'.leases now with ⟨filled, e, hselect⟩ | ⟨time, autoEpoch, oldEpoch, hselect⟩ |
    ⟨time, hselect⟩
  · rw [hselect]; exact attempted_error rfl
  · rw [hselect]
    refine bind (takeover_yields s' _ time autoEpoch oldEpoch) ?_ fun s'' e hs => attempted_error hs.1
    rintro s'' won ⟨hn, hl⟩
    exact attempted_write hn hl hf
  · rw [hselect]
    refine bind (insert_yields s' _ time) ?_ fun s'' e hs => attempted_error hs.1
    rintro s'' won ⟨hn, hl⟩
    exact attempted_write hn hl hf

structure Leased (store : Store) (next : ℤ) (s : Store) (r : Except NodeError AgentLease) : Prop where
  nodes : s.nodes = store.nodes
  lease : ∀ lease, r = .ok lease → lease.epoch = next

theorem leased_error (hn : s.nodes = store.nodes) : Leased store next s (.error e) :=
  ⟨hn, fun _ h => (by cases h)⟩

theorem registerLoop_yields (attempts : ℕ) (hp : Pending v (nextEpoch store.leases v.pair)) :
    (registerLoop attempts v).Yields exec (Leased store (nextEpoch store.leases v.pair)) store := by
  induction attempts generalizing v with
  | zero => exact leased_error rfl
  | succ attempts ih =>
    refine bind (attemptLease_yields hp) ?_ fun s e hs => leased_error hs.nodes
    rintro s ⟨filled, lease⟩ hs
    cases lease with
    | some lease =>
      refine ⟨hs.nodes, fun found h => ?_⟩
      cases h
      exact hs.lease filled lease rfl
    | none =>
      obtain ⟨rfl, rfl⟩ := hs.retry filled rfl
      exact ih ⟨.inr hp.filled.1, .inr hp.filled.2⟩

theorem validate_pair (h : v.validate = .ok filled) :
    filled.pair = (v.agentID, if v.connectionID = "" then "legacy" else v.connectionID) ∧
      filled.epoch = v.epoch ∧ filled.connectionEpoch = v.connectionEpoch := by
  unfold Request.validate at h
  split at h <;> cases h
  exact ⟨rfl, rfl, rfl⟩

theorem registerConnection_yields (hr : Registry.Database.register req = .ok request) :
    (registerConnection request).Yields exec (Leased store (nextEpoch store.leases (registrationPair req))) store := by
  have hf : request.agentID = req.agentID ∧ request.connectionID = req.connectionID ∧
      request.epoch = 0 ∧ request.connectionEpoch = 0 := by
    unfold Registry.Database.register at hr
    split at hr <;> cases hr
    exact ⟨rfl, rfl, rfl, rfl⟩
  obtain ⟨ha, hc, hepoch, hzero⟩ := hf
  unfold registerConnection
  cases hv : request.validate with
  | error e => exact leased_error rfl
  | ok filled =>
    obtain ⟨hp, hsame, hsame'⟩ := validate_pair hv
    have hregistration : filled.pair = registrationPair req := by rw [hp, ha, hc]; rfl
    rw [← hregistration]
    exact registerLoop_yields 8 ⟨.inl (by omega), .inl (by omega)⟩

theorem publishNode_yields (req : NodeRegistration) (lease : AgentLease) :
    (publishNode req lease).Yields exec (fun next _ => Sets req.nodeID lease.epoch store.nodes next.nodes) store := by
  refine bind (clock_yields store) ?_ fun s e hs => by rw [hs]; exact (Keeps.refl _).sets
  rintro s now rfl
  have hr : (refreshNode req.nodeID (perform (.createNode (freshNode req lease now)))
      (registeredNode req lease now)).Yields exec
      (fun next _ => Sets req.nodeID lease.epoch s.nodes next.nodes) s := by
    have hc : (perform (.createNode (freshNode req lease now))).Only quiet := only_quiet
    refine mono (refreshNode_yields hc ?_) fun next _ h => ?_
    · exact fun _ => rfl
    rcases h with hk | ⟨node, -, hsets⟩
    · exact hk.sets
    · exact hsets
  refine attempt_bind hr fun s' written hs => ?_
  cases written with
  | ok u => exact hs
  | error e =>
    have hrelease : Keeping ((perform (.releaseLease req.agentID lease.connectionID lease.connectionEpoch)).attempt >>=
        fun _ => (throw e : Proc NodeOwner)) := .attempt_bind keeping_perform fun _ => keeping_of_only trivial
    exact (hrelease s').mono fun next _ => hs.trans_keeps

theorem register_yields (req : NodeRegistration) : (register req).Yields exec
      (fun next _ => Sets req.nodeID (nextEpoch store.leases (registrationPair req)) store.nodes next.nodes) store := by
  unfold register
  cases hr : Registry.Database.register req with
  | error e => exact (Keeps.refl _).sets
  | ok request =>
    refine attempt_bind (registerConnection_yields hr) fun s result hs => ?_
    rw [← hs.nodes]
    cases result with
    | error e =>
      have hk : Sets req.nodeID (nextEpoch store.leases (registrationPair req)) s.nodes s.nodes :=
        (Keeps.refl _).sets
      cases e with
      | registration e => cases e <;> exact hk
      | _ => exact hk
    | ok lease => rw [← hs.lease lease rfl]; exact publishNode_yields req lease

end Register

section Calls

variable {store : Store}

theorem keeping_keepAlive (owner : NodeOwner) (ttl : ℤ) : Keeping (keepAlive owner ttl) := by
  refine .bind keeping_perform fun renewed => ?_
  split
  · exact keeping_of_only trivial
  refine .bind keeping_perform fun leases => ?_
  split
  · exact keeping_of_only trivial
  split
  · exact keeping_of_only trivial
  refine .bind keeping_perform fun now => ?_
  refine .attempt_bind (keeping_refreshNode ?_ fun _ => ⟨rfl, rfl⟩) fun _ => keeping_of_only ?_ <;> trivial

theorem keeping_ensure (v : ServerNode) : Keeping (ensure v) :=
  keeping_refreshNode only_quiet fun _ => ⟨rfl, rfl⟩

theorem keeping_startNode (nodeID address : String) (ttl : ℕ) : Keeping (startNode nodeID address ttl) := by
  refine .bind keeping_perform fun now => (keeping_ensure _).bind fun _ => ?_
  refine (keeping_findNode nodeID).bind fun found => keeping_of_only ?_
  exact Only.ite trivial (Only.ite trivial only_quiet)

theorem keeping_decided (id : String) {f : ServerNode → Proc ServerNode}
    (hf : ∀ store : Store, ∀ node, store.nodes.get node.id = some node →
      (f node).Yields exec (fun next _ => Keeps store.nodes next.nodes) store) : Keeping (findNode id >>= f) := by
  intro store
  refine bind (findNode_yields store id) ?_ ?_
  · rintro s node ⟨rfl, hn⟩
    have hget := hn node rfl
    have hkey := s.nodes.key_of_get hget
    apply hf
    rw [show node.id = id from hkey]
    exact hget
  · rintro s e ⟨rfl, -⟩; exact Keeps.refl _

theorem renamedNode_epoch
    (h : renamedNode name node = .ok renamed) : renamed.id = node.id ∧ renamed.epoch = node.epoch := by
  cases name with
  | none => cases h; exact ⟨rfl, rfl⟩
  | some name =>
    simp only [renamedNode] at h
    split_ifs at h
    cases h; exact ⟨rfl, rfl⟩

theorem keeping_updateNode (id : String) (name : Option String) (enabled : Option Bool) :
    Keeping (updateNode id name enabled) := by
  unfold updateNode
  split
  · exact keeping_of_only trivial
  refine keeping_decided id fun store node hn => ?_
  cases hr : renamedNode name node with
  | error e => exact Keeps.refl _
  | ok renamed => obtain ⟨hid, he⟩ := renamedNode_epoch hr; exact decideNode_keeps hn hid he

theorem keeping_deleteNode (id : String) : Keeping (deleteNode id) := by
  refine keeping_decided id fun store node hn => ?_
  refine bind (clock_yields store) ?_ fun s e h => h ▸ Keeps.refl _
  rintro s now rfl
  exact decideNode_keeps hn rfl rfl

theorem keeping_restoreNode (id : String) : Keeping (restoreNode id) :=
  keeping_decided id fun _ _ hn => decideNode_keeps hn rfl rfl

theorem Keeping.discard {α : Type} {p : Proc α} (h : Keeping p) : Keeping (discard p) :=
  h.bind fun _ => keeping_of_only trivial

def Moved (store : Store) : Call → NodeTable → Prop
  | .register req, new =>
    Sets req.nodeID (nextEpoch store.leases (registrationPair req)) store.nodes new
  | _, new => Keeps store.nodes new

theorem call_moved (call : Call) : call.program.Yields exec (fun next _ => Moved store call next.nodes) store := by
  cases call with
  | register req => exact (register_yields req).bind (fun _ _ hs => hs) fun _ _ hs => hs
  | keepAlive owner ttl => exact (keeping_keepAlive owner ttl).discard store
  | revoke owner =>
    have hr : Keeping (revoke owner) := by
      refine .bind keeping_perform fun _ => keeping_of_only ?_
      exact Only.ite trivial trivial
    exact hr store
  | ensure v => exact keeping_ensure v store
  | touch id lastSeen expires => exact keeping_perform (by simp [quiet]) store
  | start nodeID address ttl => exact keeping_startNode nodeID address ttl store
  | heartbeat nodeID ttl =>
    have hb : Keeping (heartbeat nodeID ttl) := .bind keeping_perform fun _ => keeping_perform
    exact hb store
  | update id name enabled => exact (keeping_updateNode id name enabled).discard store
  | delete id => exact (keeping_deleteNode id).discard store
  | restore id => exact (keeping_restoreNode id).discard store

end Calls

section Runs

variable {h next : History}

def Grows (old new : NodeTable) : Prop :=
  ∀ id row, old.get id = some row → ∃ row', new.get id = some row' ∧ row.epoch ≤ row'.epoch

theorem Keeps.grows (hk : Keeps old new) : Grows old new := by
  intro id row hrow
  obtain ⟨row', hr, he⟩ := hk id row hrow
  exact ⟨row', hr, he.ge⟩

theorem Sets.grows (hs : Sets target epoch old new)
    (ha : ∀ row ∈ old.get target, row.epoch ≤ epoch) : Grows old new := by
  intro id row hrow
  obtain ⟨row', hr, he | ⟨rfl, he⟩⟩ := hs id row hrow
  · exact ⟨row', hr, he.ge⟩
  · refine ⟨row', hr, ?_⟩
    rw [he]
    exact ha row hrow

theorem grows_of_moved (ha : Ahead h label) {new : NodeTable} (hm : Moved h.store label.1 new) :
    Grows h.store.nodes new := by
  obtain ⟨call, inputs⟩ := label
  cases call with
  | register req => exact hm.grows ha
  | _ => exact hm.grows

theorem mem_departed {id : String} (hmem : (id, epoch) ∈ departed old new) :
    ∃ row, old.get id = some row ∧ row.epoch = epoch ∧ ∀ row', new.get id = some row' → row'.epoch ≠ epoch := by
  obtain ⟨row, hrow, hl⟩ := List.mem_filterMap.mp hmem
  split at hl <;> cases hl
  next hg =>
    refine ⟨row, (old.get_eq_some_iff _ _).mpr ⟨hrow, rfl⟩, rfl, fun row' hr he => hg ?_⟩
    rw [hr, any_some, decide_eq_true_eq]
    exact he

theorem step_above (ha : Above h) (hahead : Ahead h label) (hs : step h label = some next) : Above next := by
  obtain ⟨⟨store, result⟩, hf, rfl⟩ := map_eq_some_iff.mp hs
  have hg := grows_of_moved hahead (finish_of_yields (call_moved label.1) hf)
  intro id epoch hmem
  rcases List.mem_append.mp hmem with hnew | hold
  · obtain ⟨row, hrow, rfl, hgone⟩ := mem_departed hnew
    obtain ⟨row', hr, hle⟩ := hg id row hrow
    exact ⟨row', hr, lt_of_le_of_ne hle (hgone row' hr).symm⟩
  · obtain ⟨row, hrow, hlt⟩ := ha id epoch hold
    obtain ⟨row', hr, hle⟩ := hg id row hrow
    exact ⟨row', hr, lt_of_lt_of_le hlt hle⟩

theorem forward_of_above (ha : Above h) : Forward h := by
  refine ⟨ha, fun platform db requireMTLS now incoming p hok hl => ?_⟩
  obtain ⟨node, hn, -, hepoch⟩ := Relay.node_of_authenticated hok
  obtain ⟨stored, hs, hlt⟩ := ha p.nodeID p.epoch hl
  obtain rfl : node = stored := some.inj (hn.symm.trans hs)
  omega

end Runs

theorem node_epochs_move_forward (nodes : NodeTable) (leases : LeaseTable) (labels : List (Call × List Input))
    (halong : Along step Ahead (init nodes leases) labels) : Always step Forward (init nodes leases) labels := by
  have habove : Above (init nodes leases) := by simp [Above, init]
  have hinv := always_of_invariant (fun _ _ _ => step_above) _ labels habove halong
  exact hinv.mono fun s => forward_of_above

instance (h : History) (label : Call × List Input) : Decidable (Ahead h label) := by
  unfold Ahead
  split <;> infer_instance

def sampleNode : NodeTable :=
  ⟨[⟨"n", "n", "n:9443", 1, "\x7b\x7d", true, none, none, none⟩], List.nodup_singleton _⟩

def registering (agentID connectionID : String) (now : ℕ) : Call × List Input :=
  (.register ⟨"n", "n:9443", "\x7b\x7d", agentID, "i", connectionID, "n", 0⟩, List.replicate 6 ⟨now, none⟩)

def reconnecting : List (Call × List Input) :=
  [registering "agent" "c" 0, registering "agent" "c" 1000000000000]

theorem reconnecting_moves_forward :
    ∃ final, Transition.run step (init sampleNode Table.empty) reconnecting = some final ∧
      (final.left = [("n", 1)] ∧ (final.store.nodes.get "n").map (·.epoch) = some 2) ∧ Forward final :=
  (node_epochs_move_forward sampleNode Table.empty reconnecting (by decide +kernel)).exists_run (by decide +kernel)

-- The first lease of another agent's connection sets the node back.
theorem new_connection_resets_epoch : ∃ final, Transition.run step (init sampleNode Table.empty)
        (reconnecting ++ [registering "other" "d" 1000000000000]) = some final ∧
      ("n", 1) ∈ final.left ∧ ("n", 2) ∈ final.left ∧ (final.store.nodes.get "n").map (·.epoch) = some 1 :=
  exists_run_of_any (by decide +kernel)

end Epoch

end TunnelMesh.ServerNode
