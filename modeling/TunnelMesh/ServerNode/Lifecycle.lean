import TunnelMesh.Relay.NodeAuth.Theorems
import TunnelMesh.ServerNode.Services

namespace TunnelMesh.ServerNode

open TunnelMesh.Registry TunnelMesh.Storage Program Storage Relay Registration Transition Tracks List.Subset

abbrev Trace := Program.Trace Command Answer NodeError

abbrev State := Interleaving.State Store (Process Command Answer NodeError Unit)

abbrev Label := Interleaving.Label Call Input Empty

def system : Interleaving.System Store (Program.Process Command Answer NodeError Unit) Call Input Empty :=
  Program.system exec Call.program fun _ e => e.elim

def init (nodes : NodeTable) (leases : LeaseTable) : State := ⟨⟨nodes, leases, []⟩, []⟩

def loaded (trace : Trace) : Option ServerNode :=
  trace.findSome? fun
    | ⟨.getNode _, .ok (some row)⟩ => some row
    | _ => none

-- A call of the data plane writes what it has read into the columns that are
-- the administrator's.
def allowed (trace : Trace) : Command → Prop
  | .updateNode .dataPlane v => ∃ row, loaded trace = some row ∧ v.id = row.id ∧ v.lifecycle = row.lifecycle
  | _ => True

variable (store : Store)

-- When a call of the data plane writes a row, the administrator's columns are
-- still those it has read.
def Undecided (trace : Trace) : Command → Input → Prop
  | .updateNode .dataPlane _, _ =>
    ∀ row ∈ loaded trace, (store.nodes.get row.id).map (·.lifecycle) = some row.lifecycle
  | _, _ => True

instance Undecided.decidable (trace : Trace) (c : Command) (input : Input) :
    Decidable (Undecided store trace c input) := by
  unfold Undecided
  split <;> infer_instance

def decision (id : String) : Option (Bool × Option ℕ) := store.decisions.lookup id

def Kept : Prop :=
  ∀ id d, decision store id = some d → (store.nodes.get id).map (·.lifecycle) = some d

def recorded (e : Σ c, Except NodeError (Answer c)) (store : Store) : Prop :=
  ∀ v, e = ⟨.updateNode .administrator v, .ok ()⟩ → (v.id, v.lifecycle) ∈ store.decisions

section Programs

def plain (c : Command) : Prop := ∀ v, c ≠ .updateNode .dataPlane v

theorem allowed_of_plain (trace : Trace) (c : Command) (h : plain c) : allowed trace c := by
  cases c with
  | updateNode actor v =>
    cases actor with
    | administrator => trivial
    | dataPlane => exact absurd rfl (h v)
  | _ => trivial

theorem only_perform {c : Command} (h : plain c) : (perform c).Only plain := Only.perform h

theorem attemptLease_only (v : Request) : (attemptLease v).Only plain := by
  refine Only.bind (only_perform (by simp [plain])) fun now => ?_
  refine Only.bind (only_perform (by simp [plain])) fun row => ?_
  obtain ⟨filled, phase⟩ := v.select now row
  cases phase with
  | update time autoEpoch oldEpoch =>
    exact Only.bind (only_perform (by simp [plain])) fun won => trivial
  | insert time => exact Only.bind (only_perform (by simp [plain])) fun inserted => trivial
  | returned result => cases result <;> trivial
  | ready => trivial

theorem registerLoop_only (attempts : ℕ) (v : Request) : (registerLoop attempts v).Only plain := by
  induction attempts generalizing v with
  | zero => trivial
  | succ attempts ih =>
    refine Only.bind (attemptLease_only v) fun found => ?_
    obtain ⟨filled, lease⟩ := found
    cases lease with
    | some lease => trivial
    | none => exact ih filled

theorem registerConnection_only (v : Request) : (registerConnection v).Only plain := by
  unfold registerConnection
  cases v.validate with
  | error e => trivial
  | ok v => exact registerLoop_only 8 v

theorem refreshNode_tracks {id : String} {change : ServerNode → ServerNode}
    (hm : missing.Only plain) (hc : ∀ node, (change node).id = node.id ∧ (change node).lifecycle = node.lifecycle) :
    (refreshNode id missing change).Tracks allowed (fun _ _ => True) trace := by
  refine Program.Tracks.bind (Program.Tracks.perform trivial) ?_
  rintro after found rfl
  cases found with
  | none => exact (hm.tracks allowed_of_plain).mono fun _ _ _ => trivial
  | some node =>
    refine (Program.Tracks.perform ?_).mono fun _ _ _ => trivial
    exact ⟨node, rfl, (hc node).1, (hc node).2⟩

theorem only_tracks {α : Type} {p : Proc α} (h : p.Only plain) : p.Tracks allowed (fun _ _ => True) trace :=
  (h.tracks allowed_of_plain).mono fun _ _ _ => trivial

theorem register_tracks (req : NodeRegistration) : (register req).Tracks allowed (fun _ _ => True) trace := by
  unfold register
  cases Registry.Database.register req with
  | error e => trivial
  | ok request =>
    refine bind (only_tracks (registerConnection_only request).attempt) fun after result _ => ?_
    cases result with
    | error e =>
      cases e with
      | registration e => cases e <;> trivial
      | _ => trivial
    | ok lease =>
      refine bind (only_tracks (only_perform (by simp [plain]))) fun after now _ => ?_
      refine bind (attempt_true
        (refreshNode_tracks (only_perform (by simp [plain])) fun _ => ⟨rfl, rfl⟩)) fun after written _ => ?_
      cases written with
      | ok u => trivial
      | error e =>
        refine bind (only_tracks (only_perform (by simp [plain])).attempt) fun _ _ _ => ?_
        trivial

theorem keepAlive_tracks (owner : NodeOwner) (ttl : ℤ) :
    (keepAlive owner ttl).Tracks allowed (fun _ _ => True) trace := by
  refine bind (only_tracks (only_perform (by simp [plain]))) fun after renewed _ => ?_
  refine ite (fun _ => trivial) fun _ => ?_
  refine bind (only_tracks (only_perform (by simp [plain]))) fun after leases _ => ?_
  cases leases.find? fun lease => lease.connectionID = owner.connectionID with
  | none => trivial
  | some lease =>
    refine ite (fun _ => trivial) fun _ => ?_
    refine bind (only_tracks (only_perform (by simp [plain]))) fun after now _ => ?_
    refine bind (attempt_true (refreshNode_tracks trivial fun _ => ⟨rfl, rfl⟩)) fun _ _ _ => ?_
    trivial

theorem findNode_only (id : String) : (findNode id).Only plain := by
  refine Only.bind (only_perform (by simp [plain])) fun found => ?_
  cases found <;> trivial

theorem decideNode_only (node : ServerNode) : (decideNode node).Only plain := by
  refine Only.bind (only_perform (by simp [plain])) fun _ => ?_
  refine Only.bind (only_perform (by simp [plain])) fun _ => ?_
  refine Only.bind (findNode_only node.id) fun found => ?_
  exact Only.bind (only_perform (by simp [plain])) fun _ => trivial

theorem ensure_tracks (v : ServerNode) : (ensure v).Tracks allowed (fun _ _ => True) trace :=
  refreshNode_tracks (only_perform (by simp [plain])) fun _ => ⟨rfl, rfl⟩

theorem startNode_tracks (nodeID address : String) (ttl : ℕ) :
    (startNode nodeID address ttl).Tracks allowed (fun _ _ => True) trace := by
  refine bind (only_tracks (only_perform (by simp [plain]))) fun after now _ => ?_
  refine bind (ensure_tracks _) fun after _ _ => ?_
  refine bind (only_tracks (findNode_only nodeID)) fun after found _ => ?_
  refine ite (fun _ => trivial) fun _ => ite (fun _ => trivial) fun _ => ?_
  exact only_tracks (only_perform (by simp [plain]))

theorem updateNode_only (id : String) (name : Option String) (enabled : Option Bool) :
    (updateNode id name enabled).Only plain := by
  refine Only.ite trivial ?_
  refine Only.bind (findNode_only id) fun node => ?_
  exact Only.bind (Only.fromExcept _) fun renamed => decideNode_only _

theorem discard_tracks {α : Type} {p : Proc α} (h : p.Tracks allowed (fun _ _ => True) trace) :
    (discard p).Tracks allowed (fun _ _ => True) trace :=
  bind h fun _ _ _ => trivial

theorem program_tracks (call : Call) : call.program.Tracks allowed (fun _ _ => True) [] := by
  cases call with
  | register req => exact discard_tracks (register_tracks req)
  | keepAlive owner ttl => exact discard_tracks (keepAlive_tracks owner ttl)
  | revoke owner =>
    refine bind (only_tracks (only_perform (by simp [plain]))) fun after released _ => ?_
    exact ite (fun _ => trivial) fun _ => trivial
  | ensure v => exact ensure_tracks v
  | touch id lastSeen expires => exact only_tracks (only_perform (by simp [plain]))
  | start nodeID address ttl => exact startNode_tracks nodeID address ttl
  | heartbeat nodeID ttl =>
    refine bind (only_tracks (only_perform (by simp [plain]))) fun after now _ => ?_
    exact only_tracks (only_perform (by simp [plain]))
  | update id name enabled => exact discard_tracks (only_tracks (updateNode_only id name enabled))
  | delete id =>
    refine discard_tracks (only_tracks (Only.bind (findNode_only id) fun node => ?_))
    exact Only.bind (only_perform (by simp [plain])) fun now => decideNode_only _
  | restore id =>
    exact discard_tracks (only_tracks (Only.bind (findNode_only id) fun node => decideNode_only _))

end Programs

section Invariant

variable {store : Store}

theorem Kept.of_lifecycle (h : Kept store) (hs : ∀ id, (store.nodes.get id).isSome →
      (nodes.get id).map (·.lifecycle) = (store.nodes.get id).map (·.lifecycle)) : Kept { store with nodes } := by
  intro id d hd
  have hold := h id d hd
  rw [hs id]
  · exact hold
  · cases hget : store.nodes.get id with
    | none => simp [hget] at hold
    | some row => rfl

theorem kept_create (h : Kept store) (hc : createNode store.nodes v = some nodes) : Kept { store with nodes } := by
  have hf := get_of_createNode hc
  refine h.of_lifecycle fun id hs => ?_
  have hne : v.id ≠ id := by rintro rfl; simp [hf] at hs
  rw [get_createNode hc, if_neg hne]

theorem kept_touch {id : String} (h : Kept store)
    (ht : touchNode store.nodes id lastSeen expires = some nodes) : Kept { store with nodes } := by
  refine h.of_lifecycle fun other _ => ?_
  rw [get_touchNode ht]
  split
  · cases store.nodes.get other <;> rfl
  · rfl

theorem kept_refresh (h : Kept store) (ha : allowed trace (.updateNode .dataPlane v))
    (hg : Undecided store trace (.updateNode .dataPlane v) input)
    (hu : Storage.updateNode store.nodes v = some nodes) : Kept { store with nodes } := by
  obtain ⟨row, hloaded, hid, hl⟩ := ha
  have hs : (store.nodes.get v.id).map (·.lifecycle) = some v.lifecycle := by
    rw [hid, hl]
    exact hg row hloaded
  obtain ⟨⟨old, hold, hnew⟩, hothers⟩ := get_updateNode hu
  refine h.of_lifecycle fun other _ => ?_
  by_cases ho : v.id = other
  · subst ho
    rw [hs, hnew]
    rfl
  · rw [hothers other ho]

theorem kept_decide (h : Kept store) (hu : Storage.updateNode store.nodes v = some nodes) :
    Kept ({ store with nodes }.decide v .administrator) := by
  obtain ⟨⟨old, hold, hnew⟩, ho⟩ := get_updateNode hu
  intro id d hd
  have hl : (if id = v.id then some v.lifecycle else decision store id) = some d := by
    rw [← hd]
    simp only [decision, Store.decide, List.lookup_cons]
    by_cases hid : id = v.id
    · simp [hid]
    · simp [hid, beq_eq_false_iff_ne.mpr hid]
  by_cases hid : id = v.id
  · subst hid
    rw [if_pos rfl] at hl
    rw [← hl]
    exact congrArg (Option.map (·.lifecycle)) hnew
  · rw [if_neg hid] at hl
    have hs := ho id fun heq => hid heq.symm
    exact (congrArg (Option.map (·.lifecycle)) hs).trans (h id d hl)

theorem effect_kept (he : NodeEffect store c next) (hinv : Kept store)
    (ha : allowed trace c) (hg : Undecided store trace c input) : Kept next := by
  cases he with
  | none hn hdecisions =>
    intro id d hd
    rw [decision, hdecisions] at hd
    rw [hn]
    exact hinv id d hd
  | create hc => exact kept_create hinv hc
  | @update v nodes actor hu =>
    cases actor with
    | administrator => exact kept_decide hinv hu
    | dataPlane => exact kept_refresh hinv ha hg hu
  | touch ht => exact kept_touch hinv ht

theorem effect_decisions (he : NodeEffect store c next) : store.decisions ⊆ next.decisions := by
  cases he with
  | none hnodes hd => rw [hd]; exact refl _
  | @update v nodes actor hupdate =>
    cases actor with
    | administrator => exact List.subset_cons_self _ _
    | dataPlane => exact refl _
  | create | touch => exact refl _

theorem exec_recorded (store : Store) (c : Command) (input : Input) :
    recorded ⟨c, (exec store c input).2⟩ (exec store c input).1 := by
  rintro v heq
  obtain ⟨rfl, ha⟩ := Sigma.mk.inj heq
  have hok := eq_of_heq ha
  have hrun := exec_of_ok hok
  rw [hrun, run] at hok ⊢
  cases hu : Storage.updateNode store.nodes v with
  | none => simp [hu] at hok
  | some nodes => exact List.mem_cons_self

theorem step_kept {s next : State} {label : Label} (h : Interleaving.Holds Kept (Program.Aware allowed recorded) s)
    (hg : Interleaving.OnMoves (Program.OnTraces Undecided) s label) (hs : system.step s label = some next) :
    Interleaving.Holds Kept (Program.Aware allowed recorded) next := by
  refine Program.aware_step program_tracks ?_ ?_ ?_ h hg hs
  · intro store trace c input hinv _ ha hg
    exact ⟨effect_kept (exec_effect store c input) hinv ha hg, exec_recorded store c input⟩
  · intro store c input e hf v hv; exact effect_decisions (exec_effect store c input) (hf v hv)
  · intro store e; exact e.elim

end Invariant

def moves (i n : ℕ) : List Label := List.replicate n (.move i ⟨0, none⟩)

theorem nodup_singleton_node (node : ServerNode) : ([node].map (·.id)).Nodup := List.nodup_singleton _

def sampleNodes : NodeTable :=
  ⟨[⟨"n", "n", "n:9443", 1, "\x7b\x7d", true, none, none, none⟩], nodup_singleton_node _⟩

end TunnelMesh.ServerNode
