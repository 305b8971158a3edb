import TunnelMesh.Table
import TunnelMesh.Text

namespace TunnelMesh.Storage

structure ServerNode where
  id : String
  name : String
  address : String
  epoch : ℤ
  metadata : String
  enabled : Bool
  deletedAt : Option ℕ
  lastSeenAt : Option ℕ
  expiresAt : Option ℕ

abbrev NodeTable := Table ServerNode.id

namespace ServerNode

def lifecycle (node : ServerNode) : Bool × Option ℕ := (node.enabled, node.deletedAt)

def expired (node : ServerNode) (now : ℕ) : Bool := node.expiresAt.any fun expires => expires ≤ now

def live (node : ServerNode) (now : ℕ) : Bool :=
  node.enabled && node.deletedAt = none && !node.expired now

def named (v : ServerNode) : ServerNode :=
  { v with name := if Text.trimSpace v.name = "" then v.id else v.name }

-- The row that `Create` inserts. Its callers give the node's id.
def created (v : ServerNode) : ServerNode :=
  { v.named with
    enabled := true
    metadata := if v.metadata = "" then "\x7b\x7d" else v.metadata }

-- `UPDATE` sets every column but the id.
def overwrite (v row : ServerNode) : ServerNode := { v.named with id := row.id }

theorem id_overwrite (v row : ServerNode) : (v.overwrite row).id = row.id := by rw [overwrite]

theorem epoch_overwrite (v row : ServerNode) : (v.overwrite row).epoch = v.epoch := by
  rw [overwrite, named]

def touched (lastSeen expires : ℕ) (row : ServerNode) : ServerNode :=
  { row with lastSeenAt := some lastSeen, expiresAt := some expires }

theorem id_touched (lastSeen expires : ℕ) (row : ServerNode) : (row.touched lastSeen expires).id = row.id := rfl

end ServerNode

def createNode (nodes : NodeTable) (v : ServerNode) : Option NodeTable := nodes.insert v.created

def ServerNode.hasID (id : String) (row : ServerNode) : Bool := row.id = id

-- The statements below return `none` for `sql.ErrNoRows`.
def updateNode (nodes : NodeTable) (v : ServerNode) : Option NodeTable :=
  if nodes.affected (ServerNode.hasID v.id) = 0 then none
  else some (nodes.update (ServerNode.hasID v.id) v.overwrite v.id_overwrite)

def touchNode (nodes : NodeTable) (id : String) (lastSeen expires : ℕ) : Option NodeTable :=
  if nodes.affected (ServerNode.hasID id) = 0 then none
  else some (nodes.update (ServerNode.hasID id) (ServerNode.touched lastSeen expires)
    (ServerNode.id_touched lastSeen expires))

theorem key_of_hasID (id : String) (row : ServerNode) (h : row.hasID id) : row.id = id :=
  of_decide_eq_true h

theorem get_createNode (h : createNode nodes v = some next)
    (id : String) : next.get id = if v.id = id then some v.created else nodes.get id := by
  have hget := nodes.get_insert h id
  exact hget

theorem get_of_createNode (h : createNode nodes v = some next) : nodes.get v.id = none := by
  have hf := nodes.get_of_insert h
  exact hf

theorem get_update_hasID (nodes : NodeTable) (id : String) (hid : ∀ row, (change row).id = row.id) (other : String) :
    (nodes.update (ServerNode.hasID id) change hid).get other =
      if id = other then (nodes.get other).map change else nodes.get other := by
  by_cases ho : id = other
  · subst ho
    rw [if_pos rfl, Table.get_update]
    apply Option.map_congr
    intro row hrow
    have hkey : row.id = id := nodes.key_of_get hrow
    simp only [ServerNode.hasID, hkey, decide_true, if_true]
  · rw [if_neg ho]; exact nodes.get_update_of_ne (key_of_hasID id) hid ho

theorem get_updateNode (h : updateNode nodes v = some next) :
    (∃ row, nodes.get v.id = some row ∧ next.get v.id = some (v.overwrite row)) ∧
      ∀ other, v.id ≠ other → next.get other = nodes.get other := by
  unfold updateNode at h
  split_ifs at h with haffected
  cases h
  have hget := get_update_hasID nodes v.id v.id_overwrite
  have hone : nodes.affected (ServerNode.hasID v.id) = 1 := by
    have hle := nodes.affected_le_one (key_of_hasID v.id)
    omega
  obtain ⟨row, hrow, -⟩ := (nodes.affected_eq_one_iff (key_of_hasID v.id)).mp hone
  refine ⟨⟨row, hrow, ?_⟩, fun other ho => ?_⟩
  · rw [hget, if_pos rfl, hrow]; rfl
  · rw [hget, if_neg ho]

theorem get_touchNode {id : String} (h : touchNode nodes id lastSeen expires = some next) (other : String) :
    next.get other = if id = other then (nodes.get other).map (ServerNode.touched lastSeen expires)
      else nodes.get other := by
  unfold touchNode at h
  split_ifs at h
  cases h
  exact get_update_hasID nodes id (ServerNode.id_touched lastSeen expires) other

end TunnelMesh.Storage
