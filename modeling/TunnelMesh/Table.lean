import Mathlib.Data.List.Nodup

namespace TunnelMesh

open List

structure Table {ρ κ : Type} (key : ρ → κ) where
  rows : List ρ
  nodup : (rows.map key).Nodup

namespace Table

variable {ρ κ : Type} {key : ρ → κ}

def empty : Table key := ⟨[], nodup_nil⟩

def get [DecidableEq κ] (t : Table key) (k : κ) : Option ρ :=
  t.rows.find? fun row => key row = k

-- `INSERT`, refused with `none` where the key is taken.
def insert [DecidableEq κ] (t : Table key) (row : ρ) : Option (Table key) :=
  if h : key row ∈ t.rows.map key then none
  else some
    { rows := t.rows ++ [row]
      nodup := by
        rw [map_append, map_singleton, nodup_append_comm]
        exact nodup_cons.mpr ⟨h, t.nodup⟩ }

-- `UPDATE` of the rows that meet `cond`, by a change that leaves the key alone.
def update (t : Table key) (cond : ρ → Bool) (change : ρ → ρ)
    (hkey : ∀ row, key (change row) = key row) : Table key where
  rows := t.rows.map fun row => if cond row then change row else row
  nodup := by
    have hkeys : (fun row => key (if cond row then change row else row)) = key := by
      funext row
      split <;> simp [hkey]
    simpa [map_map, Function.comp_def, hkeys] using t.nodup

def delete (t : Table key) (cond : ρ → Bool) : Table key where
  rows := t.rows.filter fun row => !cond row
  nodup := t.nodup.sublist (filter_sublist.map key)

def Puts [DecidableEq κ] (t : Table key) (row : ρ) (next : Table key) : Prop :=
  ∀ k, next.get k = if key row = k then some row else t.get k

def affected (t : Table key) (cond : ρ → Bool) : ℕ := t.rows.countP cond

end Table

end TunnelMesh

namespace TunnelMesh.Table

open List

variable {ρ κ : Type} {key : ρ → κ} [DecidableEq κ] (t : Table key) {next : Table key}

theorem get_eq_some_iff (k : κ) (row : ρ) : t.get k = some row ↔ row ∈ t.rows ∧ key row = k := by
  constructor
  · intro h; exact ⟨mem_of_find?_eq_some h, by simpa using find?_some h⟩
  · rintro ⟨hmem, rfl⟩
    obtain ⟨found, hf⟩ := Option.isSome_iff_exists.mp
      (find?_isSome (p := fun r => decide (key r = key row)).mpr ⟨row, hmem, by simp⟩)
    have hkey : key found = key row := by simpa using find?_some hf
    have heq : found = row :=
      inj_on_of_nodup_map t.nodup (mem_of_find?_eq_some hf) hmem hkey
    rw [get, hf, heq]

theorem key_of_get (h : t.get k = some row) : key row = k :=
  ((t.get_eq_some_iff k row).mp h).2

theorem get_eq_none_iff (k : κ) : t.get k = none ↔ k ∉ t.rows.map key := by simp [get]

@[simp] theorem get_empty (k : κ) : (empty : Table key).get k = none := rfl

theorem insert_eq_none_iff (row : ρ) : t.insert row = none ↔ (t.get (key row)).isSome := by
  rw [← Option.ne_none_iff_isSome, ne_eq, get_eq_none_iff, insert]
  split <;> simp_all

theorem get_of_insert (h : t.insert row = some next) : t.get (key row) = none := by
  by_contra hne
  rw [(t.insert_eq_none_iff row).mpr (Option.ne_none_iff_isSome.mp hne)] at h
  cases h

theorem get_insert (h : t.insert row = some next) (k : κ) : next.get k = if key row = k then some row else t.get k := by
  simp only [insert] at h
  split_ifs at h with hf
  cases h
  simp only [get, find?_append, find?_singleton, decide_eq_true_eq]
  split_ifs with hk
  · subst hk
    have hn : t.get (key row) = none := (t.get_eq_none_iff _).mpr hf
    rw [get] at hn
    simp [hn]
  · simp

@[simp] theorem get_update (cond : ρ → Bool) (change : ρ → ρ) (hkey : ∀ row, key (change row) = key row) (k : κ) :
    (t.update cond change hkey).get k = (t.get k).map fun row => if cond row then change row else row := by
  have hcomp : ((fun row => decide (key row = k)) ∘ fun row => if cond row then change row else row) =
      fun row => decide (key row = k) := by
    funext row
    by_cases h : cond row <;> simp [h, hkey]
  simp only [get, update, find?_map, hcomp]

@[simp] theorem get_delete (cond : ρ → Bool) (k : κ) :
    (t.delete cond).get k = (t.get k).filter fun row => !cond row := by
  have hfind : ∀ row, (t.delete cond).get k = some row ↔ t.get k = some row ∧ cond row = false := by
    intro row
    simp only [get_eq_some_iff, delete, mem_filter, Bool.not_eq_true']
    tauto
  apply Option.ext
  intro row
  rw [hfind, Option.filter_eq_some_iff, Bool.not_eq_true']

omit [DecidableEq κ] in
theorem affected_pos_iff (cond : ρ → Bool) : 0 < t.affected cond ↔ ∃ row ∈ t.rows, cond row :=
  countP_pos_iff

theorem affected_insert (h : t.insert row = some next) (p : ρ → Bool) :
    next.affected p = t.affected p + if p row then 1 else 0 := by
  unfold insert at h
  split_ifs at h
  cases h; simp [affected, countP_append, countP_singleton]

omit [DecidableEq κ] in
theorem affected_update (p cond : ρ → Bool) (change : ρ → ρ) (hkey : ∀ row, key (change row) = key row) :
    (t.update cond change hkey).affected p + t.affected (fun row => cond row && p row) =
      t.affected p + t.affected fun row => cond row && p (change row) := by
  simp only [affected, update]
  induction t.rows with
  | nil => rfl
  | cons row rest ih =>
    simp only [map_cons, countP_cons]
    cases cond row <;> simp only [Bool.true_and, Bool.false_and, if_true, Bool.false_eq_true, if_false] <;> omega

omit [DecidableEq κ] in
theorem affected_update_le (p cond : ρ → Bool) (change : ρ → ρ) (hkey : ∀ row, key (change row) = key row) :
    (t.update cond change hkey).affected p ≤ t.affected p + t.affected fun row => cond row && p (change row) :=
  Nat.le_of_add_right_le (Nat.le_of_eq (t.affected_update p cond change hkey))

section KeyCondition

variable {cond : ρ → Bool} {k : κ} (hcond : ∀ row, cond row → key row = k)

include hcond

omit [DecidableEq κ] in
theorem affected_le_one : t.affected cond ≤ 1 := by
  have hn : ((t.rows.filter cond).map key).Nodup := t.nodup.sublist (filter_sublist.map key)
  have hc : (t.rows.filter cond).map key = replicate (t.affected cond) k := by
    rw [affected, countP_eq_length_filter, eq_replicate_iff]
    refine ⟨length_map _, ?_⟩
    intro found hf
    obtain ⟨row, hrow, rfl⟩ := mem_map.mp hf
    exact hcond row (mem_filter.mp hrow).2
  rw [hc] at hn
  exact nodup_replicate.mp hn

theorem affected_eq_one_iff : t.affected cond = 1 ↔ ∃ row, t.get k = some row ∧ cond row := by
  have hle := t.affected_le_one hcond
  have hpos := t.affected_pos_iff cond
  have hone : t.affected cond = 1 ↔ 0 < t.affected cond := by omega
  rw [hone, hpos]
  constructor
  · rintro ⟨row, hmem, hrow⟩
    exact ⟨row, (t.get_eq_some_iff k row).mpr ⟨hmem, hcond row hrow⟩, hrow⟩
  · rintro ⟨row, hget, hrow⟩; exact ⟨row, ((t.get_eq_some_iff k row).mp hget).1, hrow⟩

theorem affected_eq_zero_iff : t.affected cond = 0 ↔ ∀ row, t.get k = some row → cond row = false := by
  have hle := t.affected_le_one hcond
  have hone := t.affected_eq_one_iff hcond
  have hzero : t.affected cond = 0 ↔ ¬ t.affected cond = 1 := by omega
  rw [hzero, hone]
  simp

theorem get_update_of_ne (hkey : ∀ row, key (change row) = key row)
    (hne : k ≠ other) : (t.update cond change hkey).get other = t.get other := by
  rw [get_update]
  cases hget : t.get other with
  | none => rfl
  | some row =>
    have hf : ¬ cond row := fun h => hne ((hcond row h).symm.trans (t.key_of_get hget))
    simp [hf]

theorem puts_update (hkey : ∀ row, key (change row) = key row) (hget : t.get k = some row) (hrow : cond row) :
    t.Puts (change row) (t.update cond change hkey) := by
  have hk : key row = k := t.key_of_get hget
  intro other
  rw [hkey, hk]
  split_ifs with ho
  · subst ho; simp [hget, hrow]
  · exact t.get_update_of_ne hcond hkey ho

end KeyCondition

theorem puts_insert (h : t.insert row = some next) : t.Puts row next :=
  fun k => t.get_insert h k

theorem Puts.trans {t mid next : Table key} {row row' : ρ} (h : t.Puts row mid) (h' : mid.Puts row' next)
    (hkey : key row' = key row) : t.Puts row' next := by
  intro k
  rw [h' k, h k, hkey]
  split <;> rfl

theorem Puts.mem_rows_iff {t : Table key} {row : ρ} {next : Table key} (h : t.Puts row next) (other : ρ) :
    other ∈ next.rows ↔ other = row ∨ (other ∈ t.rows ∧ key row ≠ key other) := by
  have hn := next.get_eq_some_iff (key other) other
  have hold := t.get_eq_some_iff (key other) other
  simp only [and_true] at hn hold
  rw [← hn, ← hold, h (key other)]
  split_ifs with hkey
  · simp [hkey, eq_comm]
  · have hne : other ≠ row := fun heq => hkey (by rw [heq]); simp [hkey, hne]

end TunnelMesh.Table
