import Mathlib.Data.Nat.Notation
import Mathlib.Logic.Function.Basic

namespace TunnelMesh.Revisioned

open Option Function

structure Entry (ν : Type) where
  value : ν
  modRevision : ℕ
  lease : Option ℕ

structure Store (κ ν : Type) where
  entries : κ → Option (Entry ν)
  revision : ℕ

variable {κ ν : Type}

def Store.empty : Store κ ν := ⟨fun _ => none, 0⟩

variable (s : Store κ ν)

def Store.modRevision (key : κ) : Option ℕ := (s.entries key).map (·.modRevision)

def putAt [DecidableEq κ] (revision : ℕ) (entries : κ → Option (Entry ν))
    (op : κ × ν × Option ℕ) : κ → Option (Entry ν) :=
  update entries op.1 (some ⟨op.2.1, revision, op.2.2⟩)

def Store.puts [DecidableEq κ] (s : Store κ ν) (ops : List (κ × ν × Option ℕ)) : Store κ ν where
  entries := ops.foldl (putAt (s.revision + 1)) s.entries
  revision := s.revision + 1

def Store.delete [DecidableEq κ] (s : Store κ ν) (key : κ) : Store κ ν where
  entries := update s.entries key none
  revision := s.revision + 1

def Store.endLease (lease : ℕ) : Store κ ν where
  entries := fun key => (s.entries key).filter fun entry => entry.lease ≠ some lease
  revision := s.revision + 1

-- A client has read this revision and this value of the key: as long as the key
-- has the revision, it has the value.
def Store.Saw (key : κ) (seen : Option ℕ) (value : Option ν) : Prop :=
  match seen with
  | none => value = none
  | some revision => revision ≤ s.revision ∧ ∀ entry, s.entries key = some entry →
      entry.modRevision = revision → value = some entry.value

def Store.Numbered : Prop :=
  ∀ key entry, s.entries key = some entry → entry.modRevision ≤ s.revision

-- What a change can do to a key: remove it, leave it, or write it at a revision
-- that no client has seen.
structure Store.Follows (next : Store κ ν) : Prop where
  revision_le : s.revision ≤ next.revision
  entry_old_or_new : ∀ key entry, next.entries key = some entry →
    s.entries key = some entry ∨ s.revision < entry.modRevision ∧ entry.modRevision ≤ next.revision

variable {s : Store κ ν}

namespace Store

theorem numbered_empty : (empty : Store κ ν).Numbered := by
  intro key entry h
  cases h

theorem Follows.numbered (h : s.Follows next) (hs : s.Numbered) : next.Numbered := by
  intro key entry he
  rcases h.entry_old_or_new key entry he with hold | hnew
  · exact Nat.le_trans (hs key entry hold) h.revision_le
  · exact hnew.2

theorem Saw.follows (hsaw : s.Saw key seen value) (h : s.Follows next) : next.Saw key seen value := by
  cases seen with
  | none => exact hsaw
  | some revision =>
    obtain ⟨hle, hv⟩ := hsaw
    refine ⟨Nat.le_trans hle h.revision_le, ?_⟩
    intro entry he hr
    rcases h.entry_old_or_new key entry he with hold | hnew
    · exact hv entry hold hr
    · omega

theorem saw_self (hs : s.Numbered) (key : κ) : s.Saw key (s.modRevision key) ((s.entries key).map (·.value)) := by
  cases h : s.entries key with
  | none => simp [modRevision, h, Saw]
  | some entry =>
    simp only [modRevision, h, map_some, Saw]
    refine ⟨hs key entry h, ?_⟩
    intro other ho _
    rw [some.inj ho]

theorem Saw.value_eq (hsaw : s.Saw key seen value)
    (hc : s.modRevision key = seen) : (s.entries key).map (·.value) = value := by
  subst hc
  cases h : s.entries key with
  | none => simp only [Saw, modRevision, h, map_none] at hsaw; rw [map_none, hsaw]
  | some entry =>
    simp only [Saw, modRevision, h, map_some] at hsaw
    rw [map_some, hsaw.2 entry rfl rfl]

theorem follows_delete [DecidableEq κ] (key : κ) : s.Follows (s.delete key) where
  revision_le := Nat.le_succ _
  entry_old_or_new := by
    intro other entry h
    by_cases hkey : other = key
    · simp [delete, hkey] at h
    · exact Or.inl (by simpa [delete, hkey] using h)

theorem follows_endLease (lease : ℕ) : s.Follows (s.endLease lease) where
  revision_le := Nat.le_succ _
  entry_old_or_new := by
    intro key entry h
    simp only [endLease, filter_eq_some_iff] at h
    exact Or.inl h.1

end Store

theorem foldl_putAt [DecidableEq κ] (revision : ℕ) (ops : List (κ × ν × Option ℕ)) (entries : κ → Option (Entry ν))
    (h : ops.foldl (putAt revision) entries key = some entry) :
    entries key = some entry ∨ entry.modRevision = revision := by
  induction ops generalizing entries with
  | nil => exact Or.inl h
  | cons op rest ih =>
    rcases ih _ h with hold | hnew
    · by_cases hkey : key = op.1
      · subst hkey
        simp only [putAt, update_self, some.injEq] at hold
        exact Or.inr (by rw [← hold])
      · exact Or.inl (by simpa [putAt, hkey] using hold)
    · exact Or.inr hnew

theorem Store.follows_puts [DecidableEq κ] (ops : List (κ × ν × Option ℕ)) : s.Follows (s.puts ops) where
  revision_le := Nat.le_succ _
  entry_old_or_new := by
    intro key entry h
    rcases foldl_putAt (s.revision + 1) ops s.entries h with hold | hnew
    · exact Or.inl hold
    · exact Or.inr ⟨by omega, by simp only [Store.puts]; omega⟩

end TunnelMesh.Revisioned
