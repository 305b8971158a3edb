import Mathlib.Order.Lattice

namespace TunnelMesh.Fencing

open List

-- A resource that is handed out with tokens: the token of the present holder,
-- and the tokens issued so far, oldest first.
structure Ledger (ε : Type*) where
  current : Option ε
  issued : List ε

inductive Move (ε : Type*) where
  | keep
  | drop
  | issue (token : ε)

variable {ε : Type*}

def Ledger.move (l : Ledger ε) : Move ε → Ledger ε
  | .keep => l
  | .drop => { l with current := none }
  | .issue token => ⟨some token, l.issued ++ [token]⟩

def Ledger.Held (l : Ledger ε) : Prop := ∀ token, l.current = some token → l.issued.getLast? = some token

def Ledger.Increasing [LT ε] (l : Ledger ε) : Prop := l.issued.Pairwise (· < ·)

variable {l : Ledger ε}

theorem Ledger.Held.move (h : l.Held) (m : Move ε) : (l.move m).Held := by
  cases m with
  | keep => exact h
  | drop => exact fun token ht => absurd ht (by simp [Ledger.move])
  | issue token =>
    intro other ho
    simp only [Ledger.move, Option.some.injEq] at ho
    simp [Ledger.move, ho]

section Order

variable [LinearOrder ε]

namespace Ledger

theorem increasing_issue_iff (token : ε) :
    (l.move (.issue token)).Increasing ↔ l.Increasing ∧ ∀ earlier ∈ l.issued, earlier < token := by
  simp [Increasing, move, pairwise_append]

theorem Increasing.le_last (h : l.Increasing) (hl : l.issued.getLast? = some last) :
    ∀ token ∈ l.issued, token ≤ last := by
  obtain ⟨front, hf⟩ := List.getLast?_eq_some_iff.mp hl
  rw [Increasing, hf, pairwise_append] at h
  intro token ht
  rw [hf, mem_append, mem_singleton] at ht
  rcases ht with ht | rfl
  · exact (h.2.2 token ht last (mem_singleton.mpr rfl)).le
  · exact le_rfl

theorem Increasing.issue (h : l.Increasing) (hh : l.Held)
    (hc : l.current = some old) (hlt : old < token) : (l.move (.issue token)).Increasing := by
  rw [increasing_issue_iff]
  exact ⟨h, fun earlier he => (h.le_last (hh old hc) earlier he).trans_lt hlt⟩

theorem Increasing.current_ne (h : l.Increasing) (hh : l.Held)
    (he : token ∈ l.issued.dropLast) : l.current ≠ some token := by
  intro hc
  obtain ⟨front, hf⟩ := List.getLast?_eq_some_iff.mp (hh token hc)
  rw [hf, dropLast_concat] at he
  rw [Increasing, hf, pairwise_append] at h
  exact lt_irrefl token (h.2.2 token he token (mem_singleton.mpr rfl))

end Ledger

end Order

end TunnelMesh.Fencing
