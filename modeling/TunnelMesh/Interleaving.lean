import Mathlib.Algebra.BigOperators.Group.List.Basic
import Mathlib.Algebra.GroupWithZero.Nat
import TunnelMesh.Transition

namespace TunnelMesh.Interleaving

variable {σ π ρ ι ε : Type}

-- Processes that share a store. A process starts from a request. A step moves
-- one process by an input from outside, or an event changes the store alone.
structure System (σ π ρ ι ε : Type) where
  start : ρ → π
  move : σ → π → ι → Option (σ × π)
  event : σ → ε → Option σ

structure State (σ π : Type) where
  store : σ
  procs : List π

inductive Label (ρ ι ε : Type) where
  | start (request : ρ)
  | move (i : ℕ) (input : ι)
  | event (e : ε)

def System.step (sys : System σ π ρ ι ε) (s : State σ π) : Label ρ ι ε → Option (State σ π)
  | .start request => some ⟨s.store, s.procs ++ [sys.start request]⟩
  | .move i input => do
      let p ← s.procs[i]?
      let moved ← sys.move s.store p input
      some ⟨moved.1, s.procs.set i moved.2⟩
  | .event e => do
      let store ← sys.event s.store e
      some ⟨store, s.procs⟩

def OnMoves (guard : σ → π → ι → Prop) (s : State σ π) : Label ρ ι ε → Prop
  | .move i input => ∀ p ∈ s.procs[i]?, guard s.store p input
  | _ => True

instance OnMoves.decidable (guard : σ → π → ι → Prop)
    [∀ store p input, Decidable (guard store p input)] (s : State σ π) :
    (label : Label ρ ι ε) → Decidable (OnMoves guard s label)
  | .move i input => inferInstanceAs (Decidable (∀ p ∈ s.procs[i]?, guard s.store p input))
  | .start _ | .event _ => isTrue trivial

def State.weight (w : π → ℕ) (s : State σ π) : ℕ := (s.procs.map w).sum

open Option List

variable {σ π ρ ι ε : Type} {sys : System σ π ρ ι ε} {s next : State σ π} {procs : List π} {guard : σ → π → ι → Prop}

theorem step_start_eq_some (h : sys.step s (.start request) = some next) :
    next = ⟨s.store, s.procs ++ [sys.start request]⟩ :=
  (some.inj h).symm

theorem step_move_eq_some (h : sys.step s (.move i input) = some next) :
    ∃ p store moved, s.procs[i]? = some p ∧ sys.move s.store p input = some (store, moved) ∧
      next = ⟨store, s.procs.set i moved⟩ := by
  simp only [System.step, bind_eq_bind, bind_eq_some_iff] at h
  obtain ⟨p, hp, ⟨store, moved⟩, hm, hn⟩ := h
  exact ⟨p, store, moved, hp, hm, (some.inj hn).symm⟩

theorem step_event_eq_some (h : sys.step s (.event e) = some next) :
    ∃ store, sys.event s.store e = some store ∧ next = ⟨store, s.procs⟩ := by
  simp only [System.step, bind_eq_bind, bind_eq_some_iff] at h
  obtain ⟨store, he, hn⟩ := h
  exact ⟨store, he, (some.inj hn).symm⟩

theorem onMoves_of_forall (h : ∀ store p input, guard store p input)
    (s : State σ π) (label : Label ρ ι ε) : OnMoves guard s label := by
  cases label with
  | start | event => trivial
  | move i input => exact fun p _ => h s.store p input

theorem forall_mem_set {p : π → Prop} (hp : ∀ q ∈ procs, p q) (hm : p moved) : ∀ q ∈ procs.set i moved, p q := by
  intro q hq
  rcases mem_or_eq_of_mem_set hq with hold | rfl
  · exact hp q hold
  · exact hm

theorem exists_mem_set {p : π → Prop} (hq : procs[i]? = some q) (moved : π)
    (h : ∃ r ∈ procs, p r) : p q ∨ ∃ r ∈ procs.set i moved, p r := by
  obtain ⟨r, hr, hp⟩ := h
  obtain ⟨j, hj⟩ := List.getElem?_of_mem hr
  by_cases hij : i = j
  · subst hij
    obtain rfl : q = r := some.inj (hq.symm.trans hj)
    exact .inl hp
  · refine .inr ⟨r, ?_, hp⟩
    apply mem_of_getElem?
    rw [List.getElem?_set_ne hij]
    exact hj

theorem mem_set_of_getElem? (hq : procs[i]? = some q) (moved : π) : moved ∈ procs.set i moved := by
  obtain ⟨hlt, -⟩ := List.getElem?_eq_some_iff.mp hq
  exact mem_set hlt moved

theorem forall_mem_append_singleton {p : π → Prop}
    (hp : ∀ q ∈ procs, p q) (ha : p added) : ∀ q ∈ procs ++ [added], p q := by
  intro q hq
  rcases mem_append.mp hq with hold | hnew
  · exact hp q hold
  · rw [mem_singleton.mp hnew]; exact ha

-- What holds of the store and of each process. The second part may speak of the
-- store too, so a move has to keep it for the processes that stand by.
structure Holds (inv : σ → Prop) (own : σ → π → Prop) (s : State σ π) : Prop where
  store : inv s.store
  procs : ∀ p ∈ s.procs, own s.store p

section Rule

variable {inv : σ → Prop} {own : σ → π → Prop}

theorem Holds.step (hstart : ∀ store request, inv store → own store (sys.start request))
    (hmove : ∀ store p input store' p', inv store → own store p → guard store p input →
      sys.move store p input = some (store', p') → inv store' ∧ own store' p' ∧ ∀ q, own store q → own store' q)
    (hevent : ∀ store e store', inv store → sys.event store e = some store' →
      inv store' ∧ ∀ q, own store q → own store' q) (h : Holds inv own s) (hg : OnMoves guard s label)
    (hs : sys.step s label = some next) : Holds inv own next := by
  cases label with
  | start request =>
    rw [step_start_eq_some hs]
    exact ⟨h.store, forall_mem_append_singleton h.procs (hstart s.store request h.store)⟩
  | move i input =>
    obtain ⟨p, store, moved, hp, hm, rfl⟩ := step_move_eq_some hs
    have hown : own s.store p := h.procs p (mem_of_getElem? hp)
    obtain ⟨hinv, hnew, ho⟩ := hmove s.store p input store moved h.store hown (hg p hp) hm
    exact ⟨hinv, forall_mem_set (fun q hq => ho q (h.procs q hq)) hnew⟩
  | event e =>
    obtain ⟨store, he, rfl⟩ := step_event_eq_some hs
    obtain ⟨hinv, ho⟩ := hevent s.store e store h.store he
    exact ⟨hinv, fun q hq => ho q (h.procs q hq)⟩

end Rule

section Weight

variable (w : π → ℕ)

theorem sum_map_eraseIdx (hp : procs[i]? = some p) : (procs.map w).sum = ((procs.eraseIdx i).map w).sum + w p := by
  induction procs generalizing i with
  | nil => simp at hp
  | cons head tail ih =>
    cases i with
    | zero =>
      obtain rfl : head = p := by simpa using hp
      simp only [eraseIdx_cons_zero, map_cons, sum_cons]
      omega
    | succ i =>
      have htail := ih (i := i) (by simpa using hp)
      simp only [eraseIdx_cons_succ, map_cons, sum_cons]
      omega

theorem sum_map_set (hp : procs[i]? = some p) :
    ((procs.set i moved).map w).sum + w p = (procs.map w).sum + w moved := by
  obtain ⟨hlt, -⟩ := List.getElem?_eq_some_iff.mp hp
  have hm : (procs.set i moved)[i]? = some moved := List.getElem?_set_self hlt
  rw [sum_map_eraseIdx w hm, eraseIdx_set_eq, sum_map_eraseIdx w hp]
  omega

theorem weight_move (hp : s.procs[i]? = some p) (store : σ) (moved : π) :
    State.weight w ⟨store, s.procs.set i moved⟩ + w p = s.weight w + w moved :=
  sum_map_set w hp

def State.others (s : State σ π) (i : ℕ) : ℕ := ((s.procs.eraseIdx i).map w).sum

theorem weight_eq_others (hp : s.procs[i]? = some p) : s.weight w = s.others w i + w p :=
  sum_map_eraseIdx w hp

theorem weight_set (hp : s.procs[i]? = some p) (store : σ) (moved : π) :
    State.weight w ⟨store, s.procs.set i moved⟩ = s.others w i + w moved := by
  have hexchange := weight_move w hp store moved
  have hwhole := weight_eq_others w hp
  omega

theorem weight_start (p : π) : State.weight w ⟨s.store, s.procs ++ [p]⟩ = s.weight w + w p := by
  simp [State.weight]

end Weight

end TunnelMesh.Interleaving
