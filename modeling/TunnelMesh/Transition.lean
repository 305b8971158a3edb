import Mathlib.Data.Option.Basic

theorem TunnelMesh.guard_eq_some {α : Type*} {p : Prop} [Decidable p] {a b : α}
    (h : (if p then some a else none) = some b) : p ∧ a = b := by simpa using h

namespace TunnelMesh.Transition

open List

variable {σ α : Type*}

-- A run takes the labelled steps in order. It ends with `none` at the first
-- label that is not enabled in the state reached so far.
def run (step : σ → α → Option σ) : σ → List α → Option σ
  | s, [] => some s
  | s, label :: rest => (step s label).bind fun next => run step next rest

-- Every step the labels take meets `guard` in the state it is taken from.
def Along (step : σ → α → Option σ) (guard : σ → α → Prop) : σ → List α → Prop
  | _, [] => True
  | s, label :: rest =>
    ∀ next, step s label = some next → guard s label ∧ Along step guard next rest

-- Every state the labels visit, the first one included, is `good`.
def Always (step : σ → α → Option σ) (good : σ → Prop) : σ → List α → Prop
  | s, [] => good s
  | s, label :: rest => good s ∧ ∀ next, step s label = some next → Always step good next rest

instance Along.decidable (step : σ → α → Option σ) (guard : σ → α → Prop)
    [∀ s label, Decidable (guard s label)] :
    (s : σ) → (labels : List α) → Decidable (Along step guard s labels)
  | _, [] => isTrue trivial
  | s, label :: rest =>
    match h : step s label with
    | none => isTrue fun next hnext => by simp [h] at hnext
    | some next =>
      have := Along.decidable step guard next rest
      decidable_of_iff (guard s label ∧ Along step guard next rest)
        ⟨fun hnow other hother => Option.some.inj (h.symm.trans hother) ▸ hnow, fun hall => hall next h⟩

variable {step : σ → α → Option σ} {guard : σ → α → Prop} {inv good : σ → Prop}

@[simp] theorem run_nil (s : σ) : run step s [] = some s := rfl

theorem run_cons_eq_some (s final : σ) (label : α) (rest : List α) : run step s (label :: rest) = some final ↔
      ∃ next, step s label = some next ∧ run step next rest = some final := by
  simp [run, Option.bind_eq_some_iff]

theorem run_append (s : σ) (first second : List α) :
    run step s (first ++ second) = (run step s first).bind fun middle => run step middle second := by
  induction first generalizing s with
  | nil => rfl
  | cons label rest ih =>
    cases hs : step s label with
    | none => simp [run, hs]
    | some next => simp [run, hs, ih]

theorem Always.head (h : Always step good s labels) : good s := by
  cases labels with
  | nil => exact h
  | cons label rest => exact h.1

-- The invariant rule. A property that holds at the start and that every
-- guarded step keeps holds in every state of a run whose steps are guarded.
theorem always_of_invariant (hstep : ∀ s label next, inv s → guard s label → step s label = some next → inv next)
    (s : σ) (labels : List α) (hinv : inv s) (ha : Along step guard s labels) : Always step inv s labels := by
  induction labels generalizing s with
  | nil => exact hinv
  | cons label rest ih =>
    refine ⟨hinv, ?_⟩
    intro next hs
    obtain ⟨hg, hrest⟩ := ha next hs
    exact ih next (hstep s label next hinv hg hs) hrest

theorem Always.run (h : Always step good s labels) (hrun : run step s labels = some final) : good final := by
  induction labels generalizing s with
  | nil =>
    obtain rfl : s = final := by simpa using hrun
    exact h
  | cons label rest ih =>
    obtain ⟨next, hs, hrest⟩ := (run_cons_eq_some s final label rest).mp hrun
    exact ih (h.2 next hs) hrest

theorem Always.mono {better : σ → Prop} (himp : ∀ s, good s → better s)
    (h : Always step good s labels) : Always step better s labels := by
  induction labels generalizing s with
  | nil => exact himp s h
  | cons label rest ih => exact ⟨himp s h.1, fun next hs => ih (h.2 next hs)⟩

theorem run_invariant (hstep : ∀ s label next, inv s → guard s label → step s label = some next → inv next)
    {s final : σ} (hinv : inv s) (ha : Along step guard s labels) (hrun : run step s labels = some final) : inv final :=
  (always_of_invariant hstep s labels hinv ha).run hrun

theorem Along.append (hf : Along step guard s first) (hrun : run step s first = some middle)
    (hs : Along step guard middle second) : Along step guard s (first ++ second) := by
  induction first generalizing s with
  | nil =>
    obtain rfl : s = middle := by simpa using hrun
    exact hs
  | cons label rest ih =>
    intro next hn
    obtain ⟨after, ha, hrest⟩ := (run_cons_eq_some s middle label rest).mp hrun
    obtain rfl : after = next := Option.some.inj (ha.symm.trans hn)
    obtain ⟨hg, halong⟩ := hf after hn
    exact ⟨hg, ih halong hrest⟩

-- Rounds that each add one element to what the state holds, while `fits` lets
-- the elements be held together.
theorem run_rounds {β : Type*} (fits : List β → Prop) (held : List β → σ) {round : β → List α}
    (hf : ∀ xs ys, fits (xs ++ ys) → fits xs)
    (hround : ∀ done x, fits (done ++ [x]) → Along step guard (held done) (round x) ∧
      run step (held done) (round x) = some (held (done ++ [x]))) (xs done : List β) (h : fits (done ++ xs)) :
    Along step guard (held done) (xs.flatMap round) ∧
      run step (held done) (xs.flatMap round) = some (held (done ++ xs)) := by
  induction xs generalizing done with
  | nil => exact ⟨trivial, by rw [append_nil]; rfl⟩
  | cons x rest ih =>
    rw [append_cons] at h ⊢
    obtain ⟨ha, hr⟩ := hround done x (hf _ _ h)
    obtain ⟨hrest, hrun⟩ := ih _ h
    refine ⟨ha.append hr hrest, ?_⟩
    rw [flatMap_cons, run_append, hr]
    exact hrun

theorem along_of_forall (h : ∀ s, ∀ label ∈ labels, guard s label) : Along step guard s labels := by
  induction labels generalizing s with
  | nil => trivial
  | cons label rest ih =>
    exact fun next _ => ⟨h s label mem_cons_self, ih fun s other ho => h s other (mem_cons_of_mem _ ho)⟩

section

variable (hstep : ∀ s label next, inv s → step s label = some next → inv next)

include hstep

theorem always_of_step (s : σ) (labels : List α) (hinv : inv s) : Always step inv s labels := by
  have hg : ∀ s label next, inv s → True → step s label = some next → inv next :=
    fun s label next hi _ hs => hstep s label next hi hs
  exact always_of_invariant hg s labels hinv (along_of_forall fun _ _ _ => trivial)

theorem run_preserves (hinv : inv s) (hrun : run step s labels = some final) : inv final :=
  (always_of_step hstep s labels hinv).run hrun

-- Where each step from a good state ends in a good state exactly when it
-- meets the guard, a run stays good exactly when all its steps are guarded.
theorem always_iff_along (he : ∀ s label next, inv s → good s → step s label = some next →
      (good next ↔ guard s label)) (s : σ) (labels : List α) (hinv : inv s) (hgood : good s) :
    Always step good s labels ↔ Along step guard s labels := by
  induction labels generalizing s with
  | nil => exact ⟨fun _ => trivial, fun _ => hgood⟩
  | cons label rest ih =>
    constructor
    · intro h next hs
      have hn := h.2 next hs
      have hg := (he s label next hinv hgood hs).mp hn.head
      exact ⟨hg, (ih next (hstep s label next hinv hs) hn.head).mp hn⟩
    · intro h
      refine ⟨hgood, ?_⟩
      intro next hs
      obtain ⟨hg, hrest⟩ := h next hs
      have hn := (he s label next hinv hgood hs).mpr hg
      exact (ih next (hstep s label next hinv hs) hn).mpr hrest

end

theorem exists_run_of_any {step : σ → α → Option σ} {good : σ → Prop}
    [DecidablePred good] (h : (run step s labels).any (fun final => decide (good final)) = true) :
    ∃ final, run step s labels = some final ∧ good final := by
  cases hrun : run step s labels with
  | none => simp [hrun] at h
  | some final => exact ⟨final, rfl, by simpa [hrun] using h⟩

theorem Always.exists_run {step : σ → α → Option σ} {good : σ → Prop} (h : Always step good s labels)
    {p : σ → Prop} [DecidablePred p] (hp : (Transition.run step s labels).any (fun final => decide (p final)) = true) :
    ∃ final, Transition.run step s labels = some final ∧ p final ∧ good final := by
  obtain ⟨final, hrun, hfinal⟩ := exists_run_of_any hp
  exact ⟨final, hrun, hfinal, h.run hrun⟩

def outputs {β : Type*} (step : σ → α → Option σ) (out : σ → α → List β) : σ → List α → List β
  | _, [] => []
  | s, label :: rest => (step s label).elim [] fun next => out s label ++ outputs step out next rest

-- If `may` bounds what can still come out, and nothing that can come after `x`
-- fails to stand in `r` to it, then the whole output is in order.
theorem outputs_pairwise {β : Type*} {out : σ → α → List β} {r : β → β → Prop} (fits : σ → List α → Prop)
    (may : σ → List α → β → Prop)
    (hstep : ∀ s label rest next, step s label = some next → fits s (label :: rest) → fits next rest ∧
      (∀ x, x ∈ out s label ∨ may next rest x → may s (label :: rest) x) ∧
      (out s label).Pairwise r ∧ ∀ x ∈ out s label, ∀ y, may next rest y → r x y)
    (s : σ) (labels : List α) (hfits : fits s labels) :
    (outputs step out s labels).Pairwise r ∧ ∀ x ∈ outputs step out s labels, may s labels x := by
  induction labels generalizing s with
  | nil => exact ⟨.nil, nofun⟩
  | cons label rest ih =>
    rw [outputs]
    cases hs : step s label with
    | none => exact ⟨.nil, nofun⟩
    | some next =>
      obtain ⟨hnext, hmay, hnow, ha⟩ := hstep s label rest next hs hfits
      obtain ⟨hrest, hb⟩ := ih next hnext
      refine ⟨pairwise_append.mpr ⟨hnow, hrest, fun x hx y hy => ha x hx y (hb y hy)⟩, fun x hx => ?_⟩
      exact hmay x ((mem_append.mp hx).imp_right (hb x))

end TunnelMesh.Transition
