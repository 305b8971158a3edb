import Mathlib.Data.List.Basic

namespace TunnelMesh.Separated

-- Texts joined by a separator that the first parts do not contain are equal
-- part by part.
theorem append_cons_inj {α : Type*} {c : α} {u v s t : List α} (hu : c ∉ u) (hv : c ∉ v) :
    u ++ c :: s = v ++ c :: t ↔ u = v ∧ s = t := by
  induction u generalizing v with
  | nil =>
    cases v with
    | nil => simp
    | cons b v => have hb : c ≠ b := fun h => hv (h ▸ List.mem_cons_self); simp [hb]
  | cons a u ih =>
    have ha : a ≠ c := fun h => hu (h ▸ List.mem_cons_self)
    cases v with
    | nil => simp [ha]
    | cons b v =>
      simp only [List.cons_append, List.cons.injEq]
      rw [ih (fun h => hu (List.mem_cons_of_mem _ h)) (fun h => hv (List.mem_cons_of_mem _ h)), and_assoc]

end TunnelMesh.Separated
