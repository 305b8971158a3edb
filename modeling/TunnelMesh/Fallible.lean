import Mathlib.Data.Option.Basic

namespace TunnelMesh

variable {ε α β : Type} {r : Except ε α}

theorem map_eq_ok {f : α → β} (h : r.map f = .ok b) : ∃ a, r = .ok a ∧ f a = b := by
  cases r with
  | error e => cases h
  | ok a => exact ⟨a, rfl, Except.ok.inj h⟩

theorem bind_eq_ok {f : α → Except ε β} (h : (r >>= f) = .ok b) : ∃ a, r = .ok a ∧ f a = .ok b := by
  cases r with
  | error e => cases h
  | ok a => exact ⟨a, rfl, h⟩

theorem guard_eq_ok {p : Prop} [Decidable p] : (if p then .error e else r) = .ok a ↔ ¬p ∧ r = .ok a := by
  split
  · next hp => exact ⟨fun h => (nomatch h), fun h => absurd hp h.1⟩
  · next hp => exact ⟨fun h => ⟨hp, h⟩, fun h => h.2⟩

theorem elim_eq_ok {f : α → β}
    (h : o.elim (.error e) (fun a => (.ok (f a) : Except ε β)) = .ok b) : ∃ a, o = some a ∧ f a = b := by
  cases o with
  | none => cases h
  | some a => exact ⟨a, rfl, Except.ok.inj h⟩

theorem toOption_eq_some (h : r.toOption = some a) : r = .ok a := by
  cases r with
  | error e => cases h
  | ok b => exact congrArg Except.ok (Option.some.inj h)

end TunnelMesh
