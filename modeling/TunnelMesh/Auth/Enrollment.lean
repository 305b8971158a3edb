import TunnelMesh.Auth.Commands.Theorems

namespace TunnelMesh.Auth

open Store

def UserMFA.core (row : UserMFA) : Sealed × MFAStatus × ℤ := (row.secret, row.status, row.lastUsedStep)

def Store.enrollment (store : Store) (userID : String) : Option (Sealed × MFAStatus × ℤ) :=
  (store.mfa.get userID).map UserMFA.core

def Command.enrollee : Command → Option String
  | .enroll userID _ _ _ | .enable userID _ | .markUsed _ userID _ | .replaceCodes userID _ _
  | .removeFactor userID _ => some userID
  | _ => none

def Command.usedStep : Command → Option ℤ
  | .enable _ step | .markUsed _ _ step | .replaceCodes _ step _ => some step
  | _ => none

def Command.confirms : Command → Bool
  | .enable _ _ => true
  | _ => false

def Store.Sets (store : Store) (userID : String) (row : Option (Sealed × MFAStatus × ℤ)) (next : Store) : Prop :=
  ∀ u, next.enrollment u = if u = userID then row else store.enrollment u

inductive EnrollmentEffect (store next : Store) : Command → Prop where
  | none (hother : c.enrollee = none) (hsame : next.enrollment = store.enrollment) :
      EnrollmentEffect store next c
  | enroll
      (hsets : store.Sets userID (some (secret, .pending, -1)) next) :
      EnrollmentEffect store next (.enroll userID currentPassword secret hashes)
  | used
      (huser : c.enrollee = some userID) (hstep : c.usedStep = some step)
      (hbefore : store.enrollment userID = some (secret, status, last)) (hlt : last < step)
      (hsets : store.Sets userID (some (secret, if c.confirms then .enabled else status, step)) next) :
      EnrollmentEffect store next c
  | remove (hsets : store.Sets userID Option.none next) :
      EnrollmentEffect store next (.removeFactor userID action)

variable {store next : Store}

theorem Store.enrollment_of_get (store : Store) (h : store.mfa.get userID = some row) :
    store.enrollment userID = some row.core := by rw [enrollment, h, Option.map_some]

theorem Store.Sets.of_puts (h : store.mfa.Puts row next.mfa)
    (hid : row.userID = userID) (hv : row.core = value) : store.Sets userID (some value) next := by
  intro u
  rw [enrollment, h u, hid, enrollment, ← hv]
  simp only [eq_comm (a := u)]
  split <;> rfl

theorem Store.puts_markUsed (h : store.markUsed userID step now = .ok next) :
    ∃ row, store.mfa.get userID = some row ∧ row.userID = userID ∧ row.lastUsedStep < step ∧
      store.mfa.Puts (use step now row) next.mfa := by
  obtain ⟨rfl, row, hget, hlt⟩ := markUsed_eq_ok h
  have hid : row.userID = userID := store.mfa.key_of_get hget
  refine ⟨row, hget, hid, hlt, store.mfa.puts_update (k := userID) ?_ (use_userID step now) hget ?_⟩
  · simp +contextual [unusedStep]
  · simp [unusedStep, hid, hlt]

theorem Store.puts_upsertMFA {mfa : Table UserMFA.userID} (h : store.upsertMFA row = .ok mfa) :
    store.mfa.Puts row mfa ∨ ∃ old, old.userID = row.userID ∧ store.mfa.Puts (reenroll row old) mfa := by
  unfold upsertMFA at h
  split_ifs at h
  split at h
  · next inserted hi =>
    cases h
    exact .inl (store.mfa.puts_insert hi)
  · next ht =>
    cases h
    obtain ⟨old, hold⟩ := Option.isSome_iff_exists.mp ((store.mfa.insert_eq_none_iff row).mp ht)
    have hid : old.userID = row.userID := store.mfa.key_of_get hold
    exact .inr ⟨old, hid, store.mfa.puts_update (by simp) (reenroll_userID row) hold (by simpa using hid)⟩

theorem Store.puts_enable (h : store.enable userID step now = .ok next) :
    ∃ row, store.mfa.get userID = some row ∧ row.userID = userID ∧ row.lastUsedStep < step ∧
      store.mfa.Puts (confirm now (use step now row)) next.mfa := by
  obtain ⟨used, hu, h⟩ := bind_eq_ok h
  obtain ⟨confirmed, hc, h⟩ := bind_eq_ok h
  cases h
  obtain rfl := setEnabled_eq_ok hc
  obtain ⟨row, hget, hid, hlt, hp⟩ := puts_markUsed hu
  have hnow := (hp userID).trans (if_pos hid)
  exact ⟨row, hget, hid, hlt, hp.trans (used.mfa.puts_update (by simp) (confirm_userID now) hnow
    (decide_eq_true hid)) rfl⟩

theorem Effect.enrollment (h : Effect env store c answer next) : EnrollmentEffect store next c := by
  cases h with
  | enroll hallowed hmfa =>
    rcases puts_upsertMFA hmfa with hp | ⟨old, hid, hp⟩
    · exact .enroll (.of_puts hp rfl rfl)
    · exact .enroll (.of_puts hp hid rfl)
  | enable he =>
    obtain ⟨row, hget, hid, hlt, hp⟩ := puts_enable he
    exact .used rfl rfl (store.enrollment_of_get hget) hlt (.of_puts hp hid rfl)
  | markUsed hm =>
    obtain ⟨row, hget, hid, hlt, hp⟩ := puts_markUsed hm
    rw [noteAccepted_eq]
    exact .used rfl rfl (store.enrollment_of_get hget) hlt (.of_puts hp hid rfl)
  | replaceCodes hm =>
    obtain ⟨row, hget, hid, hlt, hp⟩ := puts_markUsed hm
    exact .used rfl rfl (store.enrollment_of_get hget) hlt (.of_puts hp hid rfl)
  | @removeFactor now userID action =>
    refine .remove fun u => ?_
    simp only [Store.enrollment, Store.removeFactor, revokeAllForUser, note, Table.get_delete]
    cases hget : store.mfa.get u with
    | none => simp
    | some row => by_cases hu : u = userID <;> simp [Option.filter, store.mfa.key_of_get hget, hu]
  | codeAccepted =>
    refine .none rfl (funext fun u => ?_)
    rw [noteAccepted_eq, Store.enrollment, Table.get_update, Option.map_map]
    refine Option.map_congr fun row _ => ?_
    simp only [Function.comp_apply]
    split <;> rfl
  | compareTOTP | codeRefused => exact .none rfl (by rw [noteCompared_eq]; rfl)
  | createChallenge => exact .none rfl (by rw [noteTicket_eq]; rfl)
  | issueDevice hi =>
    obtain ⟨settings, evicted, devices, -, -, -, -, -, rfl⟩ := issueDevice_eq_ok hi
    exact .none rfl rfl
  | quiet hq => exact .none (by cases c <;> first | rfl | cases hq) rfl
  | _ => exact .none rfl rfl

end TunnelMesh.Auth
