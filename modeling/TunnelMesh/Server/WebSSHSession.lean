import TunnelMesh.Storage.Timestamp
import TunnelMesh.Table
import TunnelMesh.Transition

namespace TunnelMesh.Server.WebSSH

open Transition List
open Storage (tm)

inductive SessionStatus where
  | pending
  | active
  | closed
  deriving DecidableEq

structure WebSSHSession where
  id : String
  ownerUserID : String
  ticketHash : String
  ticketExpiresAt : ℕ
  status : SessionStatus
  expiresAt : ℕ

structure WebSSHSessionLimits where
  ticketTTL : ℕ
  sessionTTL : ℕ
  maxActivePerUser : ℕ

-- A call of `Create` that has passed the count, with the id it is going to draw.
structure Creation where
  id : String
  ownerUserID : String
  now : ℕ

-- `counted` are the sessions, with their owners, that were counted for after the
-- last time that one of the owner's turned active.
structure State where
  sessions : Table WebSSHSession.id
  creating : List Creation
  counted : List (String × String)
  now : ℕ

def State.init : State := ⟨Table.empty, [], [], 0⟩

-- The columns hold texts, and the statements compare them as texts.
def active (ownerUserID : String) (now : ℕ) (row : WebSSHSession) : Bool :=
  row.ownerUserID = ownerUserID && row.status = .active && tm now < tm row.expiresAt

def State.countActiveByOwner (s : State) (ownerUserID : String) (now : ℕ) : ℕ :=
  s.sessions.affected (active ownerUserID now)

def redeemable (id ticketHash : String) (now : ℕ) (row : WebSSHSession) : Bool :=
  row.id = id && row.ticketHash = ticketHash && row.status = .pending && tm now < tm row.ticketExpiresAt

def activate (row : WebSSHSession) : WebSSHSession := { row with status := .active }

def unclosed (id : String) (row : WebSSHSession) : Bool := row.id = id && row.status ≠ .closed

def closeAt (now : ℕ) (row : WebSSHSession) : WebSSHSession :=
  { row with status := .closed, expiresAt := if tm now < tm row.expiresAt then row.expiresAt else now }

-- The owner of the session that a ticket turns active.
def State.redeemedFor (s : State) (id ticketHash : String) (now : ℕ) : Option String :=
  ((s.sessions.get id).filter (redeemable id ticketHash now)).map (·.ownerUserID)

-- One statement of a call each, with the time that the call has read, or time
-- that passes. A call that is refused changes nothing.
inductive Label where
  | count (id ownerUserID : String) (now : ℕ)
  | create (i : ℕ) (ticketHash : String)
  | consumeTicket (id ticketHash : String) (now : ℕ)
  | close (id : String) (now : ℕ)
  | elapse (time : ℕ)

variable (limits : WebSSHSessionLimits)

-- No call has read a time that is still to come.
def step (s : State) : Label → Option State
  | .count id owner now =>
    if now ≤ s.now ∧ s.countActiveByOwner owner now < limits.maxActivePerUser then
      some { s with creating := s.creating ++ [⟨id, owner, now⟩], counted := (id, owner) :: s.counted }
    else none
  | .create i ticketHash => do
    let call ← s.creating[i]?
    let sessions ← s.sessions.insert ⟨call.id, call.ownerUserID, ticketHash, call.now + limits.ticketTTL, .pending,
      call.now + limits.sessionTTL⟩
    some { s with sessions, creating := s.creating.eraseIdx i }
  | .consumeTicket id ticketHash now =>
    some { s with
      sessions := s.sessions.update (redeemable id ticketHash now) activate fun _ => rfl
      counted := s.counted.filter fun session => s.redeemedFor id ticketHash now ≠ some session.2 }
  | .close id now => some { s with sessions := s.sessions.update (unclosed id) (closeAt now) fun _ => rfl }
  | .elapse time => some { s with now := s.now + time }

def unexpired (ownerUserID : String) (now : ℕ) (row : WebSSHSession) : Bool :=
  row.ownerUserID = ownerUserID && row.status = .active && now < row.expiresAt

def State.countUnexpired (s : State) (ownerUserID : String) : ℕ := s.sessions.affected (unexpired ownerUserID s.now)

def WithinQuota (s : State) : Prop := ∀ owner, s.countUnexpired owner ≤ limits.maxActivePerUser

-- The count of a `Create` compares the texts as the instants, and no other session
-- of the owner turns active before the one that was counted for.
def undisturbed (s : State) : Label → Bool
  | .count _ owner now => s.sessions.rows.all fun row => row.ownerUserID ≠ owner || row.status ≠ .active ||
      decide (tm now < tm row.expiresAt) == decide (now < row.expiresAt)
  | .consumeTicket id ticketHash now => (s.redeemedFor id ticketHash now).all fun owner => (id, owner) ∈ s.counted
  | _ => true

structure Invariant (s : State) : Prop where
  quota : WithinQuota limits s
  counted : ∀ session ∈ s.counted, s.countUnexpired session.2 < limits.maxActivePerUser

variable {limits : WebSSHSessionLimits} {s next : State}

theorem Invariant.of_le (h : Invariant limits s) (hc : next.counted = s.counted)
    (hle : ∀ owner, next.countUnexpired owner ≤ s.countUnexpired owner) : Invariant limits next where
  quota owner := (hle owner).trans (h.quota owner)
  counted session hsession := (hle _).trans_lt (h.counted session (hc ▸ hsession))

theorem countUnexpired_le_countActive {id : String} (hnow : now ≤ s.now) (hg : undisturbed s (.count id owner now)) :
    s.countUnexpired owner ≤ s.countActiveByOwner owner now := by
  refine List.countP_mono_left fun row hmem hrow => ?_
  have hr := List.all_eq_true.mp hg row hmem
  simp only [unexpired, active, Bool.and_eq_true, decide_eq_true_eq] at hrow ⊢
  simp only [hrow.1.1, hrow.1.2, ne_eq, not_true_eq_false, decide_false, Bool.false_or, beq_iff_eq,
    decide_eq_decide] at hr
  exact ⟨hrow.1, hr.mpr (by omega)⟩

theorem Invariant.consumeTicket {id ticketHash : String} (h : Invariant limits s)
    (hg : undisturbed s (.consumeTicket id ticketHash now))
    (hs : step limits s (.consumeTicket id ticketHash now) = some next) : Invariant limits next := by
  cases hs
  have hle owner := s.sessions.affected_update_le (unexpired owner s.now) (redeemable id ticketHash now) activate
    fun _ => rfl
  -- Only the owner of the row that turns active has one more.
  have hother owner (ho : s.redeemedFor id ticketHash now ≠ some owner) : s.sessions.affected (fun row =>
      redeemable id ticketHash now row && unexpired owner s.now (activate row)) = 0 := by
    refine (s.sessions.affected_eq_zero_iff (k := id) (by simp +contextual [redeemable])).mpr fun row hget => ?_
    refine Bool.eq_false_iff.mpr fun hrow => ho ?_
    simp only [unexpired, Bool.and_eq_true, decide_eq_true_eq] at hrow
    simp only [State.redeemedFor, hget, Option.filter_some, hrow.1, if_true, Option.map_some]
    exact congrArg some hrow.2.1.1
  refine ⟨fun owner => ?_, fun session hsession => ?_⟩
  · by_cases ho : s.redeemedFor id ticketHash now = some owner
    · have hlt := h.counted (id, owner) (by simpa [undisturbed, ho] using hg)
      have hone : s.sessions.affected (fun row => redeemable id ticketHash now row &&
          unexpired owner s.now (activate row)) ≤ 1 :=
        s.sessions.affected_le_one (k := id) (by simp +contextual [redeemable])
      have := hle owner
      simp only [State.countUnexpired] at hlt ⊢
      omega
    · exact (hle owner).trans (by rw [hother owner ho]; exact h.quota owner)
  · obtain ⟨hin, ho⟩ := mem_filter.mp hsession
    exact (hle _).trans_lt (by rw [hother _ (of_decide_eq_true ho)]; exact h.counted session hin)

theorem Invariant.step (h : Invariant limits s) (hg : undisturbed s label)
    (hs : step limits s label = some next) : Invariant limits next := by
  cases label with
  | count id owner now =>
    obtain ⟨⟨hnow, hc⟩, rfl⟩ := guard_eq_some hs
    refine ⟨h.quota, fun session hsession => ?_⟩
    rcases mem_cons.mp hsession with rfl | hold
    · exact (countUnexpired_le_countActive hnow hg).trans_lt hc
    · exact h.counted session hold
  | create i ticketHash =>
    simp only [WebSSH.step, Option.bind_eq_bind, Option.bind_eq_some_iff] at hs
    obtain ⟨call, hcall, sessions, hi, hs⟩ := hs
    cases hs
    refine h.of_le rfl fun owner => ?_
    rw [State.countUnexpired, s.sessions.affected_insert hi]
    simp [unexpired, State.countUnexpired]
  | consumeTicket id ticketHash now => exact h.consumeTicket hg hs
  | close id now =>
    cases hs
    refine h.of_le rfl fun owner =>
      (s.sessions.affected_update_le _ _ (closeAt now) fun _ => rfl).trans ?_
    simp [unexpired, closeAt, Table.affected, State.countUnexpired]
  | elapse time =>
    cases hs
    refine h.of_le rfl fun owner => List.countP_mono_left fun row _ hrow => ?_
    simp only [unexpired, Bool.and_eq_true, decide_eq_true_eq] at hrow ⊢
    exact ⟨hrow.1, by omega⟩

theorem active_sessions_within_quota (limits : WebSSHSessionLimits) (labels : List Label)
    (halong : Along (step limits) (fun s label => undisturbed s label) .init labels) :
    Always (step limits) (WithinQuota limits) .init labels :=
  (always_of_invariant (fun _ _ _ h hg hs => Invariant.step h hg hs) _ labels
    ⟨fun _ => Nat.zero_le _, by simp [State.init]⟩ halong).mono fun _ h => h.quota

def twoTickets : List Label :=
  [.elapse 3, .count "a" "u" 1, .create 0 "x", .count "b" "u" 2, .create 0 "y", .consumeTicket "a" "x" 3]

theorem first_ticket_within_quota :
    let limits : WebSSHSessionLimits := ⟨30, 3600, 1⟩
    (run (step limits) .init twoTickets).isSome ∧ Always (step limits) (WithinQuota limits) .init twoTickets :=
  ⟨by decide +kernel, active_sessions_within_quota _ _ (by decide +kernel)⟩

-- `Create` counts active sessions only, so both tickets have been handed out.
theorem second_ticket_over_quota :
    ∃ final, run (step ⟨30, 3600, 1⟩) .init (twoTickets ++ [.consumeTicket "b" "y" 3]) = some final ∧
      final.countUnexpired "u" = 2 :=
  exists_run_of_any (by decide +kernel)

end TunnelMesh.Server.WebSSH
