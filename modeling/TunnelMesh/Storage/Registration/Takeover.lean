import TunnelMesh.Storage.Registration.Fencing

namespace TunnelMesh.Storage.Registration

open Transition

-- No automatic registration has replaced a row that was live at the time the
-- registration compared it with.
def State.StealsNothing (s : State) : Prop :=
  ∀ entry ∈ s.registrations, entry.automatic → ∀ old ∈ entry.replaced, old.expiresAt ≤ entry.now
  deriving Decidable

def Call.FirstAutomatic (c : Call) : Prop :=
  c.automatic → c.attempt = 0 → match c.phase with
    | .ready => c.request.connectionEpoch ≤ 0
    | .update _ autoEpoch _ => autoEpoch
    | _ => True

theorem begin_firstAutomatic (v : Request) : (Call.begin v).FirstAutomatic := by
  simp only [Call.begin]
  split
  · exact fun _ _ => trivial
  · exact fun ha _ => by simpa using ha

theorem retry_firstAutomatic (c : Call) : c.retry.FirstAutomatic := by
  simp only [Call.retry]
  split_ifs
  · exact fun _ hz => absurd hz (Nat.succ_ne_zero _)
  · exact fun _ _ => trivial

theorem select_firstAutomatic {c : Call} (h : c.FirstAutomatic) (hr : c.phase = .ready)
    (now : ℕ) (row : Option AgentLease) : Call.FirstAutomatic
      { c with request := (c.request.select now row).1, phase := (c.request.select now row).2 } := by
  intro ha hz
  have he := h ha hz
  simp only [hr] at he
  cases row with
  | none => trivial
  | some old =>
    simp only [Request.select]
    split_ifs
    · trivial
    · trivial
    · simpa using he

theorem step_firstAutomatic {s : State} (h : ∀ c ∈ s.calls, c.FirstAutomatic) (hs : step rowLocks s label = some next) :
    ∀ c ∈ next.calls, c.FirstAutomatic :=
  step_calls begin_firstAutomatic (fun _ now row hc hr => select_firstAutomatic hc hr now row)
    retry_firstAutomatic (fun _ _ _ _ => trivial) h hs

theorem step_registrations (hs : step rowLocks s label = some next) : next.registrations = s.registrations ∨
      (∃ entry, next.registrations = s.registrations ++ [entry] ∧ entry.replaced = none) ∨
      ∃ i c now autoEpoch oldEpoch old, label = .write i ∧ s.calls[i]? = some c ∧
        c.phase = .update now autoEpoch oldEpoch ∧ s.leases.get c.request.pair = some old ∧
        takeoverCond c.request.pair now autoEpoch oldEpoch old ∧ next.registrations =
          s.registrations ++ [⟨c.request.lease now, c.automatic, now, some old⟩] := by
  cases label with
  | register v => exact Or.inl (by simp only [step, Option.some.injEq] at hs; rw [← hs])
  | select i now => obtain ⟨c, -, -, -, rfl⟩ := step_select_eq_some hs; exact Or.inl rfl
  | write i =>
    obtain ⟨c, hc, ⟨now, autoEpoch, oldEpoch, hp, rfl⟩ | ⟨now, -, rfl⟩⟩ :=
      step_write_eq_some hs
    · simp only [State.writeUpdate]
      split_ifs with ha
      · obtain ⟨old, hget, hcond⟩ := (s.leases.affected_eq_one_iff
          (key_of_takeoverCond c.request.pair now autoEpoch oldEpoch)).mp ha
        exact Or.inr (Or.inr ⟨i, c, now, autoEpoch, oldEpoch, old, rfl, hc, hp, hget, hcond, by rw [hget]⟩)
      · exact Or.inl rfl
    · simp only [State.writeInsert]
      split
      · exact Or.inl rfl
      · exact Or.inr (Or.inl ⟨_, rfl, rfl⟩)
  | abort i => obtain ⟨c, rfl⟩ := step_abort_eq_some hs; exact Or.inl rfl
  | renew agentID connectionID epoch ttl now => exact Or.inl (by rw [step_renew_eq_some hs])
  | release agentID connectionID epoch => exact Or.inl (by rw [step_release_eq_some hs])
  | updateStats agentID connectionID epoch activeStreams healthScore now =>
    exact Or.inl (by rw [step_updateStats_eq_some hs])

def Call.updating (c : Call) : Option (ℕ × Bool × ℤ) :=
  match c.phase with
  | .update now autoEpoch oldEpoch => some (now, autoEpoch, oldEpoch)
  | _ => none

-- A takeover by an automatic registration is the work of its first attempt, and
-- the texts of the two instants it compares are in order.
def TakesOverFirst (s : State) : Label → Prop
  | .write i => ∀ c ∈ s.calls[i]?, c.automatic → ∀ attempt ∈ c.updating,
      ∀ old ∈ s.leases.get c.request.pair,
      takeoverCond c.request.pair attempt.1 attempt.2.1 attempt.2.2 old →
        c.attempt = 0 ∧ InRange attempt.1 ∧ InRange old.expiresAt ∧ ¬ Ambiguous attempt.1 old.expiresAt
  | _ => True

instance (s : State) : (label : Label) → Decidable (TakesOverFirst s label)
  | .write i => inferInstanceAs (Decidable (∀ c ∈ s.calls[i]?, _))
  | .register _ | .select .. | .abort _ | .renew .. | .release .. | .updateStats .. => isTrue trivial

theorem expired_of_first_attempt {c : Call} (hfirst : c.FirstAutomatic) (ha : c.automatic)
    (hz : c.attempt = 0) (hp : c.phase = .update now autoEpoch oldEpoch)
    (hcond : takeoverCond c.request.pair now autoEpoch oldEpoch old) (hnow : InRange now)
    (hr : InRange old.expiresAt) (hc : ¬ Ambiguous now old.expiresAt) : old.expiresAt ≤ now := by
  have hf := hfirst ha hz
  simp only [hp] at hf
  have ht := ((takeoverCond_iff _ _ _ _ _).mp hcond).2 hf
  rw [tm_lt_tm_iff hnow hr hc] at ht
  exact not_lt.mp ht

theorem stealsNothing_append {s next : State} (h : s.StealsNothing)
    (hn : next.registrations = s.registrations ++ [entry])
    (he : entry.automatic → ∀ old ∈ entry.replaced, old.expiresAt ≤ entry.now) : next.StealsNothing := by
  intro other hmem
  rw [hn, List.mem_append, List.mem_singleton] at hmem
  rcases hmem with hold | rfl
  · exact h other hold
  · exact he

theorem step_stealsNothing {s : State} (hf : ∀ c ∈ s.calls, c.FirstAutomatic) (h : s.StealsNothing)
    (hg : TakesOverFirst s label) (hs : step rowLocks s label = some next) : next.StealsNothing := by
  rcases step_registrations hs with hsame | ⟨entry, ha, hn⟩ |
    ⟨i, c, now, autoEpoch, oldEpoch, old, rfl, hc, hp, hget, hcond, ha⟩
  · simpa only [State.StealsNothing, hsame] using h
  · refine stealsNothing_append h ha ?_; simp [hn]
  · refine stealsNothing_append h ha ?_
    intro hauto other ho
    obtain rfl : old = other := Option.some.inj ho
    have hu : c.updating = some (now, autoEpoch, oldEpoch) := by simp only [Call.updating, hp]
    obtain ⟨hz, hnow, hr, hclear⟩ := hg c hc hauto _ hu old hget hcond
    exact expired_of_first_attempt (hf c (List.mem_of_getElem? hc)) hauto hz hp hcond hnow hr hclear

theorem automatic_takeover_replaces_expired (rowLocks : Bool) (labels : List Label)
    (hguard : Along (step rowLocks) TakesOverFirst init labels) :
    Always (step rowLocks) State.StealsNothing init labels := by
  have hstep : ∀ s label next, ((∀ c ∈ s.calls, c.FirstAutomatic) ∧ s.StealsNothing) →
      TakesOverFirst s label → step rowLocks s label = some next →
        (∀ c ∈ next.calls, c.FirstAutomatic) ∧ next.StealsNothing :=
    fun s label next h hg hs => ⟨step_firstAutomatic h.1 hs, step_stealsNothing h.1 h.2 hg hs⟩
  have hinit : (∀ c ∈ init.calls, c.FirstAutomatic) ∧ init.StealsNothing := by
    simp [init, State.StealsNothing]
  have hall := always_of_invariant hstep init labels hinit hguard
  exact hall.mono fun s h => h.2

def sampleRequest (nodeID : String) : Request :=
  ⟨"agent", "connection", nodeID, "", "", 0, 0, 0, 0, 0⟩

def takeoverRun : List Label :=
  let start := 63925286340 * nanosPerSecond
  [.register (sampleRequest "first"), .select 0 start, .write 0, .register (sampleRequest "second"),
    .select 1 (start + 61 * nanosPerSecond), .write 1]

theorem takeover_replaces_expired : ∃ s, run (step true) init takeoverRun = some s ∧ s.registrations.length = 2 ∧
      s.StealsNothing :=
  (automatic_takeover_replaces_expired true takeoverRun (by decide)).exists_run (by decide)

-- The lease of `first` ends on a full second. Half a second later `second` finds
-- it expired, loses the write to the order of the texts, and retries. The owner
-- renews in between, and the retry replaces the renewed lease.
def stealingRun : List Label :=
  let second := nanosPerSecond
  let start := 63925286340 * second
  [.register (sampleRequest "first"), .select 0 start, .write 0,
    .register (sampleRequest "second"), .select 1 (start + 60 * second + 500000000), .write 1,
    .renew "agent" "connection" 1 0 (start + 60 * second + 600000000),
    .select 1 (start + 60 * second + 700000000), .write 1]

theorem retry_steals_live_lease : (∃ s, run (step false) init stealingRun = some s ∧ ¬ s.StealsNothing) ∧
      ∃ s, run (step true) init stealingRun = some s ∧ ¬ s.StealsNothing := by
  constructor
  · apply exists_run_of_any; decide
  · apply exists_run_of_any; decide

end TunnelMesh.Storage.Registration
