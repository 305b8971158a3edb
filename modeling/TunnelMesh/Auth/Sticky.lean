import TunnelMesh.Auth.Discipline
import TunnelMesh.Auth.Enrollment

namespace TunnelMesh.Auth

open Program Store LoginService Interleaving MFAService Transition Process Bool Tracks

-- The account has enabled a second factor, and neither `Disable` nor an
-- administrator has taken it away since.
def bound (userID : String) : List Event → Bool
  | [] => false
  | .enabled u :: rest => u = userID || bound userID rest
  | .factorRemoved u :: rest => u ≠ userID && bound userID rest
  | _ :: rest => bound userID rest

def Store.factor (store : Store) (userID : String) : Bool := enabledRow (store.mfa.get userID)

def movesFactor : Event → Bool
  | .enabled _ | .factorRemoved _ => true
  | _ => false

theorem bound_append {userID : String} {new log : List Event} (h : ∀ e ∈ new, movesFactor e = false) :
    bound userID (new ++ log) = bound userID log := by
  induction new with
  | nil => rfl
  | cons e rest ih =>
    have hr := ih fun e' he' => h e' (List.mem_cons_of_mem e he')
    have he := h e List.mem_cons_self
    cases e <;> first | exact hr | cases he

inductive FactorEffect (env : Env) (store next : Store) : Command → Prop where
  | none (hfactor : ∀ u, next.factor u = store.factor u)
      (hlog : ∃ new, next.log = new ++ store.log ∧ ∀ e ∈ new, movesFactor e = false) :
      FactorEffect env store next c
  | enroll
      (hallowed : store.enrollAllowed env userID currentPassword = .ok user)
      (hfactor : ∀ u, next.factor u = (u ≠ userID && store.factor u)) (hlog : next.log = store.log) :
      FactorEffect env store next (.enroll userID currentPassword secret hashes)
  | enable
      (hfactor : ∀ u, next.factor u = (u = userID || store.factor u))
      (hlog : next.log = .enabled userID :: store.log) :
      FactorEffect env store next (.enable userID step)
  | remove (hfactor : ∀ u, next.factor u = (u ≠ userID && store.factor u))
      (hlog : next.log = .factorRemoved userID :: store.log) :
      FactorEffect env store next (.removeFactor userID action)

section Effect

variable {store next : Store}

theorem Store.factor_eq (store : Store) (u : String) :
    store.factor u = (store.enrollment u).any fun row => row.2.1 = .enabled := by
  rw [enrollment, Option.any_map]
  rfl

theorem Store.Sets.factor {userID : String} (h : store.Sets userID row next)
    (u : String) : next.factor u = if u = userID then row.any (·.2.1 = .enabled) else store.factor u := by
  rw [factor_eq, h u, factor_eq]
  split <;> rfl

theorem log_enable (h : store.enable userID step now = .ok next) : next.log = .enabled userID :: store.log := by
  obtain ⟨used, hu, h⟩ := bind_eq_ok h
  obtain ⟨confirmed, hc, h⟩ := bind_eq_ok h
  cases h
  obtain rfl := setEnabled_eq_ok hc
  obtain ⟨rfl, -⟩ := markUsed_eq_ok hu
  rfl

def Command.movesFactor : Command → Bool
  | .enroll _ _ _ _ | .enable _ _ | .removeFactor _ _ => true
  | _ => false

theorem EnrollmentEffect.same_factor (h : EnrollmentEffect store next c) (hc : c.movesFactor = false) (u : String) :
    next.factor u = store.factor u := by
  cases h with
  | none hother hs => rw [factor_eq, hs, factor_eq]
  | enroll | remove => cases hc
  | @used userID step secret status last _ huser hstep hb hlt hsets =>
    have hconfirms : c.confirms = false := by cases c <;> first | rfl | cases hc
    rw [hsets.factor, hconfirms, store.factor_eq u]
    split
    · next hu => simp [hu, hb]
    · rfl

theorem Frame.keepsFactor (h : Frame c store next) (henable : ∀ u, notes c (.enabled u) = false)
    (hr : ∀ u, notes c (.factorRemoved u) = false) :
    ∃ new, next.log = new ++ store.log ∧ ∀ e ∈ new, movesFactor e = false := by
  obtain ⟨new, hlog, hnew⟩ := h.log
  refine ⟨new, hlog, fun e he => ?_⟩
  cases e with
  | enabled u => exact absurd (hnew _ he) (by simp [henable])
  | factorRemoved u => exact absurd (hnew _ he) (by simp [hr])
  | _ => rfl

theorem Effect.factor {answer : Answer c} (h : Effect env store c answer next) : FactorEffect env store next c := by
  have hlog := h.frame.keepsFactor
  have hr := h.enrollment
  have hsame := hr.same_factor
  cases h with
  | enroll ha =>
    cases hr with
    | none ho | used _ ho => cases ho
    | enroll hs => exact .enroll ha (fun u => by rw [hs.factor]; split <;> simp_all) rfl
  | enable he =>
    cases hr with
    | none ho => cases ho
    | used hu hstep hbefore hlt hs =>
      cases hu
      exact .enable (fun u => by rw [hs.factor]; split <;> simp_all [Command.confirms]) (log_enable he)
  | removeFactor =>
    cases hr with
    | none ho | used _ ho => cases ho
    | remove hs => exact .remove (fun u => by rw [hs.factor]; split <;> simp_all) rfl
  | quiet hq =>
    refine .none (fun _ => rfl) (hlog ?_ ?_) <;> cases c <;> first | exact fun _ => rfl | cases hq
  | _ => exact .none (hsame rfl) (hlog (fun _ => rfl) fun _ => rfl)

end Effect

variable (env : Env)

def reenrolls (store : Store) (c : Command) (input : Input) : Bool :=
  match c with
  | .enroll userID currentPassword _ _ =>
    store.factor userID && (store.enrollAllowed env userID currentPassword).isOk && !input.fails
  | _ => false

def KeepsEnabled (store : Store) (c : Command) (input : Input) : Prop :=
  reenrolls env store c input = false
  deriving Decidable

def FactorsKept (store : Store) : Prop := ∀ u, bound u store.log → store.factor u

section Step

variable {env : Env}

theorem exec_factorsKept (hk : FactorsKept store) (hg : KeepsEnabled env store c input) :
    FactorsKept (exec env store c input).1 := by
  rcases exec_cases env store c input with ⟨e, he⟩ | ⟨next, answer, hrun, he⟩
  · rw [he]; exact hk
  intro u hb
  have heffect := (run_effect hrun).factor
  rw [he] at hb ⊢
  cases heffect with
  | none hf hlog =>
    obtain ⟨new, hnew, hm⟩ := hlog
    rw [hnew, bound_append hm] at hb
    rw [hf u]
    exact hk u hb
  | @enroll userID currentPassword secret hashes user ha hf hlog =>
    have hi : input.fails = false := not_fails_of_exec he rfl
    have hold := hk u (hlog ▸ hb)
    have hne : u ≠ userID := by
      rintro rfl
      simp [KeepsEnabled, reenrolls, hold, ha, Except.isOk, Except.toBool, hi] at hg
    rw [hf u, hold]
    simpa using hne
  | @enable userID step hf hlog =>
    simp only [hlog, bound, or_eq_true, decide_eq_true_eq] at hb
    simp only [hf u, or_eq_true, decide_eq_true_eq]
    exact hb.imp Eq.symm (hk u)
  | @remove userID action hf hlog =>
    simp only [hlog, bound, and_eq_true, decide_eq_true_eq] at hb
    simp only [hf u, and_eq_true, decide_eq_true_eq]
    exact ⟨Ne.symm hb.1, hk u hb.2⟩

theorem change_factorsKept (hk : FactorsKept store) (h : change store e = some next) : FactorsKept next := by
  cases e with
  | policy settings => obtain ⟨old, -, rfl⟩ := Option.map_eq_some_iff.mp h; exact hk
  | accounts | sweepChallenges | sweepDevices => cases h; exact hk

end Step

def Owes (p : Act Verdict) : Prop :=
  p.Tracks (fun _ _ => True) (fun _ verdict => ∀ grounds, verdict.decision ≠ .free grounds) []

-- While a second factor is bound, `IsEnabled` answers true, and a login that has
-- read the mode `optional` and goes on to read the enrollment owes the factor.
def SecondFactorHolds (s : State) : Prop :=
  (∀ u, bound u s.store.log → (∀ input : Input, input.fails = false →
      ∃ next p, move (exec env) s.store ⟨[], isEnabled env u⟩ input =
        some (next, p) ∧ p.result = some (.ok true)) ∧
    ∀ (settings : AuthSettings) (user : User) (deviceToken : String) (input : Input),
      settings.mfaMode = .optional → user.id = u → input.fails = false →
        ∃ next p, move (exec env) s.store ⟨[], isEnabled env user.id >>=
          fun mfaEnabled => judge env settings user mfaEnabled deviceToken⟩ input =
            some (next, p) ∧ Owes p.rest) ∧
  ∀ p ∈ s.procs, ∀ later earlier u answer, p.trace = later ++ ⟨.removeFactor u disableAction, answer⟩ :: earlier →
      ∃ e ∈ earlier, accepts u none e

theorem move_isEnabled (h : store.factor u) (hf : input.fails = false) {α : Type} (f : Bool → Act α) :
    ∃ next p, move (exec env) store ⟨[], isEnabled env u >>= f⟩ input = some (next, p) ∧ p.rest = f true := by
  cases hget : store.mfa.get u with
  | none => simp [factor, enabledRow, hget] at h
  | some row =>
    have hs : row.status = .enabled := by simpa [factor, enabledRow, hget] using h
    have he : exec env store (.getMFA u) input = (store.note (.mfaRead u (store.mfa.get u)), .ok (some row)) := by
      simp [exec, hf, run, hget]
    refine ⟨_, _, rfl, ?_⟩
    rw [he]
    obtain ⟨userID, secret, status, enrolledAt, enabledAt, lastUsedAt, lastUsedStep⟩ := row
    obtain rfl : status = .enabled := hs
    rfl

theorem judge_owes {settings : AuthSettings} (user : User) (deviceToken : String) (hm : settings.mfaMode = .optional) :
    Owes (judge env settings user true deviceToken) := by
  have hr : (resolvePolicy settings user true).required := by simp [resolvePolicy, hm]
  refine ite (fun hf => ?_) fun _ => ?_
  · rw [hr] at hf; cases hf
  · refine bind (tracks_true _ _) fun _ found _ => ?_
    cases found with
    | none => exact fun _ h => by cases h
    | some found => exact ite (fun _ _ h => by cases h) fun _ _ h => by cases h

theorem secondFactorHolds_of_kept {env : Env} {s : State} (h : Holds FactorsKept (Aware allowed fun _ _ => True) s) :
    SecondFactorHolds env s := by
  refine ⟨fun u hb => ⟨fun input hf => ?_, ?_⟩, ?_⟩
  · have hm := move_isEnabled env (h.store u hb) hf ret
    rw [bind_ret] at hm
    obtain ⟨next, p, hmove, hr⟩ := hm
    exact ⟨next, p, hmove, by rw [result, hr]⟩
  · intro settings user deviceToken input hmode hid hf
    subst hid
    obtain ⟨next, p, hmove, hr⟩ := move_isEnabled env (h.store _ hb) hf fun mfaEnabled =>
      judge env settings user mfaEnabled deviceToken
    exact ⟨next, p, hmove, hr ▸ judge_owes env user deviceToken hmode⟩
  · intro p hp later earlier u answer ht
    have ho := (h.procs p hp).2.1
    rw [ht] at ho
    exact Obeys.allowed ho rfl

theorem factorsKept_step {env : Env} {s next : State} {label : Label}
    (h : Holds FactorsKept (Aware allowed fun _ _ => True) s) (hg : OnMoves (OnCommands (KeepsEnabled env)) s label)
    (hs : (system env).step s label = some next) : Holds FactorsKept (Aware allowed fun _ _ => True) next :=
  aware_step (start_tracks env)
    (fun _ _ _ _ hk _ _ hg => ⟨exec_factorsKept hk hg, trivial⟩)
    (fun _ _ _ _ _ => trivial)
    (fun _ _ _ hk hc => ⟨change_factorsKept hk hc, fun _ _ => trivial⟩) h hg hs

-- The second factor of an account is sticky in every run in which no `Enroll`
-- goes through on an account whose enrollment is enabled.
theorem second_factor_sticky (env : Env) (users : Table User.id) (settings : Option AuthSettings) (labels : List Label)
    (halong : Along (system env).step (Interleaving.OnMoves (Program.OnCommands (KeepsEnabled env)))
      (init users settings) labels) :
    Always (system env).step (SecondFactorHolds env) (init users settings) labels := by
  have hinit : Interleaving.Holds FactorsKept (Program.Aware allowed fun _ _ => True)
      (init users settings) := ⟨by simp [FactorsKept, init, bound], by simp [init]⟩
  refine (always_of_invariant ?_ _ labels hinit halong).mono fun _ h => secondFactorHolds_of_kept h
  exact fun _ _ _ h hguard hstep => factorsKept_step h hguard hstep

def enrollRun : List Label :=
  .start (.enroll "u" "pw" sampleDrawn) :: steps 0 2 (unix 60) ++ .start (.enable "u" "000000") :: steps 1 4 (unix 60)

theorem enrolled_account_keeps_second_factor :
    ∃ final, Transition.run (system sampleEnv).step (init sampleUsers none) enrollRun = some final ∧
      bound "u" final.store.log = true ∧ SecondFactorHolds sampleEnv final :=
  (second_factor_sticky sampleEnv sampleUsers none enrollRun (by decide +kernel)).exists_run (by decide +kernel)

-- One `Enroll` with the password replaces the enabled factor by a pending one,
-- and the next login owes nothing.
theorem password_reenrollment_drops_second_factor :
    ∃ final, Transition.run (system sampleEnv).step (init sampleUsers none)
        (enrollRun ++ .start (.enroll "u" "pw" sampleDrawn) :: steps 2 1 (unix 120) ++
          .start (.login ⟨"alice", "pw", "10.0.0.1", false, ""⟩) :: steps 3 7 (unix 180)) = some final ∧
      bound "u" final.store.log = true ∧ final.store.factor "u" = false ∧
      .sessionIssued "u" (.waived (defaultAuthSettings .optional true true 0 0 0) sampleUser false) ∈ final.store.log :=
  exists_run_of_any (by decide +kernel)

end TunnelMesh.Auth
