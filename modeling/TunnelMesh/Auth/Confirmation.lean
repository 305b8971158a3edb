import TunnelMesh.Auth.Discipline
import TunnelMesh.Auth.Enrollment

namespace TunnelMesh.Auth

open Option List Transition Interleaving Prod
open Program (Tracks Only)

inductive FactorCall where
  | enroll (userID currentPassword : String) (drawn : Except AuthError Drawn)
  | enable (userID code : String)

variable (env : Env)

def FactorCall.program : FactorCall → Act Unit
  | .enroll userID currentPassword drawn => discard (MFAService.enroll env userID currentPassword drawn)
  | .enable userID code => MFAService.enable env userID code

abbrev FactorLabel := Interleaving.Label FactorCall Input Change

def factorSystem :
    Interleaving.System Store (Program.Process Command Answer AuthError Unit) FactorCall Input Change :=
  Program.system (exec env) (FactorCall.program env) change

def Verified (userID : String) (secret : Sealed) (trace : Trace) : Prop :=
  ∃ opened code step, env.decrypt secret = .ok opened ∧
    ⟨.compareTOTP none opened code, .ok (some step)⟩ ∈ trace ∧ ⟨.enable userID step, .ok ()⟩ ∈ trace

def Confirmed (s : State) : Prop :=
  ∀ u secret last, s.store.enrollment u = some (secret, .enabled, last) → ∃ p ∈ s.procs, Verified env u secret p.trace

def confirming (trace : Trace) : Command → Prop
  | .enable userID step => ∃ row opened code, ⟨.getMFA userID, .ok (some row)⟩ ∈ trace ∧
      env.decrypt row.secret = .ok opened ∧ ⟨.compareTOTP none opened code, .ok (some step)⟩ ∈ trace
  | _ => True

def readSecret (userID : String) : (Σ c, Except AuthError (Answer c)) → Option Sealed
  | ⟨.getMFA u, .ok (some row)⟩ => if u = userID then some row.secret else none
  | _ => none

-- When `Enable` writes, the secret that it has read is still the stored one.
def SecretKept (store : Store) (trace : Trace) (c : Command) (_ : Input) : Prop :=
  c.confirms → ∀ u ∈ c.enrollee, ∀ e ∈ trace, ∀ secret ∈ readSecret u e, ∀ row ∈ store.mfa.get u, row.secret = secret
  deriving Decidable

variable {env : Env}

section Programs

variable {trace : Trace}

theorem load_reads (userID : String) : (MFAService.load env userID).Tracks (confirming env)
      (fun after usable => ∀ row ∈ usable, ⟨.getMFA userID, .ok (some row)⟩ ∈ after) trace := by
  refine Tracks.bind (Tracks.perform trivial) ?_
  rintro after found rfl
  cases found with
  | none => exact nofun
  | some row =>
    refine Tracks.ite (fun _ => ?_) fun _ => ?_
    · refine Tracks.bind (Tracks.perform trivial) ?_
      rintro after now rfl r hr
      simp only [mem_def, ite_none_right_eq_some, some.injEq] at hr
      simp [hr.2]
    · rintro r hr
      cases hr
      exact mem_cons_self

theorem openSecret_tracks (row : UserMFA) : (MFAService.openSecret env row).Tracks (confirming env)
      (fun after opened => after = trace ∧ env.decrypt row.secret = .ok opened) trace := by
  refine Tracks.ite (fun _ => True.intro) fun _ => ?_
  cases hd : env.decrypt row.secret with
  | error e => exact True.intro
  | ok opened => exact ⟨rfl, rfl⟩

theorem enable_confirming (userID code : String) :
    (MFAService.enable env userID code).Tracks (confirming env) (fun _ _ => True) trace := by
  refine Tracks.bind (load_reads userID) fun after usable hr => ?_
  cases usable with
  | none => exact True.intro
  | some row =>
    refine Tracks.ite (fun _ => True.intro) fun _ => Tracks.bind (openSecret_tracks row) ?_
    rintro after opened ⟨rfl, ho⟩
    refine Tracks.bind (Tracks.perform trivial) ?_
    rintro _ found rfl
    cases found with
    | none => exact True.intro
    | some step =>
      refine (Tracks.perform ?_).mono fun _ _ _ => True.intro
      exact ⟨row, opened, code, mem_cons_of_mem _ (hr row rfl), ho, mem_cons_self⟩

theorem program_confirming (request : FactorCall) :
    (request.program env).Tracks (confirming env) (fun _ _ => True) [] := by
  cases request with
  | enable userID code => exact enable_confirming userID code
  | enroll userID currentPassword drawn =>
    have ho : (MFAService.enroll env userID currentPassword drawn).Only fun c => c.confirms = false := by
      refine Only.ite True.intro (Only.bind (Only.fromExcept drawn) fun drawn => ?_)
      exact Only.bind (Only.perform rfl) fun _ => Only.bind (Only.perform rfl) fun _ => True.intro
    refine Tracks.bind (ho.tracks fun trace c hc => ?_) fun _ _ _ => True.intro
    cases c <;> first | exact True.intro | cases hc

end Programs

section Step

variable {s next : State} {label : FactorLabel}

theorem Verified.cons (h : Verified env userID secret trace)
    (e : Σ c, Except AuthError (Answer c)) : Verified env userID secret (e :: trace) := by
  obtain ⟨opened, code, step, ho, hc, he⟩ := h
  exact ⟨opened, code, step, ho, mem_cons_of_mem e hc, mem_cons_of_mem e he⟩

theorem change_enrollment {store next : Store} (h : change store e = some next) :
    next.enrollment = store.enrollment := by
  cases e with
  | policy settings => obtain ⟨old, -, rfl⟩ := map_eq_some_iff.mp h; rfl
  | accounts | sweepChallenges | sweepDevices => cases h; rfl

theorem verified_enable (hc : confirming env trace (.enable userID step))
    (hk : SecretKept store trace (.enable userID step) input)
    (hrow : store.enrollment userID = some (secret, status, last)) :
    Verified env userID secret (⟨.enable userID step, .ok ()⟩ :: trace) := by
  obtain ⟨row, opened, code, hr, ho, hcompared⟩ := hc
  obtain ⟨stored, hget, hcore⟩ := map_eq_some_iff.mp hrow
  have hs : stored.secret = row.secret := hk rfl userID rfl _ hr row.secret (if_pos rfl) stored hget
  obtain rfl : stored.secret = secret := congrArg fst hcore
  exact ⟨opened, code, step, by rw [hs, ho], mem_cons_of_mem _ hcompared, mem_cons_self⟩

theorem step_confirmed (h : Confirmed env s)
    (ht : ∀ p ∈ s.procs, p.rest.Tracks (confirming env) (fun _ _ => True) p.trace)
    (hg : Interleaving.OnMoves (Program.OnTraces SecretKept) s label)
    (hs : (factorSystem env).step s label = some next) : Confirmed env next := by
  intro u secret last hrow
  cases label with
  | start request =>
    obtain rfl := step_start_eq_some hs
    obtain ⟨p, hp, hv⟩ := h u secret last hrow
    exact ⟨p, mem_append_left _ hp, hv⟩
  | event e =>
    obtain ⟨store, hchange, rfl⟩ := step_event_eq_some hs
    exact h u secret last (change_enrollment hchange ▸ hrow)
  | move i input =>
    obtain ⟨p, store, moved, hp, hm, rfl⟩ := step_move_eq_some hs
    obtain ⟨c, k, hr, hc, rfl, rfl⟩ := Program.move_eq_some hm
    have hold (last : ℤ) (hrow : s.store.enrollment u = some (secret, .enabled, last)) :
        ∃ q ∈ s.procs.set i ⟨⟨c, (exec env s.store c input).2⟩ :: p.trace, k (exec env s.store c input).2⟩,
          Verified env u secret q.trace := by
      rcases exists_mem_set hp _ (h u secret last hrow) with hv | hv
      · exact ⟨_, mem_set_of_getElem? hp _, hv.cons _⟩
      · exact hv
    rcases exec_cases env s.store c input with ⟨e, he⟩ | ⟨store, answer, hrun, he⟩
    · rw [he] at hrow; exact hold last hrow
    rw [he] at hrow
    cases (run_effect hrun).enrollment with
    | none ho hsame => exact hold last (hsame ▸ hrow)
    | enroll hsets | remove hsets =>
      rw [hsets u] at hrow
      split at hrow
      · cases hrow
      · exact hold last hrow
    | @used userID step stored status before _ huser hstep hb hlt hsets =>
      rw [hsets u] at hrow
      split at hrow
      · next hu =>
        subst hu
        obtain rfl : stored = secret := congrArg fst (some.inj hrow)
        cases hconfirms : c.confirms with
        | false =>
          simp only [hconfirms, Bool.false_eq_true, if_false, some.injEq, mk.injEq] at hrow
          exact hold before (hrow.2.1 ▸ hb)
        | true =>
          refine ⟨_, mem_set_of_getElem? hp _, ?_⟩
          have htracks := ht p (mem_of_getElem? hp)
          rw [hr] at htracks
          cases c with
          | enable userID step' =>
            cases huser
            rw [he]
            exact verified_enable htracks.1 (hg p hp _ hc) hb
          | _ => cases hconfirms
      · exact hold last hrow

end Step

-- In every run in which the secret that an `Enable` has read is still the stored
-- one when it writes, an enabled secret is one whose code was verified.
theorem enabled_secret_confirmed (env : Env) (users : Table User.id) (settings : Option AuthSettings)
    (labels : List FactorLabel)
    (halong : Along (factorSystem env).step (Interleaving.OnMoves (Program.OnTraces SecretKept))
      (init users settings) labels) : Always (factorSystem env).step (Confirmed env) (init users settings) labels := by
  have hinv : Always (factorSystem env).step (fun s => Confirmed env s ∧
      Interleaving.Holds (fun _ => True) (Program.Aware (confirming env) fun _ _ => True) s)
      (init users settings) labels := by
    refine always_of_invariant (fun s label next h hg hs => ?_) _ labels ⟨nofun, trivial, nofun⟩ halong
    refine ⟨step_confirmed h.1 (fun p hp => (h.2.procs p hp).1) hg hs, ?_⟩
    exact Program.aware_step program_confirming (fun _ _ _ _ _ _ _ _ => ⟨trivial, trivial⟩)
      (fun _ _ _ _ _ => trivial) (fun _ _ _ _ _ => ⟨trivial, fun _ _ => trivial⟩) h.2 hg hs
  exact hinv.mono fun _ h => h.1

def factorMoves (i n : ℕ) : List FactorLabel := List.replicate n (.move i ⟨unix 60, false, false⟩)

def enrolling (secret : String) : FactorLabel :=
  .start (.enroll "u" "pw" (.ok ⟨secret, ⟨secret, "nonce", "key", 1⟩, ["tmrc-a"], ["TMRCA"]⟩))

def confirmedRun : List FactorLabel :=
  enrolling "first" :: factorMoves 0 2 ++ .start (.enable "u" "000000") :: factorMoves 1 4

def enabledSecret (s : State) : Option (String × MFAStatus) :=
  (s.store.enrollment "u").map fun row => (row.1.ciphertext, row.2.1)

theorem first_secret_confirmed :
    ∃ final, Transition.run (factorSystem sampleEnv).step (init sampleUsers none) confirmedRun = some final ∧
      enabledSecret final = some ("first", .enabled) ∧ Confirmed sampleEnv final :=
  (enabled_secret_confirmed sampleEnv sampleUsers none confirmedRun (by decide +kernel)).exists_run (by decide +kernel)

def comparedSecret : (Σ c, Except AuthError (Answer c)) → Option String
  | ⟨.compareTOTP _ secret _, _⟩ => some secret
  | _ => none

def replacedRun : List FactorLabel :=
  enrolling "first" :: factorMoves 0 2 ++ .start (.enable "u" "000000") :: factorMoves 1 3 ++
    enrolling "second" :: factorMoves 2 1 ++ factorMoves 1 1

theorem replaced_secret_enabled :
    ∃ final, Transition.run (factorSystem sampleEnv).step (init sampleUsers none) replacedRun = some final ∧
      ¬ Confirmed sampleEnv final := by
  obtain ⟨final, hrun, henabled, hcompared⟩ :
      ∃ final, Transition.run (factorSystem sampleEnv).step (init sampleUsers none) replacedRun = some final ∧
        enabledSecret final = some ("second", .enabled) ∧
          ∀ p ∈ final.procs, ∀ e ∈ p.trace, comparedSecret e ≠ some "second" := exists_run_of_any (by decide +kernel)
  refine ⟨final, hrun, fun hconfirmed => ?_⟩
  obtain ⟨⟨secret, status, last⟩, hrow, hsecond⟩ := map_eq_some_iff.mp henabled
  obtain ⟨hs, rfl⟩ := Prod.mk.inj hsecond
  obtain ⟨p, hp, opened, code, step, ho, hcode, -⟩ := hconfirmed "u" secret last hrow
  obtain rfl : secret.ciphertext = opened := Except.ok.inj ho
  exact hcompared p hp _ hcode (congrArg some hs)

end TunnelMesh.Auth
