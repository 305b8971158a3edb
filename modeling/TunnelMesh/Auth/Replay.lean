import TunnelMesh.Auth.Enrollment
import TunnelMesh.Auth.Services

namespace TunnelMesh.Auth

open Store Interleaving Option List Transition

def commits {β : Type} (env : Env) (pick : (c : Command) → Answer c → List β) (s : State) : Label → List β
  | .move i input =>
    (do
      let p ← s.procs[i]?
      let c ← p.command
      let answer ← (exec env s.store c input).2.toOption
      some (pick c answer)).getD []
  | _ => []

def acceptedStep (userID : String) (c : Command) (_ : Answer c) : List ℤ :=
  if c.enrollee = some userID then c.usedStep.toList else []

def acceptedCode : (c : Command) → Answer c → List String
  | .consumeCode _ _ hash, some _ => [hash]
  | _, _ => []

def Command.generated : Command → List String
  | .enroll _ _ _ hashes | .replaceCodes _ _ hashes => hashes
  | _ => []

def Command.replaces (userID : String) : Command → Bool
  | .enroll u _ _ _ => u = userID
  | _ => false

variable (env : Env)

def SameEnrollment (userID : String) (s : State) (label : Label) : Prop :=
  commits env (fun c _ => [c.replaces userID]) s label ≠ [true]
  deriving Decidable

def acceptedSteps (userID : String) : State → List Label → List ℤ :=
  outputs (system env).step (commits env (acceptedStep userID))

def acceptedCodes : State → List Label → List String := outputs (system env).step (commits env acceptedCode)

def generatedCodes : State → List Label → List String :=
  outputs (system env).step (commits env fun c _ => c.generated)

def Store.unusedHash (store : Store) (hash : String) : Prop := ∃ row, store.codes.get hash = some row ∧ row.usedAt = none

def FreshCodes (s : State) (labels : List Label) : Prop :=
  (∀ hash, s.store.unusedHash hash → hash ∉ generatedCodes env s labels) ∧ (generatedCodes env s labels).Nodup

section Codes

variable {env : Env} {store next : Store} {userID : String}

theorem get_insertCodes {codes inserted : Table RecoveryCode.hash}
    (h : insertCodes userID codes hashes = some inserted) {hash : String}
    (hr : inserted.get hash = some row) : codes.get hash = some row ∨ hash ∈ hashes := by
  induction hashes generalizing codes with
  | nil => cases h; exact .inl hr
  | cons first rest ih =>
    obtain ⟨mid, hmid, h⟩ := bind_eq_some_iff.mp h
    rcases ih h with hget | hin
    · rw [codes.get_insert hmid hash] at hget
      split at hget
      · next hs => exact .inr (hs ▸ mem_cons_self)
      · exact .inl hget
    · exact .inr (mem_cons_of_mem first hin)

theorem unused_of_replaceAll {codes : Table RecoveryCode.hash}
    (h : store.replaceAll userID hashes = .ok codes) {hash : String}
    (hr : ∃ row, codes.get hash = some row ∧ row.usedAt = none) : store.unusedHash hash ∨ hash ∈ hashes := by
  obtain ⟨row, hr, hu⟩ := hr
  unfold replaceAll at h
  split_ifs at h
  split at h <;> cases h
  next hi =>
    rcases get_insertCodes hi hr with hget | hin
    · rw [Table.get_delete, filter_eq_some_iff] at hget; exact .inl ⟨row, hget.1, hu⟩
    · exact .inr hin

-- A code that can be used after a command could be used before, or the command
-- has made it. An accepted code could be used before and cannot after.
theorem Effect.codes {answer : Answer c} (h : Effect env store c answer next) :
    (∀ hash, next.unusedHash hash → store.unusedHash hash ∨ hash ∈ c.generated) ∧
      ∀ hash ∈ acceptedCode c answer, store.unusedHash hash ∧ ¬ next.unusedHash hash := by
  have hs (hcodes : next.codes = store.codes) (hash : String) (hu : next.unusedHash hash) :
      store.unusedHash hash ∨ hash ∈ c.generated := .inl (by rwa [unusedHash, hcodes] at hu)
  cases h with
  | enroll _ _ hcodes => exact ⟨fun hash => unused_of_replaceAll hcodes, forall_mem_nil _⟩
  | replaceCodes hused hcodes =>
    obtain ⟨rfl, -⟩ := markUsed_eq_ok hused
    exact ⟨fun hash => unused_of_replaceAll hcodes, forall_mem_nil _⟩
  | @codeAccepted attempt left now userID hash hu =>
    obtain ⟨row, hrow, hcond⟩ := (store.codes.affected_pos_iff _).mp hu
    simp only [unusedCode, Bool.and_eq_true, decide_eq_true_eq] at hcond
    have hget := (store.codes.get_eq_some_iff _ _).mpr ⟨hrow, hcond.1.2⟩
    simp only [unusedHash, noteAccepted_eq, Table.get_update, map_eq_some_iff]
    refine ⟨?_, fun other ho => ?_⟩
    · rintro other ⟨-, ⟨old, hold, rfl⟩, hf⟩
      split at hf
      · cases hf
      · exact .inl ⟨old, hold, hf⟩
    · obtain rfl : other = hash := mem_singleton.mp ho
      refine ⟨⟨row, hget, hcond.2⟩, ?_⟩
      rintro ⟨-, ⟨old, hold, rfl⟩, hf⟩
      obtain rfl : row = old := some.inj (hget.symm.trans hold)
      simp [unusedCode, hcond, spend] at hf
  | removeFactor =>
    refine ⟨?_, forall_mem_nil _⟩
    rintro hash ⟨row, hr, hu⟩
    have hr : (store.codes.delete _).get hash = some row := hr
    rw [Table.get_delete, filter_eq_some_iff] at hr
    exact .inl ⟨row, hr.1, hu⟩
  | enable he =>
    obtain ⟨used, hused, h⟩ := bind_eq_ok he
    obtain ⟨confirmed, hc, h⟩ := bind_eq_ok h
    cases h
    obtain rfl := setEnabled_eq_ok hc
    obtain ⟨rfl, -⟩ := markUsed_eq_ok hused
    exact ⟨hs rfl, forall_mem_nil _⟩
  | markUsed hused =>
    obtain ⟨rfl, -⟩ := markUsed_eq_ok hused
    exact ⟨hs (by rw [noteAccepted_eq]), forall_mem_nil _⟩
  | compareTOTP | codeRefused => exact ⟨hs (by rw [noteCompared_eq]), forall_mem_nil _⟩
  | createChallenge => exact ⟨hs (by rw [noteTicket_eq]), forall_mem_nil _⟩
  | issueDevice hi =>
    obtain ⟨settings, evicted, devices, -, -, -, -, -, rfl⟩ := issueDevice_eq_ok hi
    exact ⟨hs rfl, forall_mem_nil _⟩
  | quiet hq => exact ⟨hs rfl, fun _ h => by cases c <;> first | cases h | cases hq⟩
  | _ => exact ⟨hs rfl, fun _ h => by cases h⟩

end Codes

section Runs

variable {env : Env} {userID : String} {s next : State} {label : Label}

theorem step_commits (h : (system env).step s label = some next) :
    ((∀ β (pick : (c : Command) → Answer c → List β), commits env pick s label = []) ∧
        next.store.mfa = s.store.mfa ∧ next.store.codes = s.store.codes) ∨
      ∃ c answer, Effect env s.store c answer next.store ∧
        ∀ β (pick : (c : Command) → Answer c → List β), commits env pick s label = pick c answer := by
  cases label with
  | start request => obtain rfl := step_start_eq_some h; exact .inl ⟨fun _ _ => rfl, rfl, rfl⟩
  | event e =>
    obtain ⟨store, hchange, rfl⟩ := step_event_eq_some h
    cases e with
    | policy settings =>
      obtain ⟨old, -, rfl⟩ := map_eq_some_iff.mp hchange
      exact .inl ⟨fun _ _ => rfl, rfl, rfl⟩
    | accounts | sweepChallenges | sweepDevices =>
      cases hchange
      exact .inl ⟨fun _ _ => rfl, rfl, rfl⟩
  | move i input =>
    obtain ⟨p, store, moved, hp, hm, rfl⟩ := step_move_eq_some h
    obtain ⟨c, k, -, hc, rfl, rfl⟩ := Program.move_eq_some hm
    rcases exec_cases env s.store c input with ⟨e, he⟩ | ⟨store, answer, hrun, he⟩
    · refine .inl ⟨fun _ pick => ?_, by rw [he], by rw [he]⟩
      simp [commits, hp, hc, he, Except.toOption]
    · refine .inr ⟨c, answer, by rw [he]; exact run_effect hrun, fun _ pick => ?_⟩
      simp [commits, hp, hc, he, Except.toOption]

theorem steps_increase (labels : List Label) (h : Along (system env).step (SameEnrollment env userID) s labels) :
    (acceptedSteps env userID s labels).Pairwise (· < ·) := by
  refine (outputs_pairwise (Along (system env).step (SameEnrollment env userID)) (fun s _ x => ∃ row ∈ s.store.enrollment userID, row.2.2 < x)
    (fun s label rest next hs hf => ?_) s labels h).1
  obtain ⟨hk, hr⟩ := hf next hs
  refine ⟨hr, ?_⟩
  have hq {out : List ℤ} (hout : out = []) (hrow : ∀ row ∈ next.store.enrollment userID,
      row ∈ s.store.enrollment userID) : (∀ x, x ∈ out ∨ (∃ row ∈ next.store.enrollment userID, row.2.2 < x) →
        ∃ row ∈ s.store.enrollment userID, row.2.2 < x) ∧ out.Pairwise (· < ·) ∧
        ∀ x ∈ out, ∀ y, (∃ row ∈ next.store.enrollment userID, row.2.2 < y) → x < y := by
    subst hout
    refine ⟨?_, .nil, forall_mem_nil _⟩
    rintro x (hx | ⟨row, hmem, hlt⟩)
    · cases hx
    · exact ⟨row, hrow row hmem, hlt⟩
  rcases step_commits hs with ⟨hn, hmfa, -⟩ | ⟨c, answer, he, hp⟩
  · exact hq (hn _ _) fun row hrow => by rwa [enrollment, hmfa] at hrow
  rw [hp]
  cases he.enrollment with
  | none ho hsame => exact hq (if_neg (by simp [ho])) fun row hrow => hsame ▸ hrow
  | @enroll u secret password hashes hsets =>
    refine hq (by simp [acceptedStep, Command.usedStep]) fun row hrow => ?_
    have hne : userID ≠ u := by rintro rfl; exact hk ((hp _ _).trans (by simp [Command.replaces]))
    rwa [hsets userID, if_neg hne] at hrow
  | @remove u action hsets =>
    refine hq (by simp [acceptedStep, Command.usedStep]) fun row hrow => ?_
    rw [hsets userID] at hrow
    split at hrow
    · cases hrow
    · exact hrow
  | @used u step secret status last _ huser hstep hb hlt hsets =>
    by_cases hu : userID = u
    · subst hu
      have hout : acceptedStep userID c answer = [step] := by simp [acceptedStep, huser, hstep]
      rw [hout, hsets userID, if_pos rfl, hb]
      simp only [mem_singleton, mem_def, some.injEq, exists_eq_left', pairwise_singleton]
      refine ⟨fun x hx => ?_, trivial, fun x hx y hy => hx ▸ hy⟩
      rcases hx with rfl | hx
      · exact hlt
      · exact hlt.trans hx
    · refine hq (if_neg ?_) fun row hrow => by rwa [hsets userID, if_neg hu] at hrow
      rw [huser]
      exact fun h => hu (some.inj h).symm

theorem codes_accepted_once (labels : List Label) (h : FreshCodes env s labels) :
    (acceptedCodes env s labels).Nodup := by
  refine (outputs_pairwise (FreshCodes env) (fun s labels hash => s.store.unusedHash hash ∨
    hash ∈ generatedCodes env s labels) (fun s label rest next hs hfits => ?_) s labels h).1
  obtain ⟨hf, hd⟩ := hfits
  have hcons : generatedCodes env s (label :: rest) =
      commits env (fun c _ => c.generated) s label ++ generatedCodes env next rest := by
    rw [generatedCodes, outputs, hs, elim_some]
  rw [hcons] at hf hd
  obtain ⟨-, hr, hapart⟩ := nodup_append.mp hd
  have hc : (∀ hash, next.store.unusedHash hash →
      s.store.unusedHash hash ∨ hash ∈ commits env (fun c _ => c.generated) s label) ∧
      (∀ hash ∈ commits env acceptedCode s label, s.store.unusedHash hash ∧ ¬ next.store.unusedHash hash) ∧
      (commits env acceptedCode s label).Nodup := by
    rcases step_commits hs with ⟨hn, -, hsame⟩ | ⟨c, answer, he, hp⟩
    · simp only [hn, unusedHash, hsame]; exact ⟨fun _ => .inl, forall_mem_nil _, .nil⟩
    rw [hp, hp]
    refine ⟨he.codes.1, he.codes.2, ?_⟩
    unfold acceptedCode
    split <;> simp
  obtain ⟨hm, ha, ho⟩ := hc
  refine ⟨⟨fun hash hu hl => ?_, hr⟩, fun hash hmay => ?_, ho, fun hash hin other hmay => ?_⟩
  · rcases hm hash hu with hold | hnow
    · exact hf hash hold (mem_append_right _ hl)
    · exact hapart hash hnow hash hl rfl
  · rw [hcons]
    rcases hmay with hin | hu | hl
    · exact .inl (ha hash hin).1
    · exact (hm hash hu).imp_right (mem_append_left _)
    · exact .inr (mem_append_right _ hl)
  · rintro rfl
    obtain ⟨hold, hspent⟩ := ha hash hin
    rcases hmay with hu | hl
    · exact hspent hu
    · exact hf hash hold (mem_append_right _ hl)

end Runs

-- Within one enrollment the accepted time steps grow in the order of their
-- commits, and a recovery code is accepted once.
theorem accepted_codes_not_replayed (env : Env) (userID : String) (s : State) (labels : List Label) :
    (Along (system env).step (SameEnrollment env userID) s labels →
      (acceptedSteps env userID s labels).Pairwise (· < ·)) ∧
    (FreshCodes env s labels → (acceptedCodes env s labels).Nodup) :=
  ⟨steps_increase labels, codes_accepted_once labels⟩

def enrolledState : State :=
  (Transition.run (system sampleEnv).step (init sampleUsers none)
    (.start (.enroll "u" "pw" sampleDrawn) :: steps 0 2 (unix 60))).getD (init sampleUsers none)

def codesRun : List Label :=
  .start (.enable "u" "000000") :: steps 1 4 (unix 60) ++ .start (.disable "u" "TMRC-A" false) :: steps 2 3 (unix 90)

theorem enrolled_codes_not_replayed : (acceptedSteps sampleEnv "u" enrolledState codesRun = [2] ∧
      acceptedCodes sampleEnv enrolledState codesRun = ["TMRCA"]) ∧
    (acceptedSteps sampleEnv "u" enrolledState codesRun).Pairwise (· < ·) ∧
      (acceptedCodes sampleEnv enrolledState codesRun).Nodup := by
  have hgenerated : generatedCodes sampleEnv enrolledState codesRun = [] := by decide +kernel
  obtain ⟨hsteps, hcodes⟩ := accepted_codes_not_replayed sampleEnv "u" enrolledState codesRun
  refine ⟨by decide +kernel, hsteps (by decide +kernel), hcodes ⟨fun hash _ => ?_, ?_⟩⟩
  · rw [hgenerated]; exact not_mem_nil
  · rw [hgenerated]; exact nodup_nil

end TunnelMesh.Auth
