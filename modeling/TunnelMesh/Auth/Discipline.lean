import TunnelMesh.Auth.Services

namespace TunnelMesh.Auth

open LoginService MFAService List Text
open Program (Tracks Only)

abbrev Trace := Program.Trace Command Answer AuthError

def accepts (userID : String) (attempt : Option String) : (Σ c, Except AuthError (Answer c)) → Prop
  | ⟨.markUsed a u _, .ok _⟩ => a = attempt ∧ u = userID
  | ⟨.consumeCode a u _, .ok (some _)⟩ => a = attempt ∧ u = userID
  | _ => False

def enabledRow (row : Option UserMFA) : Bool := row.any fun row => row.status = .enabled

variable (trace : Trace)

def Grounded (userID : String) : Grounds → Prop
  | .verified challengeID =>
    (∃ e ∈ trace, accepts userID (some challengeID) e) ∧ ⟨.consumeChallenge challengeID, .ok true⟩ ∈ trace
  | .waived settings user mfaEnabled =>
    user.id = userID ∧ (resolvePolicy settings user mfaEnabled).required = false ∧
      ⟨.seedSettings, .ok settings⟩ ∈ trace ∧ ∃ row, ⟨.getMFA userID, .ok row⟩ ∈ trace ∧ mfaEnabled = enabledRow row
  | .bypass device now =>
    device.userID = userID ∧ device.revokedAt = none ∧ now < device.expiresAt ∧
      ∃ hash, ⟨.readDevice hash, .ok (some device)⟩ ∈ trace
  | .ticket ticketID =>
    ∃ challengeID row user, ⟨.getChallenge challengeID, .ok (some row)⟩ ∈ trace ∧
      ⟨.getUser row.userID, .ok user⟩ ∈ trace ∧ row.kind = .loginTicket ∧ row.id = ticketID ∧ user.id = userID

def issuesToken : Command → Bool
  | .issueToken _ _ _ => true
  | _ => false

def allowed : Command → Prop
  | .issueToken userID _ grounds => Grounded trace userID grounds ∧ ∀ e ∈ trace, issuesToken e.1 = false
  | .issueDevice userID _ grounds => Grounded trace userID grounds
  | .createChallenge .loginTicket userID _ _ maxAttempts (some grounds) =>
    Grounded trace userID grounds ∧ 0 < maxAttempts
  | .createChallenge .loginMFA _ _ _ maxAttempts none => 0 < maxAttempts
  | .createChallenge _ _ _ _ _ _ => False
  | .removeFactor userID action => action = disableAction → ∃ e ∈ trace, accepts userID none e
  | _ => True

def plain : Command → Prop
  | .issueToken _ _ _ | .issueDevice _ _ _ | .removeFactor _ _ => False
  | .createChallenge .loginMFA _ _ _ maxAttempts none => 0 < maxAttempts
  | .createChallenge _ _ _ _ _ _ => False
  | _ => True

theorem allowed_of_plain (c : Command) (h : plain c) : allowed trace c := by
  cases c with
  | createChallenge kind userID payload ttl maxAttempts grounds =>
    cases kind <;> cases grounds <;> first | exact h | exact h.elim
  | issueToken | issueDevice | removeFactor => exact h.elim
  | _ => trivial

theorem issuesToken_of_plain (h : plain c) : issuesToken c = false := by
  cases c <;> first | exact h.elim | rfl

theorem Grounded.mono {trace longer : Trace} {userID : String}
    (h : Grounded trace userID grounds) (hsub : trace ⊆ longer) : Grounded longer userID grounds := by
  cases grounds with
  | verified challengeID => obtain ⟨⟨e, he, ha⟩, hc⟩ := h; exact ⟨⟨e, hsub he, ha⟩, hsub hc⟩
  | waived settings user mfaEnabled =>
    obtain ⟨hid, hr, hs, row, hrow, henabled⟩ := h
    exact ⟨hid, hr, hsub hs, row, hsub hrow, henabled⟩
  | bypass device now =>
    obtain ⟨hid, hrevoked, hexpires, hash, hread⟩ := h
    exact ⟨hid, hrevoked, hexpires, hash, hsub hread⟩
  | ticket ticketID =>
    obtain ⟨challengeID, row, user, hrow, hu, hk, hrowID, hid⟩ := h
    exact ⟨challengeID, row, user, hsub hrow, hsub hu, hk, hrowID, hid⟩

def Grown (longer : Trace) : Prop := ∃ new, longer = new ++ trace ∧ ∀ e ∈ new, plain e.1

theorem Grown.subset {trace longer : Trace} (h : Grown trace longer) : trace ⊆ longer := by
  obtain ⟨new, rfl, -⟩ := h
  exact subset_append_right new trace

theorem Grown.refl : Grown trace trace := ⟨[], rfl, by simp⟩

theorem Grown.cons {trace longer : Trace} (h : Grown trace longer) {c : Command} (hc : plain c)
    (answer : Except AuthError (Answer c)) : Grown trace (⟨c, answer⟩ :: longer) := by
  obtain ⟨new, rfl, hnew⟩ := h
  refine ⟨⟨c, answer⟩ :: new, rfl, ?_⟩
  intro e he
  rcases mem_cons.mp he with rfl | he
  · exact hc
  · exact hnew e he

theorem Grown.trans {trace mid longer : Trace} (h : Grown trace mid) (h' : Grown mid longer) : Grown trace longer := by
  obtain ⟨new, rfl, hnew⟩ := h
  obtain ⟨newer, rfl, hn⟩ := h'
  refine ⟨newer ++ new, by simp, fun e he => ?_⟩
  rcases mem_append.mp he with he | he
  · exact hn e he
  · exact hnew e he

theorem Grown.no_token (h : Grown [] longer) : ∀ e ∈ longer, issuesToken e.1 = false := by
  obtain ⟨new, rfl, hnew⟩ := h
  rw [append_nil]
  exact fun e he => issuesToken_of_plain (hnew e he)

variable (env : Env)

section Plain

theorem only_call {α : Type} {f : Answer c → Act α} (hc : plain c) (h : ∀ answer, (f answer).Only plain) :
    (call c >>= f).Only plain :=
  Only.bind (Only.perform hc) h

theorem load_only (userID : String) : (load env userID).Only plain := by
  refine only_call trivial fun row => ?_
  cases row with
  | none => exact True.intro
  | some row => exact Only.ite (only_call trivial fun now => True.intro) True.intro

theorem openSecret_only (row : UserMFA) : (openSecret env row).Only plain :=
  Only.ite True.intro (Only.fromExcept _)

theorem enroll_only (userID currentPassword : String) (drawn : Except AuthError Drawn) :
    (enroll env userID currentPassword drawn).Only plain := by
  refine Only.ite True.intro (Only.bind (Only.fromExcept drawn) fun drawn => ?_)
  refine only_call trivial fun _ => ?_
  exact only_call trivial fun now => True.intro

theorem enable_only (userID code : String) : (enable env userID code).Only plain := by
  refine Only.bind (load_only env userID) fun row => ?_
  cases row with
  | none => exact True.intro
  | some row =>
    refine Only.ite True.intro (Only.bind (openSecret_only env row) fun secret => ?_)
    refine only_call trivial fun step => ?_
    cases step with
    | none => exact True.intro
    | some step => exact Only.perform (by trivial)

theorem regenerateRecoveryCodes_only (userID code : String) (drawn : Except AuthError Drawn) :
    (regenerateRecoveryCodes env userID code drawn).Only plain := by
  refine Only.bind (load_only env userID) fun row => ?_
  cases row with
  | none => exact True.intro
  | some row =>
    refine Only.ite True.intro (Only.bind (openSecret_only env row) fun secret => ?_)
    refine only_call trivial fun step => ?_
    cases step with
    | none => exact True.intro
    | some step =>
      refine Only.bind (Only.fromExcept drawn) fun drawn => ?_
      exact only_call trivial fun _ => True.intro

theorem create_only (userID : String) (payload : List (String × String)) (ttl maxAttempts : ℕ) :
    (ChallengeStore.create env .loginMFA userID payload ttl maxAttempts none).Only plain := by
  have hmax : 0 < if maxAttempts = 0 then 1 else maxAttempts := by split <;> omega
  exact Only.ite True.intro (Only.perform hmax)

theorem requireMFA_only (user : User) (method clientIP : String) (mfaEnabled : Bool) :
    (requireMFA env user method clientIP mfaEnabled).Only plain := by
  refine Only.bind (create_only env _ _ _ _) fun id => ?_
  refine only_call trivial fun _ => ?_
  exact only_call trivial fun now => True.intro

theorem failLogin_only (bucket : String) : (failLogin bucket).Only plain := by
  refine only_call trivial fun _ => ?_
  exact only_call trivial fun _ => True.intro

end Plain

section Tracks

variable {env} {trace : Trace}

theorem perform_tracks {c : Command} (hc : plain c) :
    (call c).Tracks allowed (fun after a => after = ⟨c, .ok a⟩ :: trace ∧ Grown trace after) trace :=
  (Tracks.perform (allowed_of_plain trace c hc)).mono fun _ _ ha =>
    ⟨ha, ha ▸ (Grown.refl trace).cons hc _⟩

theorem tracks_call {α : Type} {c : Command} {f : Answer c → Act α} {post : Trace → α → Prop} (hc : plain c)
    (h : ∀ answer, Grown trace (⟨c, .ok answer⟩ :: trace) → (f answer).Tracks allowed post (⟨c, .ok answer⟩ :: trace)) :
    (call c >>= f).Tracks allowed post trace := by
  refine Tracks.bind (perform_tracks hc) ?_
  rintro after answer ⟨rfl, hg⟩
  exact h answer hg

abbrev Orderly {α : Type} (p : Act α) (trace : Trace) : Prop := p.Tracks allowed (fun _ _ => True) trace

theorem perform_orderly {c : Command} (hc : allowed trace c) : Orderly (call c) trace :=
  (Tracks.perform hc).mono fun _ _ _ => True.intro

theorem only_tracks {α : Type} {p : Act α} (hp : p.Only plain) :
    p.Tracks allowed (fun after _ => Grown trace after) trace :=
  hp.tracks allowed_of_plain

theorem attempt_tracks {α : Type} {p : Act α} (hp : p.Only plain) :
    p.attempt.Tracks allowed (fun after _ => Grown trace after) trace :=
  only_tracks hp.attempt

theorem plain_tracks {α : Type} {p : Act α} (h : p.Only plain) : Orderly p trace :=
  (only_tracks h).mono fun _ _ _ => True.intro

theorem load_tracks (userID : String) : (load env userID).Tracks allowed (fun after usable => Grown trace after ∧
      ∃ row, ⟨.getMFA userID, .ok row⟩ ∈ after ∧ enabledRow usable = enabledRow row) trace := by
  refine tracks_call trivial fun row hg => ?_
  cases row with
  | none => exact ⟨hg, none, mem_cons_self, rfl⟩
  | some row =>
    refine Tracks.ite (fun hp => ?_) fun _ => ⟨hg, some row, mem_cons_self, rfl⟩
    refine tracks_call trivial fun now ha => ?_
    refine ⟨hg.trans ha, some row, by simp, ?_⟩
    split <;> simp [enabledRow, hp]

theorem isEnabled_tracks (userID : String) :
    (isEnabled env userID).Tracks allowed (fun after enabled => Grown trace after ∧
      ∃ row, ⟨.getMFA userID, .ok row⟩ ∈ after ∧ enabled = enabledRow row) trace :=
  Tracks.bind (load_tracks userID) fun _ _ h => h

theorem verifyCode_tracks (attempt : Option String) (userID code : String) :
    (verifyCode env attempt userID code).Tracks allowed (fun after _ => Grown trace after ∧
      ∃ e ∈ after, accepts userID attempt e) trace := by
  refine Tracks.bind (only_tracks (load_only env userID)) fun loaded row hl => ?_
  cases row with
  | none => exact True.intro
  | some row =>
    refine Tracks.guard fun _ => ?_
    generalize isRecoveryCode code = recovery
    cases recovery with
    | true =>
      refine tracks_call trivial fun left ha => ?_
      cases left with
      | none => exact True.intro
      | some left => exact ⟨hl.trans ha, _, mem_cons_self, rfl, rfl⟩
    | false =>
      refine Tracks.bind (only_tracks (openSecret_only env row)) fun opened secret ho => ?_
      refine tracks_call trivial fun step hc => ?_
      cases step with
      | none => exact True.intro
      | some step =>
        refine tracks_call trivial fun _ hm => ?_
        refine tracks_call trivial fun remaining hcounted => ?_
        have hg := ((hl.trans ho).trans hc).trans (hm.trans hcounted)
        exact ⟨hg, _, mem_cons_of_mem _ mem_cons_self, rfl, rfl⟩

theorem challengeLoad_tracks (challengeID : String) (kind : ChallengeKind) :
    (ChallengeStore.load env challengeID kind).Tracks allowed (fun after challenge =>
      Grown trace after ∧ ∃ row, ⟨.getChallenge challengeID, .ok (some row)⟩ ∈ after ∧
        row.kind = kind ∧ row.id = challenge.id ∧ row.userID = challenge.userID) trace := by
  refine tracks_call trivial fun row hr => ?_
  cases row with
  | none => exact True.intro
  | some row =>
    refine Tracks.guard fun hv => ?_
    refine tracks_call trivial fun now hc => ?_
    refine Tracks.guard fun _ => Tracks.guard fun _ => ?_
    refine tracks_call trivial fun payload ho => ?_
    have hk : row.kind = kind := by by_contra hk; exact hv (.inl hk)
    exact ⟨(hr.trans hc).trans ho, row, by simp, hk, rfl, rfl⟩

theorem trustedDevice_tracks (policy : AuthPolicy) (deviceToken : String) :
    (trustedDevice env policy deviceToken).Tracks allowed (fun after found =>
      Grown trace after ∧ ∀ device now, found = some (device, now) → device.revokedAt = none ∧
        now < device.expiresAt ∧ ∃ hash, ⟨.readDevice hash, .ok (some device)⟩ ∈ after) trace := by
  have hn : Grown trace trace ∧ ∀ (device : UserDevice) (now : ℕ), none = some (device, now) →
      device.revokedAt = none ∧ now < device.expiresAt ∧
        ∃ hash, (⟨.readDevice hash, .ok (some device)⟩ : Σ c, Except AuthError (Answer c)) ∈ trace :=
    ⟨Grown.refl trace, by simp⟩
  generalize trimSpace deviceToken = trimmed
  refine Tracks.ite (fun _ => Tracks.ite (fun _ => hn) fun _ => ?_) fun _ => hn
  refine tracks_call trivial fun device hread => ?_
  cases device with
  | none => exact ⟨hread, by simp⟩
  | some device =>
    refine tracks_call trivial fun now hc => ?_
    have hg := hread.trans hc
    refine Tracks.ite (fun _ => ⟨hg, by simp⟩) fun hv => ?_
    have hr : device.revokedAt = none := by by_contra hr; exact hv (.inl hr)
    have he : now < device.expiresAt := by by_contra he; exact hv (.inr (Nat.le_of_not_lt he))
    have hf : ∀ after : Trace, ⟨.readDevice (hashDeviceToken env.prim deviceToken), .ok (some device)⟩ ∈ after →
        ∀ other at_, some (device, now) = some (other, at_) → other.revokedAt = none ∧
          at_ < other.expiresAt ∧ ∃ hash, ⟨.readDevice hash, .ok (some other)⟩ ∈ after := by
      intro after hmem other at_ heq
      cases heq
      exact ⟨hr, he, _, hmem⟩
    refine Tracks.ite (fun _ => ?_) fun _ => ⟨hg, hf _ (by simp)⟩
    refine Tracks.bind (attempt_tracks (Only.perform (by trivial))) fun after _ ht => ?_
    exact ⟨hg.trans ht, hf _ (ht.subset (by simp))⟩

def decisionGrounds : Decision → Option Grounds
  | .free grounds => some grounds
  | .trusted grounds => some grounds
  | .owed => none

theorem judge_tracks {settings : AuthSettings} {user : User} (hs : ⟨.seedSettings, .ok settings⟩ ∈ trace)
    (hrow : ⟨.getMFA user.id, .ok row⟩ ∈ trace) (he : mfaEnabled = enabledRow row) (deviceToken : String) :
    (judge env settings user mfaEnabled deviceToken).Tracks allowed (fun after verdict => Grown trace after ∧
        ∀ grounds ∈ decisionGrounds verdict.decision, Grounded after user.id grounds) trace := by
  refine Tracks.ite (fun hr => ⟨Grown.refl trace, ?_⟩) fun _ => ?_
  · rintro grounds hg
    cases hg
    exact ⟨rfl, hr, hs, row, hrow, he⟩
  · refine Tracks.bind (trustedDevice_tracks _ deviceToken) ?_
    rintro after found ⟨hgrown, hf⟩
    cases found with
    | none => exact ⟨hgrown, by simp [decisionGrounds]⟩
    | some found =>
      refine Tracks.ite (fun hid => ⟨hgrown, ?_⟩) fun _ => ⟨hgrown, by simp [decisionGrounds]⟩
      intro grounds hg
      cases hg
      obtain ⟨hrevoked, hexpires, hread⟩ := hf _ _ rfl
      exact ⟨hid, hrevoked, hexpires, hread⟩

theorem assess_tracks (user : User) (deviceToken : String) :
    (assess env user deviceToken).Tracks allowed (fun after verdict =>
      Grown trace after ∧ ∀ grounds ∈ decisionGrounds verdict.decision, Grounded after user.id grounds) trace := by
  refine tracks_call trivial fun settings hr => ?_
  refine Tracks.bind (isEnabled_tracks user.id) ?_
  rintro loaded mfaEnabled ⟨hl, row, hrow, he⟩
  have hs := hl.subset (mem_cons_self (a := ⟨.seedSettings, .ok settings⟩) (l := trace))
  refine (judge_tracks hs hrow he deviceToken).mono ?_
  rintro after verdict ⟨hgrown, hg⟩
  exact ⟨(hr.trans hl).trans hgrown, hg⟩

theorem deviceIssue_tracks {userID : String} {grounds : Grounds} (hg : Grounded trace userID grounds) :
    Orderly (DeviceService.issue userID grounds) trace := by
  generalize trimSpace userID = trimmed
  refine Tracks.guard fun _ => ?_
  refine tracks_call trivial fun now hc => ?_
  exact perform_orderly (hg.mono hc.subset)

theorem succeed_tracks (outcome : LoginOutcome) : Orderly (succeed outcome) trace :=
  tracks_call trivial fun _ _ => True.intro

theorem issue_tracks {user : User} {grounds : Grounds} (method : String)
    (trustDevice alreadyTrusted : Bool) (policy : AuthPolicy) (hgrown : Grown [] trace)
    (hg : Grounded trace user.id grounds) :
    Orderly (issue user method trustDevice alreadyTrusted policy grounds) trace := by
  have ha : allowed trace (.issueToken user.id policy.sessionTokenTTL grounds) :=
    ⟨hg, hgrown.no_token⟩
  refine Tracks.bind (Tracks.perform ha) ?_
  rintro issued token rfl
  have hi := hg.mono (subset_cons_of_subset
    ⟨.issueToken user.id policy.sessionTokenTTL grounds, .ok token⟩ (List.Subset.refl trace))
  have hd := (deviceIssue_tracks hi).attempt_true
  generalize (DeviceService.issue user.id grounds).attempt = trusting at hd ⊢
  refine Tracks.ite (fun _ => ?_) fun _ => succeed_tracks _
  refine Tracks.bind hd fun after result _ => ?_
  cases result with
  | error e => exact Tracks.ite (fun _ => succeed_tracks _) fun _ => True.intro
  | ok device => exact succeed_tracks _

theorem complete_tracks (user : User) (method clientIP : String) (trustDevice : Bool)
    (deviceToken : String) (hgrown : Grown [] trace) :
    Orderly (complete env user method clientIP trustDevice deviceToken) trace := by
  refine Tracks.bind (assess_tracks user deviceToken) ?_
  rintro after ⟨policy, mfaEnabled, decision⟩ ⟨ha, hg⟩
  cases decision with
  | free grounds | trusted grounds => exact issue_tracks _ _ _ _ (hgrown.trans ha) (hg grounds rfl)
  | owed => exact plain_tracks (requireMFA_only env _ _ _ _)

theorem login_tracks (req : LoginRequest) (hg : Grown [] trace) : Orderly (login env req) trace := by
  have hf : ∀ {after : Trace} (bucket : String), Orderly (failLogin bucket) after :=
    fun bucket => plain_tracks (failLogin_only bucket)
  refine tracks_call trivial fun blocked ht => ?_
  refine Tracks.ite (fun _ => ?_) fun _ => ?_
  · exact tracks_call trivial fun _ _ => True.intro
  · refine Tracks.bind (attempt_tracks (Only.perform (by trivial))) fun read user hr => ?_
    cases user with
    | error e => exact hf _
    | ok user =>
      refine Tracks.ite (fun _ => hf _) fun _ => ?_
      refine tracks_call trivial fun _ ha => ?_
      exact complete_tracks _ _ _ _ _ (((hg.trans ht).trans hr).trans ha)

theorem verifyMFA_tracks (challengeID code : String) (trustDevice : Bool) (hgrown : Grown [] trace) :
    Orderly (verifyMFA env challengeID code trustDevice) trace := by
  refine Tracks.bind (challengeLoad_tracks _ _) ?_
  rintro loaded challenge ⟨hl, -⟩
  refine Tracks.bind (attempt_tracks (Only.perform (by trivial))) fun read user hr => ?_
  cases user with
  | error e => exact True.intro
  | ok user =>
    have hcode : (verifyCode env (some challenge.id) user.id code).attempt.Tracks allowed
        (fun after result => result.isOk → Grown read after ∧
          ∃ e ∈ after, accepts user.id (some challenge.id) e) read :=
      Tracks.attempt ((verifyCode_tracks _ _ _).mono fun _ _ h _ => h) fun _ _ h => by cases h
    refine Tracks.guard fun _ => ?_
    refine Tracks.bind hcode fun verified result hv => ?_
    cases result with
    | error e =>
      refine Tracks.ite (fun _ => ?_) fun _ => True.intro
      refine tracks_call trivial fun _ _ => ?_
      exact tracks_call trivial fun _ _ => True.intro
    | ok result =>
      obtain ⟨hv, e, he, haccepts⟩ := hv rfl
      refine tracks_call trivial fun consumed hc => ?_
      refine Tracks.guard fun ht => ?_
      obtain rfl : consumed = true := by simpa using ht
      refine tracks_call trivial fun settings hs => ?_
      have ha := hc.trans hs
      have hg : Grounded (⟨.seedSettings, .ok settings⟩ ::
          ⟨.consumeChallenge challenge.id, .ok true⟩ :: verified) user.id (.verified challenge.id) :=
        ⟨⟨e, ha.subset he, haccepts⟩, by simp⟩
      refine Tracks.bind (issue_tracks _ _ _ _ ?_ hg) fun _ _ _ => True.intro
      exact (((hgrown.trans hl).trans hr).trans hv).trans ha

theorem requireMFA_tracks (user : User) (method clientIP : String) (mfaEnabled : Bool) :
    (requireMFA env user method clientIP mfaEnabled).Tracks allowed
      (fun _ outcome => outcome.state = .mfaRequired) trace := by
  refine Tracks.bind (only_tracks (create_only env _ _ _ _)) fun _ _ _ => ?_
  refine tracks_call trivial fun _ _ => ?_
  exact tracks_call trivial fun _ _ => rfl

theorem completeOIDCLogin_tracks (ticketTTL : ℕ) (provider : String) (user : User) (clientIP deviceToken : String) :
    Orderly (completeOIDCLogin env ticketTTL provider user clientIP deviceToken) trace := by
  have hp : (prepareOIDCLogin env user clientIP deviceToken).Tracks allowed
      (fun after prepared => prepared.1.state ≠ .mfaRequired →
        ∃ grounds, prepared.2 = some grounds ∧ Grounded after user.id grounds) trace := by
    refine Tracks.bind (assess_tracks user deviceToken) ?_
    rintro after ⟨policy, mfaEnabled, decision⟩ ⟨-, hg⟩
    cases decision with
    | free grounds | trusted grounds => exact fun _ => ⟨grounds, rfl, hg grounds rfl⟩
    | owed => exact Tracks.bind (requireMFA_tracks _ _ _ _) fun _ _ ho hs => (hs ho).elim
  refine Tracks.bind hp ?_
  rintro after ⟨outcome, grounds⟩ ha
  refine Tracks.ite (fun _ => True.intro) fun hs => ?_
  obtain ⟨grounds, rfl, hg⟩ := ha hs
  refine Tracks.guard fun _ => ?_
  exact perform_orderly ⟨hg, Nat.one_pos⟩

theorem issueSession_tracks {user : User} {grounds : Grounds} (method : String)
    (trustDevice alreadyTrusted : Bool) (hgrown : Grown [] trace) (hg : Grounded trace user.id grounds) :
    Orderly (issueSession env user method trustDevice alreadyTrusted grounds) trace := by
  refine tracks_call trivial fun settings hr => ?_
  refine Tracks.ite (fun _ => ?_) fun _ => ?_
  · exact issue_tracks _ _ _ _ (hgrown.trans hr) (hg.mono hr.subset)
  · refine Tracks.bind (isEnabled_tracks user.id) ?_
    rintro after mfaEnabled ⟨ha, -⟩
    have hg := hg.mono (hr.trans ha).subset
    exact issue_tracks _ _ _ _ (hgrown.trans (hr.trans ha)) hg

theorem exchangeOIDCTicket_tracks (ticket : String) (trustDevice : Bool) (hg : Grown [] trace) :
    Orderly (exchangeOIDCTicket env ticket trustDevice) trace := by
  have hload : (ChallengeStore.load env (trimSpace ticket) .loginTicket).attempt.Tracks allowed
      (fun after challenge => ∀ c, challenge = .ok c → Grown trace after ∧
        ∃ row, ⟨.getChallenge (trimSpace ticket), .ok (some row)⟩ ∈ after ∧
          row.kind = .loginTicket ∧ row.id = c.id ∧ row.userID = c.userID) trace := by
    refine Tracks.attempt ((challengeLoad_tracks _ _).mono ?_) (by simp)
    rintro after challenge h c hc
    cases hc
    exact h
  refine Tracks.bind hload fun loaded challenge hl => ?_
  cases challenge with
  | error e => exact True.intro
  | ok challenge =>
    obtain ⟨hl, row, hrow, hk, hid, hu⟩ := hl challenge rfl
    refine Tracks.bind (perform_tracks (by trivial)) ?_
    rintro consuming consumed ⟨-, hconsuming⟩
    refine Tracks.guard fun _ => ?_
    have hget : (call (.getUser challenge.userID)).attempt.Tracks allowed
        (fun after answer => ∀ user, answer = .ok user → Grown consuming after ∧
          ⟨.getUser challenge.userID, .ok user⟩ ∈ after) consuming := by
      refine Tracks.attempt ((perform_tracks (by trivial)).mono ?_) (by simp)
      rintro after user ⟨rfl, ha⟩ found hf
      cases hf
      exact ⟨ha, mem_cons_self⟩
    refine Tracks.bind hget fun read user hr => ?_
    cases user with
    | error e => exact True.intro
    | ok user =>
      obtain ⟨hr, hf⟩ := hr user rfl
      refine Tracks.guard fun _ => ?_
      refine issueSession_tracks _ _ _ (((hg.trans hl).trans hconsuming).trans hr) ?_
      refine ⟨_, row, user, (hconsuming.trans hr).subset hrow, ?_, hk, hid, rfl⟩
      rw [hu]
      exact hf

theorem disable_tracks (userID code : String) (required : Bool) : Orderly (disable env userID code required) trace := by
  refine Tracks.guard fun _ => ?_
  refine Tracks.bind (only_tracks (load_only env userID)) fun loaded row _ => ?_
  cases row with
  | none => exact True.intro
  | some row =>
    refine Tracks.guard fun _ => ?_
    refine Tracks.bind (verifyCode_tracks none userID code) ?_
    rintro after _ ⟨-, ha⟩
    exact perform_orderly (fun _ => ha)

theorem adminReset_tracks (userID : String) : Orderly (adminReset userID) trace := by
  have ha : "auth.mfa.reset" ≠ disableAction := by decide
  exact perform_orderly (fun h => (ha h).elim)

end Tracks

theorem discard_tracks {α : Type} {p : Act α} {trace : Trace} (h : Orderly p trace) : Orderly (discard p) trace :=
  Tracks.bind h fun _ _ _ => True.intro

theorem start_tracks (request : Request) : Orderly (start env request) [] := by
  have hg : Grown [] [] := Grown.refl []
  cases request with
  | login req => exact discard_tracks (login_tracks req hg)
  | verifyMFA challengeID code trustDevice =>
    exact discard_tracks (verifyMFA_tracks challengeID code trustDevice hg)
  | issueForAuthenticatedUser user method clientIP trustDevice deviceToken =>
    exact discard_tracks (complete_tracks user _ clientIP trustDevice deviceToken hg)
  | completeOIDCLogin ticketTTL provider user clientIP deviceToken =>
    exact discard_tracks (completeOIDCLogin_tracks ticketTTL provider user clientIP deviceToken)
  | exchangeOIDCTicket ticket trustDevice =>
    exact discard_tracks (exchangeOIDCTicket_tracks ticket trustDevice hg)
  | enroll userID currentPassword drawn =>
    exact discard_tracks (plain_tracks (enroll_only env userID currentPassword drawn))
  | enable userID code => exact plain_tracks (enable_only env userID code)
  | disable userID code required => exact disable_tracks userID code required
  | adminReset userID => exact adminReset_tracks userID
  | regenerateRecoveryCodes userID code drawn =>
    exact discard_tracks (plain_tracks (regenerateRecoveryCodes_only env userID code drawn))
  | isEnabled userID =>
    exact discard_tracks ((isEnabled_tracks userID).mono fun _ _ _ => True.intro)
  | revokeDevice actorID userID deviceID actorIsAdmin =>
    exact plain_tracks (Only.ite True.intro (Only.perform (by trivial)))
  | revokeAllDevices actorID userID actorIsAdmin =>
    exact discard_tracks (plain_tracks (Only.ite True.intro (Only.perform (by trivial))))

end TunnelMesh.Auth
