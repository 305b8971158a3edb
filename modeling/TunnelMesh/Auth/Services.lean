import TunnelMesh.Auth.Commands

namespace TunnelMesh.Auth

open Text Storage

open Program (fromExcept)

abbrev Act := Program Command Answer AuthError

def call (c : Command) : Act (Answer c) := Program.perform c

structure VerifyResult where
  method : String
  remainingRecoveryCodes : ℕ
  recoveryCodesExhausted : Bool

inductive LoginState where
  | authenticated
  | mfaRequired
  deriving DecidableEq

structure LoginOutcome where
  state : LoginState
  user : User
  token : String := ""
  challengeID : String := ""
  methods : List String := []
  expiresAt : ℕ := 0
  method : String := ""
  deviceTrusted : Bool := false
  deviceToken : String := ""
  deviceExpiresAt : ℕ := 0
  recoveryCodesExhausted : Bool := false

structure Enrollment where
  secret : String
  recoveryCodes : List String
  expiresAt : ℕ

-- What `Enroll` draws at random: a secret, sealed, and codes with their hashes.
structure Drawn where
  secret : String
  sealed : Sealed
  codes : List String
  hashes : List String

variable (env : Env)

namespace MFAService

def load (userID : String) : Act (Option UserMFA) := do
  match ← call (.getMFA userID) with
  | none => return none
  | some row =>
    if row.status = .pending then
      let now ← call .clock
      return if now < row.enrolledAt + env.mfa.enrollmentTTL then some row else none
    else return some row

def isEnabled (userID : String) : Act Bool := do
  let row ← load env userID
  return row.any fun row => row.status = .enabled

def enroll (userID currentPassword : String) (drawn : Except AuthError Drawn) : Act Enrollment := do
  if env.available = false then .throw .secretStorageUnavailable
  else
    let drawn ← fromExcept drawn
    let _ ← call (.enroll userID currentPassword drawn.sealed drawn.hashes)
    let now ← call .clock
    return ⟨drawn.secret, drawn.codes, now + env.mfa.enrollmentTTL⟩

def openSecret (row : UserMFA) : Act String :=
  if env.available = false then .throw .secretStorageUnavailable
  else fromExcept (env.decrypt row.secret)

def enable (userID code : String) : Act Unit := do
  match ← load env userID with
  | none => .throw .mfaNotEnrolled
  | some row =>
    if row.status = .enabled then .throw .mfaAlreadyEnabled
    else
      let secret ← openSecret env row
      match ← call (.compareTOTP none secret code) with
      | none => .throw .mfaCodeInvalid
      | some step => call (.enable userID step)

def verifyRecoveryCode (attempt : Option String) (userID code : String) : Act VerifyResult := do
  match ← call (.consumeCode attempt userID (hashRecoveryCode env.prim code)) with
  | none => .throw .mfaCodeInvalid
  | some remaining => return ⟨"recovery", remaining, remaining = 0⟩

def verifyCode (attempt : Option String) (userID code : String) : Act VerifyResult := do
  match ← load env userID with
  | none => .throw .mfaNotEnrolled
  | some row =>
    if row.status ≠ .enabled then .throw .mfaPendingNotConfirmed
    else if isRecoveryCode code then verifyRecoveryCode env attempt userID code
    else
      let secret ← openSecret env row
      match ← call (.compareTOTP attempt secret code) with
      | none => .throw .mfaCodeInvalid
      | some step =>
        let _ ← call (.markUsed attempt userID step)
        let remaining ← call (.countUnused userID)
        return ⟨"totp", remaining, remaining = (0 : ℕ)⟩

def disableAction : String := "auth.mfa.disable"

def disable (userID code : String) (required : Bool) : Act Unit := do
  if required then .throw .mfaRequiredByPolicy
  else
    match ← load env userID with
    | none => .throw .mfaNotEnrolled
    | some row =>
      if row.status ≠ .enabled then .throw .mfaPendingNotConfirmed
      else
        let _ ← verifyCode env none userID code
        call (.removeFactor userID disableAction)

def adminReset (userID : String) : Act Unit := call (.removeFactor userID "auth.mfa.reset")

def regenerateRecoveryCodes (userID code : String) (drawn : Except AuthError Drawn) :
    Act (List String) := do
  match ← load env userID with
  | none => .throw .mfaNotEnrolled
  | some row =>
    if row.status ≠ .enabled then .throw .mfaPendingNotConfirmed
    else
      let secret ← openSecret env row
      match ← call (.compareTOTP none secret code) with
      | none => .throw .mfaCodeInvalid
      | some step =>
        let drawn ← fromExcept drawn
        let _ ← call (.replaceCodes userID step drawn.hashes)
        return drawn.codes

end MFAService

namespace ChallengeStore

def create (kind : ChallengeKind) (userID : String) (payload : List (String × String))
    (ttl maxAttempts : ℕ) (grounds : Option Grounds) : Act String :=
  if env.available = false then .throw .secretStorageUnavailable
  else call (.createChallenge kind userID payload (if ttl = 0 then 5 * minute else ttl)
    (if maxAttempts = 0 then 1 else maxAttempts) grounds)

def load (challengeID : String) (kind : ChallengeKind) : Act AuthChallenge := do
  match ← call (.getChallenge challengeID) with
  | none => .throw .challengeInvalid
  | some row =>
    if row.kind ≠ kind ∨ row.consumedAt ≠ none then .throw .challengeInvalid
    else
      let now ← call .clock
      if row.expiresAt ≤ (now : ℕ) then .throw .challengeInvalid
      else if env.available = false then .throw .secretStorageUnavailable
      else
        let payload ← call (.decryptPayload row)
        return { row with payload }

end ChallengeStore

namespace DeviceService

def issue (userID : String) (grounds : Grounds) : Act (String × UserDevice) := do
  if trimSpace userID = "" then .throw (.other "user id is required")
  else
    let now ← call .clock
    call (.issueDevice userID now grounds)

def validate (token : String) : Act (Option (UserDevice × ℕ)) := do
  if trimSpace token = "" then return none
  else
    match ← call (.readDevice (hashDeviceToken env.prim token)) with
    | none => return none
    | some device =>
      let now : ℕ ← call .clock
      if device.revokedAt ≠ none ∨ device.expiresAt ≤ now then return none
      else if device.lastSeenAt.all fun seen => (env.device.touchThrottle : ℤ) ≤ now - seen then
        -- A freshness write that fails is not a failed login.
        let _ ← (call (.touchDevice device.id now)).attempt
        return some (device, now)
      else return some (device, now)

def revoke (actorID userID deviceID : String) (actorIsAdmin : Bool) : Act Unit :=
  if actorIsAdmin = false ∧ actorID ≠ userID then .throw .forbidden
  else call (.revokeDevice userID deviceID)

def revokeAll (actorID userID : String) (actorIsAdmin : Bool) : Act ℕ :=
  if actorIsAdmin = false ∧ actorID ≠ userID then .throw .forbidden
  else call (.revokeAll userID)

end DeviceService

namespace LoginService

structure LoginRequest where
  username : String
  password : String
  clientIP : String
  trustDevice : Bool
  deviceToken : String

def loginBucketKey (username clientIP : String) : String :=
  env.prim.sha256 (env.prim.toLower username ++ "|" ++ trimSpace clientIP)

def succeed (outcome : LoginOutcome) : Act LoginOutcome := do
  let _ ← call (.audit "auth.login.success")
  return outcome

variable (user : User)

-- Device issuance is best-effort: with trust off the login is still valid.
def issue (method : String) (trustDevice alreadyTrusted : Bool) (policy : AuthPolicy)
    (grounds : Grounds) : Act LoginOutcome := do
  let token ← call (.issueToken user.id policy.sessionTokenTTL grounds)
  let outcome : LoginOutcome :=
    { state := .authenticated, user, token, method, deviceTrusted := alreadyTrusted }
  if trustDevice then
    match ← (DeviceService.issue user.id grounds).attempt with
    | .error e => if e = .deviceTrustDisabled then succeed outcome else .throw e
    | .ok (deviceToken, device) =>
      succeed { outcome with deviceToken, deviceExpiresAt := device.expiresAt, deviceTrusted := true }
  else succeed outcome

def requireMFA (method clientIP : String) (mfaEnabled : Bool) : Act LoginOutcome := do
  let methods := if mfaEnabled then ["totp", "recovery"] else ["totp"]
  let id ← ChallengeStore.create env .loginMFA user.id [("method", method), ("ip", clientIP)]
    env.login.challengeTTL env.login.challengeMaxAttempts none
  let _ ← call (.audit "auth.login.mfa_required")
  let now ← call .clock
  let expiresAt := now + env.login.challengeTTL
  return { state := .mfaRequired, user, challengeID := id, methods, expiresAt }

inductive Decision where
  | free (grounds : Grounds)
  | trusted (grounds : Grounds)
  | owed

structure Verdict where
  policy : AuthPolicy
  mfaEnabled : Bool
  decision : Decision

def trustedDevice (policy : AuthPolicy) (deviceToken : String) : Act (Option (UserDevice × ℕ)) :=
  if policy.allowTrustedDeviceBypass = true ∧ trimSpace deviceToken ≠ "" then
    DeviceService.validate env deviceToken
  else return none

def judge (settings : AuthSettings) (user : User) (mfaEnabled : Bool) (deviceToken : String) :
    Act Verdict := do
  let policy := resolvePolicy settings user mfaEnabled
  if policy.required = false then
    return ⟨policy, mfaEnabled, .free (.waived settings user mfaEnabled)⟩
  else
    match ← trustedDevice env policy deviceToken with
    | some (device, now) =>
      if device.userID = user.id then return ⟨policy, mfaEnabled, .trusted (.bypass device now)⟩
      else return ⟨policy, mfaEnabled, .owed⟩
    | none => return ⟨policy, mfaEnabled, .owed⟩

def assess (deviceToken : String) : Act Verdict := do
  let settings ← call .seedSettings
  let mfaEnabled ← MFAService.isEnabled env user.id
  judge env settings user mfaEnabled deviceToken

def complete (method clientIP : String) (trustDevice : Bool) (deviceToken : String) :
    Act LoginOutcome := do
  let verdict ← assess env user deviceToken
  match verdict.decision with
  | .free grounds => issue user method trustDevice false verdict.policy grounds
  | .trusted grounds => issue user method false true verdict.policy grounds
  | .owed => requireMFA env user method clientIP verdict.mfaEnabled

def failLogin (bucket : String) : Act LoginOutcome := do
  let _ ← call (.registerFailure bucket)
  let _ ← call (.audit "auth.login.failure")
  .throw .invalidLogin

def login (req : LoginRequest) : Act LoginOutcome := do
  let username := trimSpace req.username
  let bucket := loginBucketKey env username req.clientIP
  let blocked : Bool ← call (.isBlocked bucket)
  if blocked then
    let _ ← call (.audit "auth.login.throttled")
    .throw .loginThrottled
  else
    match ← (call (.getUserByUsername username)).attempt with
    | .error _ => failLogin bucket
    | .ok (user : User) =>
      if user.disabled ∨ user.deletedAt ≠ none ∨ user.passwordHash = passwordHashNone ∨
          env.prim.verifyPassword req.password user.passwordHash = false then
        failLogin bucket
      else
        let _ ← call (.registerSuccess bucket)
        complete env user "password" req.clientIP req.trustDevice req.deviceToken

def verifyMFA (challengeID code : String) (trustDevice : Bool) : Act LoginOutcome := do
  let challenge ← ChallengeStore.load env (trimSpace challengeID) .loginMFA
  match ← (call (.getUser challenge.userID)).attempt with
  | .error _ => .throw .invalidLogin
  | .ok (user : User) =>
    if user.disabled ∨ user.deletedAt ≠ none then .throw .invalidLogin
    else
      match ← (MFAService.verifyCode env (some challenge.id) user.id code).attempt with
      | .error e =>
        -- Only a wrong second factor burns the budget of the challenge.
        if e = .mfaCodeInvalid ∨ e = .mfaReplayDetected then
          let failed : ℕ × Bool ← call (.failChallenge challenge.id)
          let _ ← call (.audit "auth.login.failure")
          .throw (if failed.2 then .challengeExhausted else e)
        else .throw e
      | .ok result =>
        let consumed : Bool ← call (.consumeChallenge challenge.id)
        if consumed = false then .throw .challengeInvalid
        else
          let settings ← call .seedSettings
          let outcome ← issue user result.method trustDevice false
            (resolvePolicy settings user true) (.verified challenge.id)
          return { outcome with recoveryCodesExhausted := result.recoveryCodesExhausted }

def issueForAuthenticatedUser (method clientIP : String) (trustDevice : Bool)
    (deviceToken : String) : Act LoginOutcome :=
  complete env user (if trimSpace method = "" then "oidc" else method) clientIP trustDevice
    deviceToken

def prepareOIDCLogin (clientIP deviceToken : String) :
    Act (LoginOutcome × Option Grounds) := do
  let verdict ← assess env user deviceToken
  match verdict.decision with
  | .free grounds => return ({ state := .authenticated, user, method := "oidc" }, some grounds)
  | .trusted grounds =>
    return ({ state := .authenticated, user, method := "oidc", deviceTrusted := true }, some grounds)
  | .owed =>
    let outcome ← requireMFA env user "oidc" clientIP verdict.mfaEnabled
    return (outcome, none)

def issueSession (method : String) (trustDevice alreadyTrusted : Bool)
    (grounds : Grounds) : Act LoginOutcome := do
  let settings ← call .seedSettings
  if alreadyTrusted then
    issue user method trustDevice alreadyTrusted (resolvePolicy settings user true) grounds
  else
    let mfaEnabled ← MFAService.isEnabled env user.id
    issue user method trustDevice alreadyTrusted (resolvePolicy settings user mfaEnabled) grounds

end LoginService

open LoginService MFAService

def boolString (value : Bool) : String := if value then "true" else "false"

def completeOIDCLogin (ticketTTL : ℕ) (provider : String) (user : User)
    (clientIP deviceToken : String) : Act String := do
  let (outcome, grounds) ← prepareOIDCLogin env user clientIP deviceToken
  if outcome.state = .mfaRequired then return outcome.challengeID
  else
    ChallengeStore.create env .loginTicket user.id
      [("provider", provider), ("deviceTrusted", boolString outcome.deviceTrusted)]
      (if ticketTTL = 0 then minute else ticketTTL) 1 grounds

def exchangeOIDCTicket (ticket : String) (trustDevice : Bool) : Act LoginOutcome := do
  match ← (ChallengeStore.load env (trimSpace ticket) .loginTicket).attempt with
  | .error _ => .throw .oidcLoginTicketInvalid
  | .ok challenge =>
    let consumed : Bool ← call (.consumeChallenge challenge.id)
    if consumed = false then .throw .oidcLoginTicketInvalid
    else
      match ← (call (.getUser challenge.userID)).attempt with
      | .error _ => .throw .oidcLoginTicketInvalid
      | .ok (user : User) =>
        if user.disabled ∨ user.deletedAt ≠ none then .throw .oidcLoginTicketInvalid
        else
          issueSession env user "oidc" trustDevice
            (challenge.payload.lookup "deviceTrusted" = some "true") (.ticket challenge.id)

inductive Request where
  | login (req : LoginRequest)
  | verifyMFA (challengeID code : String) (trustDevice : Bool)
  | issueForAuthenticatedUser (user : User) (method clientIP : String) (trustDevice : Bool)
      (deviceToken : String)
  | completeOIDCLogin (ticketTTL : ℕ) (provider : String) (user : User) (clientIP deviceToken : String)
  | exchangeOIDCTicket (ticket : String) (trustDevice : Bool)
  | enroll (userID currentPassword : String) (drawn : Except AuthError Drawn)
  | enable (userID code : String)
  | disable (userID code : String) (required : Bool)
  | adminReset (userID : String)
  | regenerateRecoveryCodes (userID code : String) (drawn : Except AuthError Drawn)
  | isEnabled (userID : String)
  | revokeDevice (actorID userID deviceID : String) (actorIsAdmin : Bool)
  | revokeAllDevices (actorID userID : String) (actorIsAdmin : Bool)

def discard {α : Type} (p : Act α) : Act Unit := do
  let _ ← p
  return ()

def start : Request → Act Unit
  | .login req => discard (login env req)
  | .verifyMFA challengeID code trustDevice => discard (verifyMFA env challengeID code trustDevice)
  | .issueForAuthenticatedUser user method clientIP trustDevice deviceToken =>
    discard (issueForAuthenticatedUser env user method clientIP trustDevice deviceToken)
  | .completeOIDCLogin ticketTTL provider user clientIP deviceToken =>
    discard (completeOIDCLogin env ticketTTL provider user clientIP deviceToken)
  | .exchangeOIDCTicket ticket trustDevice => discard (exchangeOIDCTicket env ticket trustDevice)
  | .enroll userID currentPassword drawn => discard (enroll env userID currentPassword drawn)
  | .enable userID code => enable env userID code
  | .disable userID code required => disable env userID code required
  | .adminReset userID => adminReset userID
  | .regenerateRecoveryCodes userID code drawn =>
    discard (regenerateRecoveryCodes env userID code drawn)
  | .isEnabled userID => discard (isEnabled env userID)
  | .revokeDevice actorID userID deviceID actorIsAdmin =>
    DeviceService.revoke actorID userID deviceID actorIsAdmin
  | .revokeAllDevices actorID userID actorIsAdmin =>
    discard (DeviceService.revokeAll actorID userID actorIsAdmin)

abbrev State := Interleaving.State Store (Program.Process Command Answer AuthError Unit)

abbrev Label := Interleaving.Label Request Input Change

def system : Interleaving.System Store (Program.Process Command Answer AuthError Unit) Request Input
    Change :=
  Program.system (exec env) (start env) change

def init (users : Table User.id) (settings : Option AuthSettings) : State :=
  ⟨⟨users, .empty, .empty, .empty, .empty, settings, 0, []⟩, []⟩

def sampleToken (n : ℕ) : String := String.ofList (List.replicate (n + 1) 'x')

theorem sampleToken_injective : Function.Injective sampleToken := by
  intro a b h
  have hl := congrArg List.length (congrArg String.toList h)
  simpa [sampleToken] using hl

def sampleEnv : Env where
  prim :=
    { toUpper := id
      toLower := id
      decodeBase32 := fun _ => some [0]
      hmacSHA1 := fun _ _ _ => 0
      sha256 := id
      verifyPassword := fun password hash => password = hash }
  mfaConfig := ⟨defaultTOTPParams, 0, 0⟩
  loginConfig := ⟨0, 0, defaultAuthSettings .optional true true 0 0 0⟩
  deviceConfig := ⟨true, 0, 0, 0⟩
  available := true
  decrypt := fun secret => .ok secret.ciphertext
  randomToken := sampleToken
  randomToken_injective := sampleToken_injective

def sampleUser : User := ⟨"u", "alice", "pw", false, none, false⟩

def sampleUsers : Table User.id := ⟨[sampleUser], List.nodup_singleton _⟩

def sampleDrawn : Except AuthError Drawn :=
  .ok ⟨"secret", ⟨"secret", "nonce", "key", 1⟩, ["tmrc-a"], ["TMRCA"]⟩

def unix (seconds : ℕ) : ℕ := (62135596800 + seconds) * nanosPerSecond

def steps (i n now : ℕ) : List Label := List.replicate n (.move i ⟨now, false, false⟩)

end TunnelMesh.Auth
