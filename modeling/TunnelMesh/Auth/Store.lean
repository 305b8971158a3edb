import TunnelMesh.Auth.Identity

namespace TunnelMesh.Auth

open RecoveryCode

-- Why a login went on to a session without owing a second factor any more: it
-- passed `VerifyMFA` on a challenge, it owed none under the policy it read, it
-- came with a trusted device, or it handed in the ticket of such a login.
inductive Grounds where
  | verified (challengeID : String)
  | waived (settings : AuthSettings) (user : User) (mfaEnabled : Bool)
  | bypass (device : UserDevice) (now : ℕ)
  | ticket (ticketID : String)
  deriving DecidableEq

-- What has happened, as far as the results speak of it. The database keeps no
-- such record: it is there for the proofs and no function reads it.
inductive Event where
  | policyRead (settings : AuthSettings)
  | mfaRead (userID : String) (row : Option UserMFA)
  | enabled (userID : String)
  | factorRemoved (userID : String)
  | opened (challengeID : String) (maxAttempts : ℕ)
  | compared (challengeID : String)
  | codeAccepted (challengeID userID : String)
  | failureRecorded (challengeID : String)
  | consumed (challengeID : String)
  | ticketOpened (ticketID userID : String) (grounds : Grounds)
  | deviceRead (device : UserDevice)
  | deviceIssued (tokenHash userID : String) (grounds : Grounds)
  | sessionIssued (userID : String) (grounds : Grounds)
  deriving DecidableEq

structure Store where
  users : Table User.id
  mfa : Table UserMFA.userID
  codes : Table hash
  devices : Table UserDevice.id
  challenges : Table AuthChallenge.id
  settings : Option AuthSettings
  drawn : ℕ
  log : List Event

namespace Store

variable (env : Env) (store : Store)

def note (event : Event) : Store := { store with log := event :: store.log }

variable (userID : String)

def getUser : Except AuthError User :=
  (store.users.get userID).elim (.error .noRows) .ok

def getUserByUsername (username : String) : Except AuthError User :=
  (store.users.rows.find? fun user => user.username = username).elim (.error .noRows) .ok

def seedIfMissing (defaults : AuthSettings) : Store × AuthSettings :=
  match store.settings with
  | some settings => (store, settings)
  | none =>
    let settings :=
      { defaults with mfaMode := if defaults.mfaMode = .unset then .disabled else defaults.mfaMode }
    ({ store with settings := some settings }, settings)

def alive (challengeID : String) : Bool :=
  (store.challenges.get challengeID).any fun row => row.consumedAt = none

def reenroll (row old : UserMFA) : UserMFA :=
  { old with
    secret := row.secret
    status := row.status
    enrolledAt := row.enrolledAt
    enabledAt := none
    lastUsedAt := none
    lastUsedStep := -1 }

theorem reenroll_userID (row old : UserMFA) : (reenroll row old).userID = old.userID := rfl

def upsertMFA (row : UserMFA) : Except AuthError (Table UserMFA.userID) :=
  if row.userID = "" then .error (.other "user id is required")
  else match store.mfa.insert row with
    | some mfa => .ok mfa
    | none =>
      .ok (store.mfa.update (fun old => old.userID = row.userID) (reenroll row) (reenroll_userID row))

def insertCodes (codes : Table hash) (hashes : List String) :
    Option (Table hash) :=
  hashes.foldlM (fun codes hash => codes.insert ⟨userID, hash, none⟩) codes

def replaceAll (hashes : List String) :
    Except AuthError (Table hash) :=
  if userID = "" then .error (.other "user id is required")
  else match insertCodes userID (store.codes.delete fun row => row.userID = userID) hashes with
    | some codes => .ok codes
    | none => .error (.other "duplicate recovery code")

def enrollAllowed (userID currentPassword : String) : Except AuthError User :=
  match store.getUser userID with
  | .error e => .error e
  | .ok user =>
    if user.passwordHash = passwordHashNone then .ok user
    else if currentPassword = "" then .error .currentPasswordRequired
    else if env.prim.verifyPassword currentPassword user.passwordHash then .ok user
    else .error .currentPasswordInvalid

def enroll (userID currentPassword : String) (secret : Sealed) (hashes : List String) (now : ℕ) :
    Except AuthError (Store × String) := do
  let user ← store.enrollAllowed env userID currentPassword
  let mfa ← store.upsertMFA ⟨userID, secret, .pending, now, none, none, -1⟩
  let codes ← store.replaceAll userID hashes
  return ({ store with mfa, codes }, user.username)

variable (step : ℤ)

def use (now : ℕ) (row : UserMFA) : UserMFA :=
  { row with lastUsedStep := step, lastUsedAt := some now }

theorem use_userID (now : ℕ) (row : UserMFA) : (use step now row).userID = row.userID := rfl

def unusedStep (row : UserMFA) : Bool :=
  row.userID = userID && row.lastUsedStep < step

def markUsed (now : ℕ) : Except AuthError Store :=
  if store.mfa.affected (unusedStep userID step) = 0 then .error .mfaReplayDetected
  else .ok { store with
    mfa := store.mfa.update (unusedStep userID step) (use step now) (use_userID step now) }

variable (now : ℕ)

def confirm (row : UserMFA) : UserMFA :=
  { row with status := .enabled, enabledAt := some now }

theorem confirm_userID (row : UserMFA) : (confirm now row).userID = row.userID := rfl

def setEnabled : Except AuthError Store :=
  if store.mfa.affected (fun row => row.userID = userID) = 0 then .error .noRows
  else .ok { store with
    mfa := store.mfa.update (fun row => row.userID = userID) (confirm now) (confirm_userID now) }

def enable (now : ℕ) : Except AuthError Store := do
  let used ← store.markUsed userID step now
  let confirmed ← used.setEnabled userID now
  return confirmed.note (.enabled userID)

def countUnused : ℕ :=
  store.codes.rows.countP fun row => row.userID = userID && row.usedAt = none

def unusedCode (userID hash : String) (row : RecoveryCode) : Bool :=
  row.userID = userID && row.hash = hash && row.usedAt = none

def spend (row : RecoveryCode) : RecoveryCode := { row with usedAt := some now }

theorem spend_hash (row : RecoveryCode) : (spend now row).hash = row.hash := rfl

def touchLastUsed (row : UserMFA) : UserMFA := { row with lastUsedAt := some now }

theorem touchLastUsed_userID (row : UserMFA) : (touchLastUsed now row).userID = row.userID := rfl

def consumeCode (userID hash : String) (now : ℕ) : Store × Option ℕ :=
  if store.codes.affected (unusedCode userID hash) = 0 then (store, none)
  else
    let next :=
      { store with
        codes := store.codes.update (unusedCode userID hash) (spend now) (spend_hash now)
        mfa := store.mfa.update (fun row => row.userID = userID) (touchLastUsed now)
          (touchLastUsed_userID now) }
    (next, some (next.countUnused userID))

def replaceCodes (hashes : List String) (now : ℕ) :
    Except AuthError Store := do
  let used ← store.markUsed userID step now
  let codes ← used.replaceAll userID hashes
  return { used with codes }

variable (device : UserDevice)

def revoke : UserDevice :=
  { device with revokedAt := if device.revokedAt = none then some now else device.revokedAt }

theorem revoke_id : (revoke now device).id = device.id := rfl

def unrevoked : Bool :=
  device.userID = userID && device.revokedAt = none

def revokeAllForUser : Store :=
  { store with devices := store.devices.update (unrevoked userID) (revoke now) (revoke_id now) }

def removeFactor : Store :=
  let cleared :=
    { store with
      mfa := store.mfa.delete fun row => row.userID = userID
      codes := store.codes.delete fun row => row.userID = userID }
  (cleared.revokeAllForUser userID now).note (.factorRemoved userID)

def active : Bool :=
  device.userID = userID && device.revokedAt = none && now < device.expiresAt

def seen : ℕ := device.lastSeenAt.getD device.trustedAt

-- The first device in the order of `COALESCE(last_seen_at, trusted_at), id`.
def oldest : List UserDevice → Option UserDevice
  | [] => none
  | device :: rest =>
    match oldest rest with
    | none => some device
    | some other =>
      if seen device < seen other ∨ (seen device = seen other ∧ device.id < other.id) then
        some device
      else some other

def revokeDevice (userID deviceID : String) (now : ℕ) : Store :=
  { store with
    devices := store.devices.update (fun device => device.id = deviceID && device.userID = userID)
      (revoke now) (revoke_id now) }

def touch : UserDevice := { device with lastSeenAt := some now }

theorem touch_id : (touch now device).id = device.id := rfl

def touchDevice (deviceID : String) (now : ℕ) : Store :=
  { store with
    devices := store.devices.update (fun device => device.id = deviceID) (touch now) (touch_id now) }

def insertDevice : Except AuthError Store :=
  if device.tokenHash = "" then .error (.other "device token hash is required")
  else if device.tokenHash ∈ store.devices.rows.map UserDevice.tokenHash then .error .identityConflict
  else match store.devices.insert device with
    | some devices => .ok { store with devices }
    | none => .error .identityConflict

def evict (maxPerUser : ℤ) (now clock : ℕ) : Store :=
  let devices := store.devices.rows.filter (active userID clock)
  if (devices.length : ℤ) ≥ maxPerUser then
    (oldest devices).elim store fun device => store.revokeDevice userID device.id now
  else store

-- `now` is read before the transaction, `clock` by its statements.
def issueDevice (grounds : Grounds) (now clock : ℕ) :
    Except AuthError (Store × String × UserDevice) :=
  let seeded := store.seedIfMissing env.device.defaults
  let effective := env.device.effective seeded.2
  let token := env.randomToken store.drawn
  let device : UserDevice :=
    { id := "device_" ++ env.randomToken (store.drawn + 1)
      userID := userID
      tokenHash := hashDeviceToken env.prim token
      trustedAt := now
      expiresAt := now + effective.ttl
      lastSeenAt := some now
      revokedAt := none }
  if effective.enabled = false then .error .deviceTrustDisabled
  else match (seeded.1.evict userID effective.maxPerUser now clock).insertDevice device with
    | .error e => .error e
    | .ok inserted =>
      .ok ({ inserted with drawn := inserted.drawn + 2 }.note
        (.deviceIssued device.tokenHash userID grounds), token, device)

def readDevice (hash : String) : Option UserDevice :=
  let effective := store.settings.elim env.device env.device.effective
  if effective.enabled = false ∨ hash = "" then none
  else store.devices.rows.find? fun device => device.tokenHash = hash

def challengeID (n : ℕ) : String := "ch_" ++ env.randomToken n

def createChallenge (kind : ChallengeKind) (userID : String) (payload : List (String × String))
    (ttl maxAttempts now : ℕ) : Except AuthError (Store × String) :=
  let row : AuthChallenge :=
    { id := challengeID env store.drawn
      kind := kind
      userID := userID
      payload := payload
      attempts := 0
      maxAttempts := maxAttempts
      consumedAt := none
      expiresAt := now + ttl }
  match store.challenges.insert row with
  | some challenges =>
    .ok ({ store with challenges, drawn := store.drawn + 1 }.note
      (.opened row.id maxAttempts), row.id)
  | none => .error (.other "duplicate challenge id")

def open_ (challengeID : String) (row : AuthChallenge) : Bool :=
  row.id = challengeID && row.consumedAt = none

variable (row : AuthChallenge)

def consume : AuthChallenge := { row with consumedAt := some now }

theorem consume_id : (consume now row).id = row.id := rfl

def consumeChallenge (challengeID : String) (now : ℕ) : Store × Bool :=
  if store.challenges.affected (open_ challengeID) = 0 then (store, false)
  else
    ({ store with challenges :=
        store.challenges.update (open_ challengeID) (consume now) (consume_id now) }.note
      (.consumed challengeID), true)

def charge : AuthChallenge :=
  if row.attempts + 1 ≥ row.maxAttempts then
    consume now { row with attempts := row.attempts + 1 }
  else { row with attempts := row.attempts + 1 }

theorem charge_id : (charge now row).id = row.id := by
  unfold charge
  split <;> rfl

def failChallenge (challengeID : String) (now : ℕ) : Store × ℕ × Bool :=
  match store.challenges.get challengeID with
  | some row =>
    if row.consumedAt = none then
      ({ store with challenges :=
          store.challenges.update (open_ challengeID) (charge now) (charge_id now) }.note
        (.failureRecorded challengeID), row.attempts + 1, row.attempts + 1 ≥ row.maxAttempts)
    else (store, 0, true)
  | none => (store, 0, true)

end Store

end TunnelMesh.Auth
