import TunnelMesh.Auth.TOTP
import TunnelMesh.Table

namespace TunnelMesh.Auth

open Storage

structure User where
  id : String
  username : String
  passwordHash : String
  disabled : Bool
  deletedAt : Option ℕ
  mfaRequired : Bool
  deriving DecidableEq

inductive MFAMode where
  | unset
  | disabled
  | optional
  | required
  deriving DecidableEq

structure AuthSettings where
  mfaMode : MFAMode
  deviceTrustEnabled : Bool
  deviceTrustTTLSeconds : ℤ
  allowTrustedDeviceBypass : Bool
  maxTrustedDevices : ℤ
  sessionTokenTTLSeconds : ℤ
  deriving DecidableEq

def hour : ℕ := 60 * minute

def defaultAuthSettings (mfaMode : MFAMode) (deviceTrustEnabled allowBypass : Bool) (deviceTTL : ℕ)
    (maxDevices sessionTTL : ℤ) : AuthSettings where
  mfaMode := if mfaMode = .unset then .disabled else mfaMode
  deviceTrustEnabled := deviceTrustEnabled
  deviceTrustTTLSeconds :=
    (if deviceTTL = 0 then 30 * 24 * hour else deviceTTL) / nanosPerSecond
  allowTrustedDeviceBypass := allowBypass
  maxTrustedDevices := if maxDevices ≤ 0 then 10 else maxDevices
  sessionTokenTTLSeconds := (max sessionTTL 0).tdiv nanosPerSecond

structure AuthPolicy where
  mode : MFAMode
  required : Bool
  deviceTrustEnabled : Bool
  allowTrustedDeviceBypass : Bool
  sessionTokenTTL : ℤ

def resolvePolicy (settings : AuthSettings) (user : User) (mfaEnabled : Bool) : AuthPolicy :=
  let mode := if settings.mfaMode = .unset then .disabled else settings.mfaMode
  { mode := mode
    required := user.mfaRequired || mode = .required || (mode = .optional && mfaEnabled)
    deviceTrustEnabled := settings.deviceTrustEnabled
    allowTrustedDeviceBypass := settings.allowTrustedDeviceBypass && settings.deviceTrustEnabled
    sessionTokenTTL := settings.sessionTokenTTLSeconds * nanosPerSecond }

structure Sealed where
  ciphertext : String
  nonce : String
  keyID : String
  version : ℤ
  deriving DecidableEq

inductive MFAStatus where
  | pending
  | enabled
  deriving DecidableEq

structure UserMFA where
  userID : String
  secret : Sealed
  status : MFAStatus
  enrolledAt : ℕ
  enabledAt : Option ℕ
  lastUsedAt : Option ℕ
  lastUsedStep : ℤ
  deriving DecidableEq

structure RecoveryCode where
  userID : String
  hash : String
  usedAt : Option ℕ

structure UserDevice where
  id : String
  userID : String
  tokenHash : String
  trustedAt : ℕ
  expiresAt : ℕ
  lastSeenAt : Option ℕ
  revokedAt : Option ℕ
  deriving DecidableEq

inductive ChallengeKind where
  | loginMFA
  | loginTicket
  deriving DecidableEq

structure AuthChallenge where
  id : String
  kind : ChallengeKind
  userID : String
  payload : List (String × String)
  attempts : ℕ
  maxAttempts : ℕ
  consumedAt : Option ℕ
  expiresAt : ℕ

structure MFAConfig where
  params : TOTPParams
  recoveryCodes : ℕ
  enrollmentTTL : ℕ

def MFAConfig.withDefaults (c : MFAConfig) : MFAConfig where
  params := if c.params.digits = 0 then defaultTOTPParams else c.params
  recoveryCodes := if c.recoveryCodes = 0 then 10 else c.recoveryCodes
  enrollmentTTL := if c.enrollmentTTL = 0 then 15 * minute else c.enrollmentTTL

structure LoginConfig where
  challengeTTL : ℕ
  challengeMaxAttempts : ℕ
  defaults : AuthSettings

def LoginConfig.withDefaults (c : LoginConfig) : LoginConfig where
  challengeTTL := if c.challengeTTL = 0 then 5 * minute else c.challengeTTL
  challengeMaxAttempts := if c.challengeMaxAttempts = 0 then 5 else c.challengeMaxAttempts
  defaults :=
    if c.defaults.mfaMode = .unset then
      defaultAuthSettings .disabled true true (30 * 24 * hour) 10 0
    else c.defaults

structure DeviceTrustConfig where
  enabled : Bool
  ttl : ℕ
  maxPerUser : ℤ
  touchThrottle : ℕ

variable (c : DeviceTrustConfig)

def DeviceTrustConfig.withDefaults : DeviceTrustConfig where
  enabled := c.enabled
  ttl := if c.ttl = 0 then 30 * 24 * hour else c.ttl
  maxPerUser := if c.maxPerUser ≤ 0 then 10 else c.maxPerUser
  touchThrottle := if c.touchThrottle = 0 then 5 * minute else c.touchThrottle

def DeviceTrustConfig.effective (settings : AuthSettings) :
    DeviceTrustConfig where
  enabled := settings.deviceTrustEnabled
  ttl :=
    if settings.deviceTrustTTLSeconds > 0 then
      settings.deviceTrustTTLSeconds.toNat * nanosPerSecond
    else c.ttl
  maxPerUser := if settings.maxTrustedDevices > 0 then settings.maxTrustedDevices else c.maxPerUser
  touchThrottle := c.touchThrottle

def DeviceTrustConfig.defaults : AuthSettings :=
  defaultAuthSettings .disabled c.enabled true c.ttl c.maxPerUser 0

-- A deployment: its configuration, the key for stored secrets, and a source of
-- random tokens that does not repeat one.
structure Env where
  prim : Primitives
  mfaConfig : MFAConfig
  loginConfig : LoginConfig
  deviceConfig : DeviceTrustConfig
  available : Bool
  decrypt : Sealed → Except AuthError String
  randomToken : ℕ → String
  randomToken_injective : Function.Injective randomToken

namespace Env

variable (env : Env)

def mfa : MFAConfig := env.mfaConfig.withDefaults

def login : LoginConfig := env.loginConfig.withDefaults

def device : DeviceTrustConfig := env.deviceConfig.withDefaults

end Env

end TunnelMesh.Auth
