import TunnelMesh.Storage.Timestamp
import TunnelMesh.Text

namespace TunnelMesh.Auth

open Text String

-- The sentinel errors of the identity services, the errors of the repositories
-- below them, and errors known by their text alone.
inductive AuthError where
  | secretStorageUnavailable
  | mfaNotEnrolled
  | mfaPendingNotConfirmed
  | mfaCodeInvalid
  | mfaReplayDetected
  | mfaRequiredByPolicy
  | mfaAlreadyEnabled
  | currentPasswordRequired
  | currentPasswordInvalid
  | deviceTrustDisabled
  | deviceNotFound
  | loginThrottled
  | challengeInvalid
  | challengeExhausted
  | oidcLoginTicketInvalid
  | invalidLogin
  | forbidden
  | noRows
  | identityConflict
  | other (text : String)
  deriving DecidableEq

def AuthError.message : AuthError → String
  | .secretStorageUnavailable => "secret_storage_unavailable"
  | .mfaNotEnrolled => "mfa_not_enrolled"
  | .mfaPendingNotConfirmed => "mfa_not_confirmed"
  | .mfaCodeInvalid => "mfa_code_invalid"
  | .mfaReplayDetected => "mfa_code_reused"
  | .mfaRequiredByPolicy => "mfa_required_by_policy"
  | .mfaAlreadyEnabled => "mfa_already_enabled"
  | .currentPasswordRequired => "current_password_required"
  | .currentPasswordInvalid => "current_password_invalid"
  | .deviceTrustDisabled => "device_trust_disabled"
  | .deviceNotFound => "device_not_found"
  | .loginThrottled => "login_throttled"
  | .challengeInvalid => "challenge_invalid"
  | .challengeExhausted => "challenge_attempts_exceeded"
  | .oidcLoginTicketInvalid => "login_ticket_invalid"
  | .invalidLogin => "invalid_credentials"
  | .forbidden => "forbidden"
  | .noRows => "sql: no rows in result set"
  | .identityConflict => "identity already exists"
  | .other text => text

open Storage

-- What the codes rest on outside the repository. `hmacSHA1 key message i` is
-- byte `i` of the 20 bytes of the digest, and `sha256` is a digest as text.
structure Primitives where
  toUpper : String → String
  toLower : String → String
  decodeBase32 : String → Option (List UInt8)
  hmacSHA1 : List UInt8 → List UInt8 → ℕ → UInt8
  sha256 : String → String
  verifyPassword : String → String → Bool

structure TOTPParams where
  digits : ℤ
  period : ℕ
  skew : ℤ

def defaultTOTPParams : TOTPParams := ⟨6, 30 * nanosPerSecond, 1⟩

def TOTPParams.validate (p : TOTPParams) : Except AuthError TOTPParams :=
  if p.digits ≠ 6 ∧ p.digits ≠ 8 then .error (.other "totp digits must be 6 or 8")
  else if p.period < 15 * nanosPerSecond ∨ p.period > 120 * nanosPerSecond then
    .error (.other "totp period must be between 15s and 120s")
  else if p.skew < 0 ∨ p.skew > 2 then .error (.other "totp skew must be between 0 and 2")
  else .ok p

variable (prim : Primitives)

def decodeTOTPSecret (secret : String) : Except AuthError (List UInt8) :=
  let normalized := ((prim.toUpper (trimSpace secret)).toList.filter (· ≠ ' '))
  let padding := (8 - normalized.length % 8) % 8
  match prim.decodeBase32 (ofList (normalized ++ List.replicate padding '=')) with
  | none | some [] => .error (.other "totp secret must be valid base32")
  | some decoded => .ok decoded

def counterBytes (counter : ℕ) : List UInt8 :=
  (List.range 8).reverse.map fun i => UInt8.ofNat (counter / 256 ^ i)

def hotp (secret : List UInt8) (counter digits : ℕ) : String :=
  let sum := prim.hmacSHA1 secret (counterBytes counter)
  let offset := (sum 19).toNat % 16
  let value := ((sum offset).toNat * 2 ^ 24 + (sum (offset + 1)).toNat * 2 ^ 16 +
    (sum (offset + 2)).toNat * 2 ^ 8 + (sum (offset + 3)).toNat) % 2 ^ 31
  ofList (Decimal.padded digits (value % 10 ^ digits))

def unixEpoch : ℤ := 62135596800

def toptStep (now period : ℕ) : ℤ :=
  ((now / nanosPerSecond : ℕ) - unixEpoch).tdiv (period / nanosPerSecond : ℕ)

def skewOrder (skew : ℤ) : List ℤ :=
  0 :: (List.range skew.toNat).flatMap fun delta => [-(delta + 1 : ℤ), (delta + 1 : ℤ)]

-- `strconv.Atoi` on a text of at most eight bytes.
def isInteger (code : String) : Bool :=
  let digits := match code.toList with
    | '+' :: rest | '-' :: rest => rest
    | chars => chars
  digits ≠ [] && digits.all Char.isDigit

def verifyTOTP (secret code : String) (now : ℕ) (params : TOTPParams) :
    Except AuthError (Option ℤ) := do
  let params ← params.validate let decoded ← decodeTOTPSecret prim secret let code := trimSpace code
  if (code.utf8ByteSize : ℤ) ≠ params.digits ∨ isInteger code = false then
    return none
  let steps := (skewOrder params.skew).map (toptStep now params.period + ·)
  return steps.find? fun step => 0 ≤ step ∧ hotp prim decoded step.toNat params.digits.toNat = code

def recoveryCodePrefix : List Char := ['t', 'm', 'r', 'c', '-']

def isRecoveryCode (candidate : String) : Bool :=
  recoveryCodePrefix.isPrefixOf ((trimSpace candidate).toList.map Char.toLower)

def normalizeRecoveryCode (code : String) : String :=
  ofList (((prim.toUpper (trimSpace code)).toList.filter (· ≠ ' ')).filter (· ≠ '-'))

def hashRecoveryCode (code : String) : String := prim.sha256 (normalizeRecoveryCode prim code)

def hashDeviceToken (token : String) : String := prim.sha256 (trimSpace token)

def passwordHashNone : String := "*"

end TunnelMesh.Auth
