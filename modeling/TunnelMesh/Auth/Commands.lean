import TunnelMesh.Auth.Store
import TunnelMesh.Program

namespace TunnelMesh.Auth

-- What the identity services ask of the database and of the clock: one
-- transaction, one read, or the comparison of a code at the time it is made.
-- For the log some commands say more than the code does: an `attempt` is the
-- challenge a code was submitted for, `grounds` are those of the login.
inductive Command where
  | clock
  | audit (action : String)
  | isBlocked (bucket : String)
  | registerFailure (bucket : String)
  | registerSuccess (bucket : String)
  | getUser (userID : String)
  | getUserByUsername (username : String)
  | seedSettings
  | getMFA (userID : String)
  | enroll (userID currentPassword : String) (secret : Sealed) (hashes : List String)
  | enable (userID : String) (step : ℤ)
  | compareTOTP (attempt : Option String) (secret code : String)
  | markUsed (attempt : Option String) (userID : String) (step : ℤ)
  | consumeCode (attempt : Option String) (userID hash : String)
  | countUnused (userID : String)
  | replaceCodes (userID : String) (step : ℤ) (hashes : List String)
  | removeFactor (userID action : String)
  | createChallenge (kind : ChallengeKind) (userID : String) (payload : List (String × String))
      (ttl maxAttempts : ℕ) (grounds : Option Grounds)
  | getChallenge (challengeID : String)
  | decryptPayload (row : AuthChallenge)
  | consumeChallenge (challengeID : String)
  | failChallenge (challengeID : String)
  | issueToken (userID : String) (ttl : ℤ) (grounds : Grounds)
  | issueDevice (userID : String) (now : ℕ) (grounds : Grounds)
  | readDevice (hash : String)
  | touchDevice (deviceID : String) (now : ℕ)
  | revokeDevice (userID deviceID : String)
  | revokeAll (userID : String)

abbrev Answer : Command → Type
  | .clock => ℕ
  | .audit _ => Unit
  | .isBlocked _ => Bool
  | .registerFailure _ => Unit
  | .registerSuccess _ => Unit
  | .getUser _ => User
  | .getUserByUsername _ => User
  | .seedSettings => AuthSettings
  | .getMFA _ => Option UserMFA
  | .enroll _ _ _ _ => String
  | .enable _ _ => Unit
  | .compareTOTP _ _ _ => Option ℤ
  | .markUsed _ _ _ => Unit
  | .consumeCode _ _ _ => Option ℕ
  | .countUnused _ => ℕ
  | .replaceCodes _ _ _ => Unit
  | .removeFactor _ _ => Unit
  | .createChallenge _ _ _ _ _ _ => String
  | .getChallenge _ => Option AuthChallenge
  | .decryptPayload _ => List (String × String)
  | .consumeChallenge _ => Bool
  | .failChallenge _ => ℕ × Bool
  | .issueToken _ _ _ => String
  | .issueDevice _ _ _ => String × UserDevice
  | .readDevice _ => Option UserDevice
  | .touchDevice _ _ => Unit
  | .revokeDevice _ _ => Unit
  | .revokeAll _ => ℕ

structure Input where
  now : ℕ
  fails : Bool
  blocked : Bool

-- The error of a command that fails on its own. A payload sealed with a key that
-- is gone cannot be told from no payload.
def Command.failure : Command → Option AuthError
  | .clock => none
  | .compareTOTP _ _ _ => none
  | .decryptPayload _ => some .challengeInvalid
  | _ => some (.other "database error")

def Store.noteCompared (store : Store) : Option String → Store
  | none => store
  | some challengeID => if store.alive challengeID then store.note (.compared challengeID) else store

def Store.noteAccepted (store : Store) (userID : String) : Option String → Store
  | none => store
  | some challengeID => store.note (.codeAccepted challengeID userID)

def Store.noteTicket (store : Store) (ticketID userID : String) : Option Grounds → Store
  | none => store
  | some grounds => store.note (.ticketOpened ticketID userID grounds)

variable (env : Env)

def run (store : Store) : (c : Command) → Input → Except AuthError (Store × Answer c)
  | .clock, input => .ok (store, input.now)
  | .audit _, _ => .ok (store, ())
  | .isBlocked _, input => .ok (store, input.blocked)
  | .registerFailure _, _ => .ok (store, ())
  | .registerSuccess _, _ => .ok (store, ())
  | .getUser userID, _ => (store.getUser userID).map fun user => (store, user)
  | .getUserByUsername username, _ => (store.getUserByUsername username).map fun user => (store, user)
  | .seedSettings, _ =>
    let seeded := store.seedIfMissing env.login.defaults
    .ok (seeded.1.note (.policyRead seeded.2), seeded.2)
  | .getMFA userID, _ =>
    .ok (store.note (.mfaRead userID (store.mfa.get userID)), store.mfa.get userID)
  | .enroll userID currentPassword secret hashes, input =>
    store.enroll env userID currentPassword secret hashes input.now
  | .enable userID step, input => (store.enable userID step input.now).map fun next => (next, ())
  | .compareTOTP attempt secret code, input =>
    (verifyTOTP env.prim secret code input.now env.mfa.params).map fun step =>
      (store.noteCompared attempt, step)
  | .markUsed attempt userID step, input =>
    (store.markUsed userID step input.now).map fun next => (next.noteAccepted userID attempt, ())
  | .consumeCode attempt userID hash, input =>
    let consumed := (store.noteCompared attempt).consumeCode userID hash input.now
    .ok (if consumed.2.isSome then consumed.1.noteAccepted userID attempt else consumed.1, consumed.2)
  | .countUnused userID, _ => .ok (store, store.countUnused userID)
  | .replaceCodes userID step hashes, input =>
    (store.replaceCodes userID step hashes input.now).map fun next => (next, ())
  | .removeFactor userID _, input => .ok (store.removeFactor userID input.now, ())
  | .createChallenge kind userID payload ttl maxAttempts grounds, input =>
    (store.createChallenge env kind userID payload ttl maxAttempts input.now).map fun created =>
      (created.1.noteTicket created.2 userID grounds, created.2)
  | .getChallenge challengeID, _ =>
    .ok (store, if challengeID = "" then none else store.challenges.get challengeID)
  | .decryptPayload row, _ => .ok (store, row.payload)
  | .consumeChallenge challengeID, input => .ok (store.consumeChallenge challengeID input.now)
  | .failChallenge challengeID, input => .ok (store.failChallenge challengeID input.now)
  | .issueToken userID _ grounds, _ =>
    if Text.trimSpace userID = "" then .error (.other "user id is required")
    else .ok ({ store with drawn := store.drawn + 1 }.note (.sessionIssued userID grounds), env.randomToken store.drawn)
  | .issueDevice userID now grounds, input => store.issueDevice env userID grounds now input.now
  | .readDevice hash, _ =>
    match store.readDevice env hash with
    | some device => .ok (store.note (.deviceRead device), some device)
    | none => .ok (store, none)
  | .touchDevice deviceID now, _ => .ok (store.touchDevice deviceID now, ())
  | .revokeDevice userID deviceID, input =>
    if store.devices.rows.any fun device => device.id = deviceID && device.userID = userID then
      .ok (store.revokeDevice userID deviceID input.now, ())
    else .error .deviceNotFound
  | .revokeAll userID, input =>
    .ok (store.revokeAllForUser userID input.now, store.devices.affected (Store.unrevoked userID))

def exec (store : Store) (c : Command) (input : Input) : Store × Except AuthError (Answer c) :=
  match (if input.fails then c.failure else none) with
  | some e => (store, .error e)
  | none =>
    match run env store c input with
    | .ok (next, answer) => (next, .ok answer)
    | .error e => (store, .error e)

-- What others do to the tables: accounts change, the policy is set where there
-- is one, and old rows are swept.
inductive Change where
  | accounts (users : Table User.id)
  | policy (settings : AuthSettings)
  | sweepChallenges (cutoff : ℕ)
  | sweepDevices (cutoff : ℕ)

def change (store : Store) : Change → Option Store
  | .accounts users => some { store with users }
  | .policy settings => store.settings.map fun _ => { store with settings := some settings }
  | .sweepChallenges cutoff =>
    some { store with challenges := store.challenges.delete fun row => row.expiresAt < cutoff }
  | .sweepDevices cutoff =>
    some { store with
      devices := store.devices.delete fun device =>
        device.expiresAt < cutoff || device.revokedAt.any fun revoked => revoked < cutoff }

end TunnelMesh.Auth
