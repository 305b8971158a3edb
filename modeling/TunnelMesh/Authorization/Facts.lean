import TunnelMesh.Authorization.Scope
import TunnelMesh.Table

namespace TunnelMesh.Authorization

inductive AuthSource where
  | local
  | oidc
  | mixed

structure Account where
  id : String
  username : String
  role : String
  passwordHash : String
  disabled : Bool
  deletedAt : Option ℕ
  authSource : AuthSource
  mfaRequired : Bool

inductive TokenType where
  | agent
  | client
  | serverNode
  deriving DecidableEq

structure ServiceToken where
  id : String
  type : TokenType
  ownerUserID : String
  agentID : String
  nodeID : String
  tokenHash : String
  scope : String
  expiresAt : Option ℕ
  revokedAt : Option ℕ
  lastUsedAt : Option ℕ
  secretLastReadAt : Option ℕ

structure Agent where
  id : String
  name : String
  ownerUserID : String
  capabilities : String
  enabled : Bool

structure AgentPolicy where
  id : String
  agentID : String
  targetHost : String
  targetPort : ℤ
  protocol : String
  allowedCIDRs : String
  allowedPorts : String
  deletedAt : Option ℕ

structure Database where
  accounts : Table Account.id
  tokens : Table ServiceToken.id
  agents : Table Agent.id
  policies : Table AgentPolicy.id
  revision : ℕ

inductive StorageError where
  | noRows
  | conflict
  | tokenRevoked
  | tokenExpired
  | adminAccountProtected

namespace Database

variable (db : Database)

-- The write and the new revision are one transaction, which ends with the
-- first error.
def withAuthorizationRevision (operation : Except StorageError Database) :
    Except StorageError Database :=
  operation.map fun next => { next with revision := next.revision + 1 }

def affect {ρ : Type} {key : ρ → String} (t : Table key) (cond : ρ → Bool) (change : ρ → ρ)
    (hkey : ∀ row, key (change row) = key row) : Except StorageError (Table key) :=
  if t.affected cond = 0 then .error .noRows else .ok (t.update cond change hkey)

def remove {ρ : Type} {key : ρ → String} (t : Table key) (id : String) : Except StorageError (Table key) :=
  if t.affected (fun row => key row = id) = 0 then .error .noRows
  else .ok (t.delete fun row => key row = id)

def stampID (id drawn : String) : String := if id = "" then drawn else id

namespace Accounts

def create (account : Account) (drawn : String) : Except StorageError Database :=
  let row :=
    { account with
      id := stampID account.id drawn
      role := if account.role = "" then "user" else account.role }
  if row.username ∈ db.accounts.rows.map Account.username then .error .conflict
  else (db.accounts.insert row).elim (.error .conflict) fun accounts => .ok { db with accounts }

def replace (account row : Account) : Account :=
  { row with
    username := account.username
    role := account.role
    passwordHash := account.passwordHash
    disabled := account.disabled
    deletedAt := account.deletedAt }

def update (account : Account) : Except StorageError Database :=
  withAuthorizationRevision (do
    let accounts ← affect db.accounts (·.id = account.id) (replace account) fun _ => rfl
    if account.username ∈ (db.accounts.rows.filter (·.id ≠ account.id)).map Account.username then
      throw .conflict
    return { db with accounts })

variable (id : String)

def delete : Except StorageError Database :=
  withAuthorizationRevision ((remove db.accounts id).map fun accounts => { db with accounts })

def bury (now : ℕ) (row : Account) : Account :=
  { row with deletedAt := if row.deletedAt = none then some now else row.deletedAt, disabled := true }

theorem bury_id (now : ℕ) (row : Account) : (bury now row).id = row.id := rfl

def softDelete (now : ℕ) : Except StorageError Database :=
  (affect db.accounts (·.id = id) (bury now) (bury_id now)).map fun accounts => { db with accounts }

def revive (row : Account) : Account := { row with deletedAt := none, disabled := false }

theorem revive_id (row : Account) : (revive row).id = row.id := rfl

def restore : Except StorageError Database :=
  (affect db.accounts (·.id = id) revive revive_id).map fun accounts => { db with accounts }

def requireMFA (required : Bool) (row : Account) : Account := { row with mfaRequired := required }

def setMFARequired (required : Bool) : Except StorageError Database :=
  withAuthorizationRevision (
    (affect db.accounts (·.id = id) (requireMFA required) fun _ => rfl).map fun accounts =>
      { db with accounts })

def moveTo (source : AuthSource) (row : Account) : Account := { row with authSource := source }

theorem moveTo_id (source : AuthSource) (row : Account) : (moveTo source row).id = row.id := rfl

def setAuthSource (source : AuthSource) : Except StorageError Database :=
  (affect db.accounts (·.id = id) (moveTo source) (moveTo_id source)).map fun accounts => { db with accounts }

def mutateChild (lib : Library) (userID : String) (mutate : String → Except StorageError Database) :
    Except StorageError Database :=
  match db.accounts.get userID with
  | none => .error .noRows
  | some account =>
    if lib.equalFold account.role "admin" then .error .adminAccountProtected else mutate account.id

def deleteChild (lib : Library) (userID : String) (now : ℕ) : Except StorageError Database :=
  mutateChild db lib userID fun id => softDelete db id now

def restoreChild (lib : Library) (userID : String) : Except StorageError Database :=
  mutateChild db lib userID fun id => restore db id

end Accounts

namespace Tokens

def insert (token : ServiceToken) (drawn : String) : Except StorageError Database :=
  if token.tokenHash ∈ db.tokens.rows.map ServiceToken.tokenHash then .error .conflict
  else (db.tokens.insert { token with id := stampID token.id drawn }).elim (.error .conflict) fun tokens =>
    .ok { db with tokens }

def create (token : ServiceToken) (drawn : String) : Except StorageError Database :=
  withAuthorizationRevision (insert db token drawn)

variable (id : String)

def unrevoked (row : ServiceToken) : Bool := row.id = id && row.revokedAt = none

variable (now : ℕ)

def end_ (row : ServiceToken) : ServiceToken := { row with revokedAt := some now }

theorem end_id (row : ServiceToken) : (end_ now row).id = row.id := rfl

def revoke : Except StorageError Database :=
  withAuthorizationRevision (
    match db.tokens.get id with
    | none => .error .noRows
    | some row =>
      if row.revokedAt ≠ none then .error .tokenRevoked
      else .ok { db with tokens := db.tokens.update (unrevoked id) (end_ now) (end_id now) })

def ensureActive : Except StorageError Unit :=
  match db.tokens.get id with
  | none => .error .noRows
  | some row =>
    if row.revokedAt ≠ none then .error .tokenRevoked
    else if row.expiresAt.any fun expires => expires ≤ now then .error .tokenExpired
    else .ok ()

def expireAt (expiresAt : Option ℕ) (row : ServiceToken) : ServiceToken := { row with expiresAt }

def updateExpiration (expiresAt : Option ℕ) (now : ℕ) : Except StorageError Database :=
  withAuthorizationRevision (do
    ensureActive db id now
    let tokens ← affect db.tokens (unrevoked id) (expireAt expiresAt) fun _ => rfl
    return { db with tokens })

def rescope (scope : String) (row : ServiceToken) : ServiceToken := { row with scope }

def updateScope (id scope : String) (now : ℕ) : Except StorageError Database :=
  withAuthorizationRevision (do
    ensureActive db id now
    let tokens ← affect db.tokens (unrevoked id) (rescope scope) fun _ => rfl
    return { db with tokens })

def use (row : ServiceToken) : ServiceToken := { row with lastUsedAt := some now }

def touchLastUsed : Except StorageError Database :=
  (affect db.tokens (·.id = id) (use now) fun _ => rfl).map fun tokens => { db with tokens }

def readSecret (row : ServiceToken) : ServiceToken := { row with secretLastReadAt := some now }

def markSecretRead : Except StorageError Database :=
  (affect db.tokens (·.id = id) (readSecret now) fun _ => rfl).map fun tokens => { db with tokens }

def rotate (oldID : String) (replacement : ServiceToken) (drawn : String) (now : ℕ) :
    Except StorageError Database :=
  withAuthorizationRevision (
    match db.tokens.get oldID with
    | none => .error .noRows
    | some row =>
      if row.revokedAt ≠ none then .error .tokenRevoked
      else do
        let inserted ← insert db replacement drawn
        let tokens ← affect inserted.tokens (unrevoked oldID) (end_ now) (end_id now)
        return { inserted with tokens })

end Tokens

namespace Agents

def create (agent : Agent) (drawn : String) : Except StorageError Database :=
  withAuthorizationRevision (
    (db.agents.insert
      { agent with
        id := stampID agent.id drawn
        capabilities := if agent.capabilities = "" then "\x7b\x7d" else agent.capabilities }).elim
      (.error .conflict) fun agents => .ok { db with agents })

def replace (agent row : Agent) : Agent := { agent with id := row.id }

def update (agent : Agent) : Except StorageError Database :=
  withAuthorizationRevision (
    (affect db.agents (·.id = agent.id) (replace agent) fun _ => rfl).map fun agents => { db with agents })

def delete (id : String) : Except StorageError Database :=
  withAuthorizationRevision ((remove db.agents id).map fun agents => { db with agents })

end Agents

namespace Policies

def create (policy : AgentPolicy) (drawn : String) : Except StorageError Database :=
  withAuthorizationRevision (
    (db.policies.insert
      { policy with
        id := stampID policy.id drawn
        allowedCIDRs := if policy.allowedCIDRs = "" then "[]" else policy.allowedCIDRs
        allowedPorts := if policy.allowedPorts = "" then "[]" else policy.allowedPorts }).elim
      (.error .conflict) fun policies => .ok { db with policies })

def active (id : String) (row : AgentPolicy) : Bool := row.id = id && row.deletedAt = none

def replace (policy row : AgentPolicy) : AgentPolicy :=
  { policy with id := row.id, deletedAt := row.deletedAt }

def update (policy : AgentPolicy) : Except StorageError Database :=
  withAuthorizationRevision (
    (affect db.policies (active policy.id) (replace policy) fun _ => rfl).map fun policies =>
      { db with policies })

def bury (deletedAt : Option ℕ) (row : AgentPolicy) : AgentPolicy := { row with deletedAt }

def delete (id : String) (now : ℕ) : Except StorageError Database :=
  withAuthorizationRevision (
    (affect db.policies (active id) (bury (some now)) fun _ => rfl).map fun policies => { db with policies })

def restore (id : String) : Except StorageError Database :=
  withAuthorizationRevision (
    (affect db.policies (fun row => row.id = id && row.deletedAt ≠ none) (bury none) fun _ => rfl).map
      fun policies => { db with policies })

end Policies

end Database

inductive Write where
  | createUser (account : Account) (drawn : String)
  | updateUser (account : Account)
  | deleteUser (id : String)
  | softDelete (id : String) (now : ℕ)
  | restore (id : String)
  | deleteChild (userID : String) (now : ℕ)
  | restoreChild (userID : String)
  | setMFARequired (id : String) (required : Bool)
  | setAuthSource (id : String) (source : AuthSource)
  | createToken (token : ServiceToken) (drawn : String)
  | revokeToken (id : String) (now : ℕ)
  | updateExpiration (id : String) (expiresAt : Option ℕ) (now : ℕ)
  | updateScope (id scope : String) (now : ℕ)
  | touchLastUsed (id : String) (now : ℕ)
  | markSecretRead (id : String) (now : ℕ)
  | rotate (oldID : String) (replacement : ServiceToken) (drawn : String) (now : ℕ)
  | createAgent (agent : Agent) (drawn : String)
  | updateAgent (agent : Agent)
  | deleteAgent (id : String)
  | createPolicy (policy : AgentPolicy) (drawn : String)
  | updatePolicy (policy : AgentPolicy)
  | deletePolicy (id : String) (now : ℕ)
  | restorePolicy (id : String)

def Database.commit (lib : Library) (db : Database) : Write → Except StorageError Database
  | .createUser account drawn => Accounts.create db account drawn
  | .updateUser account => Accounts.update db account
  | .deleteUser id => Accounts.delete db id
  | .softDelete id now => Accounts.softDelete db id now
  | .restore id => Accounts.restore db id
  | .deleteChild userID now => Accounts.deleteChild db lib userID now
  | .restoreChild userID => Accounts.restoreChild db lib userID
  | .setMFARequired id required => Accounts.setMFARequired db id required
  | .setAuthSource id source => Accounts.setAuthSource db id source
  | .createToken token drawn => Tokens.create db token drawn
  | .revokeToken id now => Tokens.revoke db id now
  | .updateExpiration id expiresAt now => Tokens.updateExpiration db id expiresAt now
  | .updateScope id scope now => Tokens.updateScope db id scope now
  | .touchLastUsed id now => Tokens.touchLastUsed db id now
  | .markSecretRead id now => Tokens.markSecretRead db id now
  | .rotate oldID replacement drawn now => Tokens.rotate db oldID replacement drawn now
  | .createAgent agent drawn => Agents.create db agent drawn
  | .updateAgent agent => Agents.update db agent
  | .deleteAgent id => Agents.delete db id
  | .createPolicy policy drawn => Policies.create db policy drawn
  | .updatePolicy policy => Policies.update db policy
  | .deletePolicy id now => Policies.delete db id now
  | .restorePolicy id => Policies.restore db id

end TunnelMesh.Authorization
