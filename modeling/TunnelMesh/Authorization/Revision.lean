import TunnelMesh.Authorization.Stream.Theorems
import TunnelMesh.Fallible

namespace TunnelMesh.Authorization

open Database.Accounts Database Option

-- A write that changes the verdict on some request moves the revision.
def MovesRevision (lib : Library) (db : Database) (write : Write) : Prop :=
  ∀ next, db.commit lib write = .ok next →
    (∃ now id req, authorizeStream lib db now id req ≠ authorizeStream lib next now id req) →
      db.revision < next.revision

def isAdmin (lib : Library) (db : Database) (userID : String) : Bool :=
  (db.accounts.get userID).any fun account => lib.equalFold account.role "admin"

-- The account that a write outside `withAuthorizationRevision` turns from
-- active to inactive or the other way.
def flips (lib : Library) (db : Database) : Write → Option String
  | .createUser account drawn =>
    let id := stampID account.id drawn
    if account.username ∉ db.accounts.rows.map Account.username ∧ db.accounts.get id = none ∧
        account.disabled = false ∧ account.deletedAt = none then some id
    else none
  | .softDelete id _ => if ownerActive db id then some id else none
  | .restore id => if (db.accounts.get id).isSome && !ownerActive db id then some id else none
  | .deleteChild userID _ => if ownerActive db userID && !isAdmin lib db userID then some userID else none
  | .restoreChild userID =>
    if (db.accounts.get userID).isSome && !ownerActive db userID && !isAdmin lib db userID then
      some userID
    else none
  | _ => none

section Writes

variable {db next : Database}

structure OnlyAccounts (db next : Database) : Prop where
  tokens : next.tokens = db.tokens
  agents : next.agents = db.agents
  policies : next.policies = db.policies
  revision : next.revision = db.revision

theorem permitted_congr (h : OnlyAccounts db next) (now : ℕ) (id : TokenIdentity)
    (req : StreamAuthorizationRequest) : permitted lib next now id req = permitted lib db now id req := by
  obtain ⟨accounts, tokens, agents, policies, revision⟩ := next
  obtain ⟨rfl, rfl, rfl, rfl⟩ := h
  rfl

-- A silent write keeps the property exactly where the verdicts on the tokens of
-- the accounts it turns do not depend on them.
theorem silent_iff (h : OnlyAccounts db next) :
    ((∃ now id req, authorizeStream lib db now id req ≠ authorizeStream lib next now id req) →
        db.revision < next.revision) ↔ ∀ now id req, ownerActive db id.ownerUserID ≠ ownerActive next id.ownerUserID →
        permitted lib db now id req = false := by
  have hv : ∀ now id req, authorizeStream lib db now id req ≠ authorizeStream lib next now id req ↔
      ownerActive db id.ownerUserID ≠ ownerActive next id.ownerUserID ∧ permitted lib db now id req := by
    intro now id req
    rw [authorizeStream_eq, authorizeStream_eq, permitted_congr h]
    cases permitted lib db now id req with
    | true | false => simp
  rw [h.revision]
  constructor
  · intro hm now id req ht
    by_contra hp
    have hlt := hm ⟨now, id, req, (hv now id req).mpr ⟨ht, by simpa using hp⟩⟩
    omega
  · rintro hq ⟨now, id, req, hd⟩
    obtain ⟨ht, hp⟩ := (hv now id req).mp hd
    rw [hq now id req ht] at hp
    cases hp

theorem affect_ok {ρ : Type} {key : ρ → String} {t t' : Table key} {cond : ρ → Bool} {change : ρ → ρ}
    {hkey : ∀ row, key (change row) = key row} (h : affect t cond change hkey = .ok t') :
    t' = t.update cond change hkey ∧ 0 < t.affected cond := by
  unfold affect at h
  split_ifs at h with ha
  exact ⟨(Except.ok.inj h).symm, Nat.pos_of_ne_zero ha⟩

theorem revision_lt (h : withAuthorizationRevision operation = .ok next)
    (hop : ∀ written, operation = .ok written → written.revision = db.revision) : db.revision < next.revision := by
  obtain ⟨written, hw, rfl⟩ := map_eq_ok h
  have hsame := hop written hw
  simp only
  omega

theorem tokens_insert_ok (h : Tokens.insert db token drawn = .ok next) : ∃ tokens, next = { db with tokens } := by
  unfold Tokens.insert at h
  split_ifs at h
  obtain ⟨tokens, -, rfl⟩ := elim_eq_ok h; exact ⟨tokens, rfl⟩

def revisioned : Write → Bool
  | .createUser _ _ | .softDelete _ _ | .restore _ | .deleteChild _ _ | .restoreChild _ | .setAuthSource _ _
  | .touchLastUsed _ _ | .markSecretRead _ _ => false
  | _ => true

theorem revision_lt_of_revisioned {write : Write} (hr : revisioned write)
    (h : db.commit lib write = .ok next) : db.revision < next.revision := by
  cases write
  case createUser | softDelete | restore | deleteChild | restoreChild | setAuthSource | touchLastUsed |
    markSecretRead => cases hr
  all_goals refine revision_lt h fun written hw => ?_
  case updateUser account =>
    obtain ⟨accounts, -, hw⟩ := bind_eq_ok hw
    split at hw <;> cases hw
    rfl
  case createToken token drawn => obtain ⟨tokens, rfl⟩ := tokens_insert_ok hw; rfl
  case revokeToken id now =>
    split at hw
    · cases hw
    · split at hw <;> cases hw
      rfl
  case updateExpiration | updateScope =>
    obtain ⟨_, -, hw⟩ := bind_eq_ok hw
    obtain ⟨tokens, -, hw⟩ := bind_eq_ok hw
    cases hw
    rfl
  case rotate oldID replacement drawn now =>
    split at hw
    · cases hw
    split_ifs at hw
    obtain ⟨inserted, hi, hw⟩ := bind_eq_ok hw
    obtain ⟨tokens, -, hw⟩ := bind_eq_ok hw
    obtain ⟨_, rfl⟩ := tokens_insert_ok hi
    cases hw
    rfl
  case createAgent | createPolicy => obtain ⟨_, -, rfl⟩ := elim_eq_ok hw; rfl
  all_goals obtain ⟨_, -, rfl⟩ := map_eq_ok hw; rfl

theorem authorizeStream_tokens {cond : ServiceToken → Bool} {f : ServiceToken → ServiceToken}
    (hkey : ∀ row, (f row).id = row.id) (hf : ∀ row, (f row).type = row.type ∧ (f row).ownerUserID = row.ownerUserID ∧
      ∀ now, clientScopeFromRecord lib db now (f row) = clientScopeFromRecord lib db now row)
    (now : ℕ) (id : TokenIdentity) (req : StreamAuthorizationRequest) :
    authorizeStream lib { db with tokens := db.tokens.update cond f hkey } now id req =
      authorizeStream lib db now id req := by
  unfold authorizeStream
  by_cases hid : id.tokenID = "" ∨ id.type ≠ .client
  · simp only [if_pos hid]
  have hs : ∀ record, clientScopeFromRecord lib { db with tokens := db.tokens.update cond f hkey } now record =
      clientScopeFromRecord lib db now record := fun _ => rfl
  have hp : ({ db with tokens := db.tokens.update cond f hkey } : Database).policies = db.policies := rfl
  simp only [if_neg hid, Table.get_update, hs, agentPolicyAllows_congr hp]
  cases db.tokens.get id.tokenID with
  | none => rfl
  | some record =>
    simp only [map_some]
    split
    · obtain ⟨ht, ho, hr⟩ := hf record; simp only [ht, ho, hr]
    · rfl

variable {id : String}

theorem affect_of_get {f : Account → Account}
    (hkey : ∀ row, (f row).id = row.id) (hget : db.accounts.get id = some account) :
    affect db.accounts (·.id = id) f hkey = .ok (db.accounts.update (·.id = id) f hkey) := by
  have hid : account.id = id := db.accounts.key_of_get hget
  have hmem : account ∈ db.accounts.rows := ((db.accounts.get_eq_some_iff id account).mp hget).1
  have hpos : 0 < db.accounts.affected (·.id = id) :=
    (db.accounts.affected_pos_iff _).mpr ⟨account, hmem, by simpa using hid⟩
  exact if_neg hpos.ne'

theorem get_of_affected (h : 0 < db.accounts.affected (·.id = id)) :
    ∃ account, db.accounts.get id = some account := by
  obtain ⟨account, hmem, hid⟩ := (db.accounts.affected_pos_iff _).mp h
  exact ⟨account, (db.accounts.get_eq_some_iff id account).mpr ⟨hmem, by simpa using hid⟩⟩

theorem ownerActive_at (hkey : ∀ row, (f row).id = row.id) (id owner : String) :
    ownerActive { db with accounts := db.accounts.update (·.id = id) f hkey } owner =
      if owner = id then (db.accounts.get id).any fun account => !(f account).disabled && (f account).deletedAt = none
      else ownerActive db owner := by
  unfold ownerActive
  rw [Table.get_update, any_map]
  split
  · next hid =>
    subst hid
    cases hget : db.accounts.get owner with
    | none => rfl
    | some account => simp [db.accounts.key_of_get hget]
  · next hid =>
    cases hget : db.accounts.get owner with
    | none => rfl
    | some account => simp [db.accounts.key_of_get hget, hid]

theorem movesRevision_iff_of_turns {write : Write} (ht : ∀ next, db.commit lib write = .ok next → OnlyAccounts db next ∧
      ∀ owner, ownerActive db owner ≠ ownerActive next owner ↔ flips lib db write = some owner)
    (hc : ∀ owner, flips lib db write = some owner → ∃ next, db.commit lib write = .ok next) :
    MovesRevision lib db write ↔ ∀ owner ∈ flips lib db write, ∀ now id req,
      id.ownerUserID = owner → permitted lib db now id req = false := by
  constructor
  · intro h owner ho now id req hid
    obtain ⟨next, hn⟩ := hc owner ho
    obtain ⟨honly, hiff⟩ := ht next hn
    refine (silent_iff honly).mp (h next hn) now id req ((hiff _).mpr ?_)
    rw [hid]
    exact ho
  · intro h next hn
    obtain ⟨honly, hiff⟩ := ht next hn
    exact (silent_iff honly).mpr fun now id req hturned => h _ ((hiff _).mp hturned) now id req rfl

theorem movesRevision_iff_of_verdicts {write : Write} (hf : flips lib db write = none)
    (hv : ∀ next, db.commit lib write = .ok next →
      ∀ now id req, authorizeStream lib next now id req = authorizeStream lib db now id req) :
    MovesRevision lib db write ↔ ∀ owner ∈ flips lib db write, ∀ now id req,
      id.ownerUserID = owner → permitted lib db now id req = false := by
  rw [hf]
  constructor
  · rintro - owner ⟨⟩
  · rintro - next hn ⟨now, id, req, hd⟩; exact absurd (hv next hn now id req).symm hd

theorem get_of_ownerActive (h : ownerActive db id) : (db.accounts.get id).isSome := by
  cases hget : db.accounts.get id with
  | none => simp [ownerActive, hget] at h
  | some account => rfl

theorem softDelete_ok (h : softDelete db id now = .ok next) : OnlyAccounts db next ∧
      ∀ owner, ownerActive db owner ≠ ownerActive next owner ↔ owner = id ∧ ownerActive db id := by
  obtain ⟨accounts, ha, rfl⟩ := map_eq_ok h
  obtain ⟨rfl, -⟩ := affect_ok ha
  refine ⟨⟨rfl, rfl, rfl, rfl⟩, fun owner => ?_⟩
  have hb : ((db.accounts.get id).any fun account =>
      !(bury now account).disabled &&
        (bury now account).deletedAt = none) = false := by cases db.accounts.get id <;> simp [bury]
  rw [ownerActive_at, hb]
  by_cases hid : owner = id
  · simp [hid]
  · simp [hid]

theorem softDelete_of_active (now : ℕ) (h : ownerActive db id) :
    ∃ next, softDelete db id now = .ok next := by
  cases hget : db.accounts.get id with
  | none => simp [ownerActive, hget] at h
  | some account => rw [softDelete, affect_of_get (bury_id now) hget]; exact ⟨_, rfl⟩

theorem restore_ok (h : restore db id = .ok next) :
    OnlyAccounts db next ∧ ∀ owner, ownerActive db owner ≠ ownerActive next owner ↔
      owner = id ∧ (db.accounts.get id).isSome ∧ ownerActive db id = false := by
  obtain ⟨accounts, haffect, rfl⟩ := map_eq_ok h
  obtain ⟨rfl, ha⟩ := affect_ok haffect
  obtain ⟨account, hget⟩ := get_of_affected ha
  refine ⟨⟨rfl, rfl, rfl, rfl⟩, fun owner => ?_⟩
  have hr : ((db.accounts.get id).any fun account =>
      !(revive account).disabled &&
        (revive account).deletedAt = none) := by simp [hget, revive]
  rw [ownerActive_at, hr]
  by_cases hid : owner = id
  · simp [hid, hget]
  · simp [hid]

theorem restore_of_get (h : (db.accounts.get id).isSome) : ∃ next, restore db id = .ok next := by
  obtain ⟨account, hget⟩ := isSome_iff_exists.mp h
  rw [restore, affect_of_get revive_id hget]
  exact ⟨_, rfl⟩

theorem mutateChild_ok {userID : String} {mutate : String → Except StorageError Database}
    (h : mutateChild db lib userID mutate = .ok next) : isAdmin lib db userID = false ∧ mutate userID = .ok next := by
  unfold mutateChild at h
  cases hget : db.accounts.get userID with
  | none => simp [hget] at h
  | some account =>
    simp only [hget] at h
    split_ifs at h with hr
    rw [db.accounts.key_of_get hget] at h
    exact ⟨by simpa [isAdmin, hget] using hr, h⟩

theorem mutateChild_of_get {userID : String} (mutate : String → Except StorageError Database)
    (hget : (db.accounts.get userID).isSome) (hrole : isAdmin lib db userID = false)
    (hm : ∃ next, mutate userID = .ok next) : ∃ next, mutateChild db lib userID mutate = .ok next := by
  obtain ⟨account, hget⟩ := isSome_iff_exists.mp hget
  have hr : lib.equalFold account.role "admin" = false := by simpa [isAdmin, hget] using hrole
  unfold mutateChild
  simp only [hget, hr, Bool.false_eq_true, if_false]
  rw [db.accounts.key_of_get hget]
  exact hm

theorem createUser_ok (h : create db account drawn = .ok next) :
    OnlyAccounts db next ∧ ∀ owner, ownerActive db owner ≠ ownerActive next owner ↔
      flips lib db (.createUser account drawn) = some owner := by
  unfold create at h
  simp only at h
  split at h
  · cases h
  rename_i hu
  obtain ⟨accounts, hi, rfl⟩ := elim_eq_ok h
  have hget := db.accounts.get_insert hi
  have hf := db.accounts.get_of_insert hi
  refine ⟨⟨rfl, rfl, rfl, rfl⟩, fun owner => ?_⟩
  simp only [flips, ownerActive, hget]
  by_cases hid : stampID account.id drawn = owner
  · subst hid; cases account.disabled <;> cases account.deletedAt <;> simp [hf, hu]
  · simp [hid]

theorem createUser_of_flips (h : flips lib db (.createUser account drawn) = some owner) :
    ∃ next, create db account drawn = .ok next := by
  simp only [flips] at h
  split_ifs at h with hf
  obtain ⟨hu, hget, -, -⟩ := hf
  unfold create
  simp only [if_neg hu]
  cases hi : db.accounts.insert
      { account with
        id := stampID account.id drawn
        role := if account.role = "" then "user" else account.role } with
  | none =>
    have ht := (db.accounts.insert_eq_none_iff _).mp hi
    rw [hget] at ht
    cases ht
  | some accounts => exact ⟨_, rfl⟩

theorem setAuthSource_ok (h : setAuthSource db id source = .ok next) :
    OnlyAccounts db next ∧ ∀ owner, ownerActive db owner = ownerActive next owner := by
  obtain ⟨accounts, ha, rfl⟩ := map_eq_ok h
  obtain ⟨rfl, -⟩ := affect_ok ha
  refine ⟨⟨rfl, rfl, rfl, rfl⟩, fun owner => ?_⟩
  rw [ownerActive_at]
  split
  · next hid => rw [hid]; rfl
  · rfl

end Writes

-- A write moves the revision whenever it changes a verdict, but for the writes
-- of accounts outside `withAuthorizationRevision`: these do exactly if no
-- request with a token of the account they turn would be permitted.
theorem moves_revision_iff (lib : Library) (db : Database) (write : Write) :
    MovesRevision lib db write ↔ ∀ owner ∈ flips lib db write, ∀ now id req,
      id.ownerUserID = owner → permitted lib db now id req = false := by
  by_cases hrevisioned : revisioned write
  · have hflips : flips lib db write = none := by
      cases write <;> first | rfl | cases hrevisioned
    rw [hflips]
    constructor
    · rintro - owner ⟨⟩
    · exact fun _ next hnext _ => revision_lt_of_revisioned hrevisioned hnext
  cases write with
  | createUser account drawn =>
    exact movesRevision_iff_of_turns (fun _ h => createUser_ok h) fun _ h => createUser_of_flips h
  | softDelete id now =>
    refine movesRevision_iff_of_turns (fun next h => ?_) fun owner h => ?_
    · obtain ⟨honly, hturns⟩ := softDelete_ok h
      refine ⟨honly, fun owner => (hturns owner).trans ?_⟩
      cases hactive : ownerActive db id <;> simp [flips, hactive, eq_comm]
    · refine softDelete_of_active now ?_
      by_contra hactive
      simp [flips, hactive] at h
  | restore id =>
    refine movesRevision_iff_of_turns (fun next h => ?_) fun owner h => ?_
    · obtain ⟨honly, hturns⟩ := restore_ok h
      refine ⟨honly, fun owner => (hturns owner).trans ?_⟩
      cases hactive : ownerActive db id <;> cases hget : (db.accounts.get id).isSome <;>
        simp [flips, hactive, hget, eq_comm]
    · refine restore_of_get ?_
      by_contra hget
      simp [flips, hget] at h
  | deleteChild userID now =>
    refine movesRevision_iff_of_turns (fun next h => ?_) fun owner h => ?_
    · have h : mutateChild db lib userID (fun id => softDelete db id now) = .ok next := h
      obtain ⟨hrole, hdelete⟩ := mutateChild_ok h
      obtain ⟨honly, hturns⟩ := softDelete_ok hdelete
      refine ⟨honly, fun owner => (hturns owner).trans ?_⟩
      cases hactive : ownerActive db userID <;> simp [flips, hactive, hrole, eq_comm]
    · obtain ⟨hactive, hrole⟩ : ownerActive db userID ∧ isAdmin lib db userID = false := by
        by_contra hnot
        simp [flips, hnot] at h
      exact mutateChild_of_get (fun id => softDelete db id now) (get_of_ownerActive hactive) hrole
        (softDelete_of_active now hactive)
  | restoreChild userID =>
    refine movesRevision_iff_of_turns (fun next h => ?_) fun owner h => ?_
    · obtain ⟨hrole, hrestore⟩ := mutateChild_ok h
      obtain ⟨honly, hturns⟩ := restore_ok hrestore
      refine ⟨honly, fun owner => (hturns owner).trans ?_⟩
      cases hactive : ownerActive db userID <;> cases hget : (db.accounts.get userID).isSome <;>
        simp [flips, hactive, hget, hrole, eq_comm]
    · obtain ⟨hget, hrole⟩ : (db.accounts.get userID).isSome ∧ isAdmin lib db userID = false := by
        by_contra hnot
        simp only [flips] at h
        split_ifs at h with hcond
        simp only [Bool.and_eq_true, Bool.not_eq_true'] at hcond
        exact hnot ⟨hcond.1.1, hcond.2⟩
      exact mutateChild_of_get (fun id => restore db id) hget hrole (restore_of_get hget)
  | setAuthSource id source =>
    refine movesRevision_iff_of_turns (fun next h => ?_) fun owner h => by cases h
    obtain ⟨honly, hsame⟩ := setAuthSource_ok h
    refine ⟨honly, fun owner => ?_⟩
    simp [flips, hsame owner]
  | touchLastUsed | markSecretRead =>
    refine movesRevision_iff_of_verdicts rfl fun next h => ?_
    obtain ⟨tokens, haffect, rfl⟩ := map_eq_ok h
    obtain ⟨rfl, -⟩ := affect_ok haffect
    exact authorizeStream_tokens _ fun _ => ⟨rfl, rfl, fun _ => rfl⟩
  | _ => exact absurd rfl hrevisioned

def sampleLibrary : Library where
  toLower := id
  equalFold a b := a = b
  Address := String
  Network := String
  parseIP _ := none
  parseCIDR := some
  contains network ip := network = ip
  networkString := id
  unmarshalStrings _ := none
  unmarshalInts _ := none
  decodeScope _ := some ⟨[], [], [], [], []⟩
  marshalScope _ := ""

def sampleDatabase : Database where
  accounts := ⟨[⟨"u", "alice", "user", "", false, none, .local, false⟩], List.nodup_singleton _⟩
  tokens := ⟨[⟨"t", .client, "u", "", "", "hash", "\x7b\x7d", none, none, none, none⟩], List.nodup_singleton _⟩
  agents := ⟨[⟨"a", "agent", "u", "", true⟩], List.nodup_singleton _⟩
  policies := ⟨[⟨"p", "a", "*", 0, "tcp", "[]", "[]", none⟩], List.nodup_singleton _⟩
  revision := 1

-- Deleting the account ends its streams' authorization and leaves the revision
-- where it was.
theorem account_deletion_keeps_revision : ∃ next, sampleDatabase.commit sampleLibrary (.deleteChild "u" 0) = .ok next ∧
      authorizeStream sampleLibrary sampleDatabase 0 ⟨"t", "u", .client⟩ ⟨"a", "tcp", "host", 80⟩ = true ∧
      authorizeStream sampleLibrary next 0 ⟨"t", "u", .client⟩ ⟨"a", "tcp", "host", 80⟩ = false ∧
      next.revision = sampleDatabase.revision := by
  refine ⟨{ sampleDatabase with
    accounts := ⟨[⟨"u", "alice", "user", "", true, some 0, .local, false⟩], List.nodup_singleton _⟩ }, rfl, ?_⟩
  decide +kernel

end TunnelMesh.Authorization
