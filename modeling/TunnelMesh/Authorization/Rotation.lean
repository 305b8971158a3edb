import TunnelMesh.Authorization.Revision
import TunnelMesh.Transition

namespace TunnelMesh.Authorization

open Database.Tokens Option Transition

def ServiceToken.terms (token : ServiceToken) : String × Option ℕ := (token.scope, token.expiresAt)

-- The transactions of `Rotate` between their read of the token and their write,
-- each with the row it has read. The read takes the lock on the row, or on the
-- whole database, that the transaction keeps to its end. For each token, `terms`
-- has the scope and the expiry that the last update of it, or of the token it was
-- rotated from, has set.
structure Rotating where
  db : Database
  locked : List ServiceToken
  terms : String → String × Option ℕ

def Rotating.start (db : Database) : Rotating := ⟨db, [], fun id => ((db.tokens.get id).map (·.terms)).getD ("", none)⟩

def replacement (record : ServiceToken) (id hash : String) (encrypted : Bool) : ServiceToken :=
  { record with
    id := "stok_" ++ id
    tokenHash := hash
    revokedAt := none
    lastUsedAt := none
    secretLastReadAt := if encrypted then none else record.secretLastReadAt }

-- A statement that finds the row locked waits. An update is its whole transaction,
-- which keeps the lock too.
inductive RotationLabel where
  | read (id : String)
  | rotate (i : ℕ) (id hash : String) (encrypted : Bool) (now : ℕ)
  | rollback (i : ℕ)
  | updateScope (id scope : String) (now : ℕ)
  | updateExpiration (id : String) (expiresAt : Option ℕ) (now : ℕ)

namespace Rotating

variable (s : Rotating)

def isLocked (id : String) : Bool := s.locked.any (·.id = id)

def commit (db : Except StorageError Database) (id : String) (terms : String × Option ℕ) : Rotating :=
  match db with
  | .error _ => s
  | .ok db => { s with db, terms := Function.update s.terms id terms }

def step : RotationLabel → Option Rotating
  | .read id =>
    if s.isLocked (Text.trimSpace id) then none
    else (s.db.tokens.get (Text.trimSpace id)).map fun record => { s with locked := s.locked ++ [record] }
  | .rotate i id hash encrypted now => s.locked[i]?.map fun record =>
      let new := replacement record id hash encrypted
      { s.commit (rotate s.db record.id new "" now) new.id (s.terms record.id) with locked := s.locked.eraseIdx i }
  | .rollback i => some { s with locked := s.locked.eraseIdx i }
  | .updateScope id scope now =>
    if s.isLocked id then none else some (s.commit (updateScope s.db id scope now) id (scope, (s.terms id).2))
  | .updateExpiration id expiresAt now =>
    if s.isLocked id then none
    else some (s.commit (updateExpiration s.db id expiresAt now) id ((s.terms id).1, expiresAt))

def Narrowed : Prop :=
  ∀ row ∈ s.db.tokens.rows, row.revokedAt = none → row.terms = s.terms row.id
  deriving Decidable

-- What a transaction has read is still what the row has.
structure Invariant : Prop where
  narrowed : s.Narrowed
  held : ∀ record ∈ s.locked, (s.db.tokens.get record.id).map (·.terms) = some record.terms

variable {s next : Rotating}

theorem Narrowed.get {id : String} {row : ServiceToken} (h : s.Narrowed) (hrow : s.db.tokens.get id = some row)
    (hl : row.revokedAt = none) : row.terms = s.terms id :=
  have ⟨hmem, hid⟩ := (s.db.tokens.get_eq_some_iff id row).mp hrow
  hid ▸ h row hmem hl

theorem commit_invariant {result : Except StorageError Database} {id : String} {terms : String × Option ℕ}
    (h : s.Invariant) (hn : ∀ db, result = .ok db → ∀ other row, db.tokens.get other = some row → row.revokedAt = none →
      row.terms = if other = id then terms else s.terms other)
    (hh : ∀ db, result = .ok db → ∀ record ∈ s.locked,
      (db.tokens.get record.id).map (·.terms) = (s.db.tokens.get record.id).map (·.terms)) :
    (s.commit result id terms).Invariant := by
  cases result with
  | error e => exact h
  | ok db =>
    refine ⟨fun row hmem hl => ?_, fun record hr => (hh db rfl record hr).trans (h.held record hr)⟩
    rw [hn db rfl row.id row ((db.tokens.get_eq_some_iff _ _).mpr ⟨hmem, rfl⟩) hl]
    exact (Function.update_apply ..).symm

theorem Invariant.erase (h : s.Invariant) (i : ℕ) : { s with locked := s.locked.eraseIdx i : Rotating }.Invariant :=
  ⟨h.narrowed, fun record hr => h.held record ((List.eraseIdx_sublist ..).subset hr)⟩

theorem update_eq_ok {db next : Database} {id : String} {change : ServiceToken → ServiceToken} {now : ℕ}
    {hkey : ∀ row, (change row).id = row.id} (h : Database.withAuthorizationRevision (do
      ensureActive db id now
      let tokens ← Database.affect db.tokens (unrevoked id) change hkey
      return { db with tokens }) = .ok next) : next.tokens = db.tokens.update (unrevoked id) change hkey := by
  obtain ⟨written, hw, rfl⟩ := map_eq_ok h
  obtain ⟨-, -, hw⟩ := bind_eq_ok hw
  obtain ⟨tokens, ht, hw⟩ := bind_eq_ok hw
  cases hw
  exact (affect_ok ht).1

theorem rotate_eq_ok {db next : Database} {oldID : String} {new : ServiceToken} {now : ℕ} (hid : new.id ≠ "")
    (h : rotate db oldID new "" now = .ok next) : ∃ old table, db.tokens.get oldID = some old ∧ old.revokedAt = none ∧
      db.tokens.insert new = some table ∧ next.tokens = table.update (unrevoked oldID) (end_ now) (end_id now) := by
  obtain ⟨written, hw, rfl⟩ := map_eq_ok h
  split at hw
  · cases hw
  · next old hold =>
    obtain ⟨ha, hw⟩ := guard_eq_ok.mp hw
    obtain ⟨inserted, hi, hw⟩ := bind_eq_ok hw
    obtain ⟨tokens, ht, hw⟩ := bind_eq_ok hw
    cases hw
    obtain ⟨-, hi⟩ := guard_eq_ok.mp hi
    obtain ⟨table, hins, rfl⟩ := elim_eq_ok hi
    rw [Database.stampID, if_neg hid] at hins
    exact ⟨old, table, hold, by simpa using ha, hins, (affect_ok ht).1⟩

theorem update_invariant {id : String} {terms : String × Option ℕ} {change : ServiceToken → ServiceToken} {now : ℕ}
    (hkey : ∀ row, (change row).id = row.id) (hrev : ∀ row, (change row).revokedAt = row.revokedAt)
    (hterms : ∀ row, row.terms = s.terms id → (change row).terms = terms) (h : s.Invariant) (hfree : ¬ s.isLocked id) :
    (s.commit (Database.withAuthorizationRevision (do
      ensureActive s.db id now
      let tokens ← Database.affect s.db.tokens (unrevoked id) change hkey
      return { s.db with tokens })) id terms).Invariant := by
  have hother {other} (ho : other ≠ id) :
      (s.db.tokens.update (unrevoked id) change hkey).get other = s.db.tokens.get other :=
    s.db.tokens.get_update_of_ne (k := id) (by simp +contextual [unrevoked]) hkey ho.symm
  refine commit_invariant h (fun db hdb other row hrow hl => ?_) fun db hdb record hr => ?_
  · rw [update_eq_ok hdb] at hrow
    by_cases ho : other = id
    · subst ho
      obtain ⟨old, hold, hr⟩ := map_eq_some_iff.mp ((s.db.tokens.get_update _ _ hkey other).symm.trans hrow)
      have ha : old.revokedAt = none := by
        rw [← hr] at hl
        split at hl
        · rw [← hrev old, hl]
        · exact hl
      rw [if_pos (by simp [unrevoked, s.db.tokens.key_of_get hold, ha])] at hr
      rw [if_pos rfl, ← hr]
      exact hterms old (h.narrowed.get hold ha)
    · rw [if_neg ho]
      exact h.narrowed.get (hother ho ▸ hrow) hl
  · have ho : record.id ≠ id := fun he => hfree (List.any_eq_true.mpr ⟨record, hr, decide_eq_true he⟩)
    rw [update_eq_ok hdb, hother ho]

theorem rotate_invariant (record new : ServiceToken) (now : ℕ) (hid : new.id ≠ "") (hterms : new.terms = record.terms)
    (hr : record ∈ s.locked) (h : s.Invariant) :
    (s.commit (rotate s.db record.id new "" now) new.id (s.terms record.id)).Invariant := by
  refine commit_invariant h (fun db hdb other row hrow hl => ?_) fun db hdb held hheld => ?_
  · obtain ⟨old, table, hold, ha, hins, ht⟩ := rotate_eq_ok hid hdb
    rw [ht, Table.get_update] at hrow
    obtain ⟨prev, hp, rfl⟩ := map_eq_some_iff.mp hrow
    -- A row that the second statement has written is revoked.
    split at hl
    · cases hl
    rw [if_neg ‹_›]
    rw [s.db.tokens.get_insert hins] at hp
    split at hp
    · next hnew =>
      cases hp
      have hread := h.held record hr
      rw [hold, map_some] at hread
      rw [if_pos hnew.symm, ← h.narrowed.get hold ha, hterms]
      exact (some.inj hread).symm
    · next hnew =>
      rw [if_neg fun he => hnew he.symm]
      exact h.narrowed.get hp hl
  · obtain ⟨old, table, -, -, hins, ht⟩ := rotate_eq_ok hid hdb
    obtain ⟨row, hrow, -⟩ := map_eq_some_iff.mp (h.held held hheld)
    have hne : new.id ≠ held.id := fun he => by
      have hnone := s.db.tokens.get_of_insert hins
      rw [he, hrow] at hnone
      cases hnone
    rw [ht, Table.get_update, s.db.tokens.get_insert hins, if_neg hne, hrow, map_some, map_some, map_some]
    split <;> rfl

theorem step_invariant (h : s.Invariant) (hs : s.step label = some next) : next.Invariant := by
  cases label with
  | read id =>
    obtain ⟨-, hs⟩ := ite_none_left_eq_some.mp hs
    obtain ⟨record, hget, rfl⟩ := map_eq_some_iff.mp hs
    refine ⟨h.narrowed, fun held hheld => ?_⟩
    rcases List.mem_append.mp hheld with hold | hnew
    · exact h.held held hold
    · obtain rfl := List.mem_singleton.mp hnew
      rw [s.db.tokens.key_of_get hget, hget, map_some]
  | rotate i id hash encrypted now =>
    obtain ⟨record, hr, rfl⟩ := map_eq_some_iff.mp hs
    have hc := rotate_invariant record (replacement record id hash encrypted) now (by simp [replacement]) rfl
      (List.mem_of_getElem? hr) h
    refine ⟨hc.narrowed, fun held hheld => hc.held held ?_⟩
    have hmem := (List.eraseIdx_sublist ..).subset hheld
    unfold commit
    split <;> exact hmem
  | rollback i => cases hs; exact h.erase i
  | updateScope | updateExpiration =>
    obtain ⟨hfree, hs⟩ := ite_none_left_eq_some.mp hs
    cases hs
    exact update_invariant _ (fun _ => rfl) (fun row hrow => by rw [← hrow]; rfl) h hfree

theorem rotation_keeps_terms (db : Database) (labels : List RotationLabel) :
    Always step Narrowed (.start db) labels := by
  refine (always_of_step (fun _ _ _ => step_invariant) _ _ ⟨fun row hmem _ => ?_, by simp [start]⟩).mono fun _ h => h.narrowed
  simp [start, (db.tokens.get_eq_some_iff row.id row).mpr ⟨hmem, rfl⟩]

-- The update waits for the transaction that has read the row, and then finds the
-- token revoked.
example : (run step (.start sampleDatabase) [.read "t", .updateScope "t" "narrow" 1]).isNone ∧
    (run step (.start sampleDatabase) [.read "t", .rotate 0 "1" "h1" false 2, .updateScope "t" "narrow" 3]).any
      (fun s => (s.terms "t").1 = "\x7b\x7d") := by decide +kernel

end Rotating

end TunnelMesh.Authorization
