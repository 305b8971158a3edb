import TunnelMesh.Authorization.Stream
import TunnelMesh.Interleaving
import TunnelMesh.Separated

namespace TunnelMesh.Authorization.Cache

-- What the cache wraps: the key of a request, the verdict on it under some
-- facts at some time, with `none` for `nil`, and the revision of the facts.
structure Inner (ρ κ δ ε : Type) where
  key : ρ → κ
  authorize : δ → ℕ → ρ → Option ε
  revision : δ → ℕ

structure Config where
  enabled : Bool
  positiveTTL : ℕ
  negativeTTL : ℕ
  maxStaleOnPollError : ℕ
  maxEntries : ℕ

structure Evaluation (ρ δ ε : Type) where
  request : ρ
  facts : δ
  now : ℕ
  verdict : Option ε

structure Entry (ρ δ ε : Type) where
  basis : Evaluation ρ δ ε
  expiresAt : ℕ
  lastAccess : ℕ

structure Call (ρ δ ε : Type) where
  request : ρ
  outcome : Option (Evaluation ρ δ ε)
  closed : Bool

-- The maps are lists of pairs, in the order a `range` visits them. A poll that
-- has read the revision, or failed to, is still to take the lock. The facts
-- there have been and the revisions that polls have applied are recorded for
-- the proofs.
structure Store (ρ κ δ ε : Type) where
  facts : δ
  entries : List (κ × Entry ρ δ ε)
  inFlight : List (κ × ℕ)
  calls : List (Call ρ δ ε)
  generation : ℕ
  lastGood : Option ℕ
  healthy : Bool
  polled : Option (Option ℕ)
  history : List δ
  observed : List ℕ

-- The inner authorizer reads the database several times. `torn` is what an
-- evaluation has read if a change was committed between its reads.
structure Input (δ ε : Type) where
  now : ℕ
  cancelled : Bool
  failure : Option ε
  torn : Option δ

inductive Phase (ρ δ ε : Type) where
  | arrived
  | registered (call : ℕ)
  | evaluated (call : ℕ) (basis : Evaluation ρ δ ε)
  | stored (call : ℕ) (basis : Evaluation ρ δ ε)
  | removed (call : ℕ) (basis : Evaluation ρ δ ε)
  | waiting (call : ℕ)
  | returned (basis : Evaluation ρ δ ε)
  | cancelled

structure Authorize (ρ δ ε : Type) where
  request : ρ
  since : List ℕ
  phase : Phase ρ δ ε

section Steps

variable {ρ κ δ ε : Type} [DecidableEq κ] (inner : Inner ρ κ δ ε) (config : Config)

namespace Store

variable (store : Store ρ κ δ ε)

def put (key : κ) (entry : Entry ρ δ ε) : Store ρ κ δ ε :=
  { store with entries := (key, entry) :: store.entries.filter fun pair => pair.1 ≠ key }

def drop (key : κ) : Store ρ κ δ ε :=
  { store with entries := store.entries.filter fun pair => pair.1 ≠ key }

-- A positive entry is not used for longer than `MaxStaleOnPollError` after the
-- last poll that went well.
def tooStale (now : ℕ) : Bool :=
  !store.healthy && store.lastGood.all fun last => last + config.maxStaleOnPollError < now

def lookupLocked (key : κ) (now : ℕ) : Store ρ κ δ ε × Option (Entry ρ δ ε) :=
  match store.entries.lookup key with
  | none => (store, none)
  | some entry =>
    if entry.expiresAt < now then (store.drop key, none)
    else if entry.basis.verdict.isNone && store.tooStale config now then (store.drop key, none)
    else (store.put key { entry with lastAccess := now }, some { entry with lastAccess := now })

def oldest : List (κ × Entry ρ δ ε) → Option (κ × Entry ρ δ ε)
  | [] => none
  | pair :: rest =>
    match oldest rest with
    | none => some pair
    | some other => if other.2.lastAccess < pair.2.lastAccess then some other else some pair

def evictLocked : Store ρ κ δ ε := (oldest store.entries).elim store fun pair => store.drop pair.1

def insert (key : κ) (basis : Evaluation ρ δ ε) (now : ℕ) : Store ρ κ δ ε :=
  let ttl := if basis.verdict.isNone then config.positiveTTL else config.negativeTTL
  let room := if store.entries.length ≥ config.maxEntries then store.evictLocked else store
  room.put key ⟨basis, now + ttl, now⟩

def evaluate (request : ρ) (input : Input δ ε) : Evaluation ρ δ ε where
  request := request
  facts := input.torn.getD store.facts
  now := input.now
  verdict := input.failure.or (inner.authorize (input.torn.getD store.facts) input.now request)

def setOutcome (call : ℕ) (basis : Evaluation ρ δ ε) : Store ρ κ δ ε :=
  { store with calls := store.calls.modify call fun record => { record with outcome := some basis } }

def close (call : ℕ) : Store ρ κ δ ε :=
  { store with calls := store.calls.modify call fun record => { record with closed := true } }

end Store

variable (store : Store ρ κ δ ε)

def move (p : Authorize ρ δ ε) (input : Input δ ε) :
    Option (Store ρ κ δ ε × Authorize ρ δ ε) :=
  match p.phase with
  | .arrived =>
    if config.enabled = false then
      some (store, { p with phase := .returned (store.evaluate inner p.request input) })
    else
      let found := store.lookupLocked config (inner.key p.request) input.now
      match found.2 with
      | some entry => some (found.1, { p with phase := .returned entry.basis })
      | none =>
        match found.1.inFlight.lookup (inner.key p.request) with
        | some call => some (found.1, { p with phase := .waiting call })
        | none =>
          some ({ found.1 with
              calls := found.1.calls ++ [⟨p.request, none, false⟩]
              inFlight := (inner.key p.request, found.1.calls.length) :: found.1.inFlight },
            { p with phase := .registered found.1.calls.length })
  | .registered call =>
    let basis := store.evaluate inner p.request input
    some (store.setOutcome call basis, { p with phase := .evaluated call basis })
  | .evaluated call basis =>
    some (store.insert config (inner.key p.request) basis input.now, { p with phase := .stored call basis })
  | .stored call basis =>
    some ({ store with inFlight := store.inFlight.filter fun pair => pair.1 ≠ inner.key p.request },
      { p with phase := .removed call basis })
  | .removed call basis => some (store.close call, { p with phase := .returned basis })
  | .waiting call =>
    if input.cancelled then some (store, { p with phase := .cancelled })
    else do
      let record ← store.calls[call]?
      let basis ← record.outcome
      if record.closed then some (store, { p with phase := .returned basis }) else none
  | .returned _ | .cancelled => none

-- A commit of other facts with a higher revision, and the two halves of a poll:
-- the read of the revision and the part under the lock. Polls do not overlap.
inductive Event (δ : Type) where
  | commit (facts : δ)
  | pollRead (fails : Bool)
  | pollApply (now : ℕ)

def apply (revision now : ℕ) : Store ρ κ δ ε :=
  let polled := { store with healthy := true, lastGood := some now, observed := revision :: store.observed }
  if revision = store.generation then polled
  else { polled with generation := revision, entries := [] }

def event : Event δ → Option (Store ρ κ δ ε)
  | .commit facts =>
    if inner.revision store.facts < inner.revision facts then
      some { store with facts, history := facts :: store.history }
    else none
  | .pollRead fails =>
    if store.polled.isSome then none
    else some { store with polled := some (if fails then none else some (inner.revision store.facts)) }
  | .pollApply now =>
    store.polled.map fun polled =>
      polled.elim { store with healthy := false, polled := none } fun revision =>
        { apply store revision now with polled := none }

abbrev State (ρ κ δ ε : Type) := Interleaving.State (Store ρ κ δ ε) (Authorize ρ δ ε)

abbrev Label (ρ δ ε : Type) := Interleaving.Label ρ (Input δ ε) (Event δ)

def step (s : State ρ κ δ ε) (label : Label ρ δ ε) : Option (State ρ κ δ ε) :=
  Interleaving.System.step
    { start := fun request => ⟨request, s.store.observed, .arrived⟩
      move := move inner config
      event := event inner } s label

def init (facts : δ) : State ρ κ δ ε := ⟨⟨facts, [], [], [], 0, none, false, none, [facts], []⟩, []⟩

end Steps

end TunnelMesh.Authorization.Cache
