import TunnelMesh.Authorization.Cache.Coherence
import TunnelMesh.Authorization.Revision
import TunnelMesh.Decimal

namespace TunnelMesh.Authorization

open String

def TokenType.text : TokenType → String
  | .agent => "agent"
  | .client => "client"
  | .serverNode => "server_node"

structure ClientSessionPrincipal where
  connectionID : String
  identity : TokenIdentity
  deriving DecidableEq

namespace Cache

open Separated Transition

-- What one `Authorize` call is given: of the stream's payload, the fields that
-- the key and the inner authorizer read.
structure Request where
  principal : ClientSessionPrincipal
  stream : StreamAuthorizationRequest
  deriving DecidableEq

inductive Refusal where
  | forbidden
  deriving DecidableEq

def separator : Char := '\x00'

variable (request : Request)

def authorizationCacheKey : List Char :=
  request.principal.identity.tokenID.toList ++ separator ::
    (request.principal.identity.ownerUserID.toList ++ separator ::
      (request.principal.identity.type.text.toList ++ separator ::
        (request.stream.agentID.toList ++ separator ::
          (request.stream.protocol.toList ++ separator ::
            (request.stream.targetHost.toList ++ separator :: Decimal.signed request.stream.targetPort)))))

def authorizeCredential (lib : Library) (db : Database) (now : ℕ) (request : Request) : Option Refusal :=
  if request.principal.connectionID = "" then some .forbidden
  else if authorizeStream lib db now request.principal.identity request.stream then none
  else some .forbidden

def credentials (lib : Library) : Inner Request (List Char) Database Refusal where
  key := authorizationCacheKey
  authorize := authorizeCredential lib
  revision := Database.revision

-- The key separates the requests of open connections whose texts do not contain
-- the separator.
@[mk_iff] structure Separable : Prop where
  connectionID : request.principal.connectionID ≠ ""
  tokenID : separator ∉ request.principal.identity.tokenID.toList
  ownerUserID : separator ∉ request.principal.identity.ownerUserID.toList
  agentID : separator ∉ request.stream.agentID.toList
  protocol : separator ∉ request.stream.protocol.toList
  targetHost : separator ∉ request.stream.targetHost.toList

instance Separable.decidable : Decidable (Separable request) := decidable_of_iff _ (separable_iff request).symm

theorem TokenType.separator_not_mem (type : TokenType) : separator ∉ type.text.toList := by
  cases type <;> decide

theorem TokenType.text_injective {a b : TokenType} (h : a.text.toList = b.text.toList) : a = b := by
  revert h
  cases a <;> cases b <;> decide

theorem authorizationCacheKey_inj (ha : Separable a) (hb : Separable b)
    (h : authorizationCacheKey a = authorizationCacheKey b) :
    a.principal.identity = b.principal.identity ∧ a.stream = b.stream := by
  obtain ⟨ht, h⟩ := (append_cons_inj ha.tokenID hb.tokenID).mp h
  obtain ⟨ho, h⟩ := (append_cons_inj ha.ownerUserID hb.ownerUserID).mp h
  obtain ⟨htype, h⟩ := (append_cons_inj (TokenType.separator_not_mem _) (TokenType.separator_not_mem _)).mp h
  obtain ⟨hagent, h⟩ := (append_cons_inj ha.agentID hb.agentID).mp h
  obtain ⟨hp, h⟩ := (append_cons_inj ha.protocol hb.protocol).mp h
  obtain ⟨hh, h⟩ := (append_cons_inj ha.targetHost hb.targetHost).mp h
  have hport := Decimal.signed_injective h
  refine ⟨?_, ?_⟩
  · rw [TokenIdentity.mk.injEq]
    exact ⟨toList_inj.mp ht, toList_inj.mp ho, TokenType.text_injective htype⟩
  · rw [StreamAuthorizationRequest.mk.injEq]
    exact ⟨toList_inj.mp hagent, toList_inj.mp hp, toList_inj.mp hh, hport⟩

theorem authorizeCredential_congr (ha : Separable a) (hb : Separable b)
    (h : authorizationCacheKey a = authorizationCacheKey b) (db : Database) (now : ℕ) :
    authorizeCredential lib db now a = authorizeCredential lib db now b := by
  obtain ⟨hi, hs⟩ := authorizationCacheKey_inj ha hb h
  simp only [authorizeCredential, ha.connectionID, hb.connectionID, hi, hs]

theorem cached_verdict_within_revision (lib : Library) (config : Config) (db : Database)
    (labels : List (Label Request Database Refusal))
    (halong : Along (step (credentials lib) config) (Guard (credentials lib) Separable) (init db) labels) :
    Always (step (credentials lib) config) (Honest (credentials lib)) (init db) labels :=
  honest_along (fun _ _ ha hb hkey => authorizeCredential_congr ha hb hkey) db labels halong

def Phase.allowed {ρ δ ε : Type} : Phase ρ δ ε → Bool
  | .returned basis => basis.verdict.isNone
  | _ => false

def sampleConfig : Config := ⟨true, 10, 10, 10, 100⟩

def sampleRequest : Request := ⟨⟨"c", ⟨"t", "u", .client⟩⟩, ⟨"a", "tcp", "host", 80⟩⟩

def revokedDatabase : Database :=
  { sampleDatabase with
    tokens := ⟨[⟨"t", .client, "u", "", "", "hash", "\x7b\x7d", none, some 0, none, none⟩], List.nodup_singleton _⟩
    revision := 2 }

def moves (i n : ℕ) : List (Label Request Database Refusal) := List.replicate n (.move i ⟨0, false, none, none⟩)

def poll : List (Label Request Database Refusal) := [.event (.pollRead false), .event (.pollApply 0)]

def sharedRun : List (Label Request Database Refusal) :=
  poll ++ .start sampleRequest :: moves 0 5 ++ .start sampleRequest :: moves 1 1

theorem polled_calls_share_verdict : ∃ final, run (step (credentials sampleLibrary) sampleConfig) (init sampleDatabase)
        sharedRun = some final ∧
      (∀ p ∈ final.procs, p.since = [1] ∧ p.phase.allowed) ∧ Honest (credentials sampleLibrary) final :=
  (cached_verdict_within_revision sampleLibrary sampleConfig sampleDatabase sharedRun (by decide +kernel)).exists_run
    (by decide +kernel)

-- The first call evaluates before the token is revoked and stores its verdict
-- after the poll that has seen it; the second one starts then and finds it.
theorem stored_verdict_outlives_revision :
    sampleDatabase.commit sampleLibrary (.revokeToken "t" 0) = .ok revokedDatabase ∧
    ∃ final, run (step (credentials sampleLibrary) sampleConfig) (init sampleDatabase)
        (.start sampleRequest :: moves 0 2 ++ .event (.commit revokedDatabase) :: poll ++ moves 0 1 ++
          .start sampleRequest :: moves 1 1) = some final ∧
      (∃ p ∈ final.procs, p.request = sampleRequest ∧ 2 ∈ p.since ∧ p.phase.allowed) ∧
      ∀ facts ∈ final.store.history, 2 ≤ facts.revision →
        authorizeCredential sampleLibrary facts 0 sampleRequest = some .forbidden :=
  ⟨rfl, exists_run_of_any (by decide +kernel)⟩

end Cache

end TunnelMesh.Authorization
