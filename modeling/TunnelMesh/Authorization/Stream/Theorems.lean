import TunnelMesh.Authorization.Stream

namespace TunnelMesh.Authorization

open Paging

section Policies

theorem pageAllows_append (first second : List AgentPolicy) : pageAllows lib (first ++ second) req targetIP =
      (pageAllows lib first req targetIP).bind fun allowed =>
        (pageAllows lib second req targetIP).map fun more => allowed || more := by
  simp only [pageAllows, List.mapM_append]
  cases first.mapM fun policy => policyAllows lib policy req targetIP with
  | none => rfl
  | some verdicts =>
    cases second.mapM fun policy => policyAllows lib policy req targetIP with
    | none => rfl
    | some more => simp

def remaining (db : Database) (agentID cursor : String) : List AgentPolicy :=
  if cursor = "" then ordered AgentPolicy.id (activePolicies db agentID)
  else after AgentPolicy.id (activePolicies db agentID) cursor

theorem nodup_activePolicies (db : Database) (agentID : String) :
    ((activePolicies db agentID).map AgentPolicy.id).Nodup :=
  db.policies.nodup.sublist (List.filter_sublist.map AgentPolicy.id)

theorem lt_of_mem_remaining (hc : cursor ≠ "") (h : policy ∈ remaining db agentID cursor) : cursor < policy.id := by
  rw [remaining, if_neg hc, after, mem_ordered, List.mem_filter] at h
  simpa using h.2

-- A page that is not the last one ends with a policy whose identifier is a new
-- cursor, and the policies left after it are those that the page left out.
theorem listByAgent_more (hlimit : 2 ≤ limit)
    (hsuffix : remaining db agentID cursor <:+ ordered AgentPolicy.id (activePolicies db agentID))
    (hm : limit < (remaining db agentID cursor).length) :
    ∃ next, listByAgent db agentID cursor limit = ⟨(remaining db agentID cursor).take limit, true, next⟩ ∧
      next ≠ "" ∧ next ≠ cursor ∧ remaining db agentID next = (remaining db agentID cursor).drop limit := by
  obtain ⟨first, hall⟩ := hsuffix
  generalize hr : remaining db agentID cursor = rows at *
  have hl : limit - 1 < rows.length := by omega
  let last := rows[limit - 1]
  have ht : rows.take limit = rows.take (limit - 1) ++ [last] := by
    have hsucc : limit - 1 + 1 = limit := by omega
    rw [← hsucc, List.take_succ_eq_append_getElem hl]
    simp [last]
  have hs : ordered AgentPolicy.id (activePolicies db agentID) =
      (first ++ rows.take (limit - 1)) ++ last :: rows.drop limit := by
    have hrejoin : rows.take (limit - 1) ++ last :: rows.drop limit = rows := by
      rw [← List.singleton_append, ← List.append_assoc, ← ht, List.take_append_drop]
    rw [List.append_assoc, hrejoin, hall]
  have ho := pairwise_ordered (nodup_activePolicies db agentID)
  rw [hs, List.pairwise_append] at ho
  have hn : last.id ≠ "" := by
    intro he
    have hf : rows[0] ∈ first ++ rows.take (limit - 1) := by
      refine List.mem_append_right first ?_
      exact List.mem_take_iff_getElem.mpr ⟨0, by omega, rfl⟩
    have hlt := ho.2.2 _ hf last List.mem_cons_self
    rw [he, String.lt_iff_toList_lt] at hlt
    exact absurd hlt (List.not_lt_nil _)
  refine ⟨last.id, ?_, hn, ?_, ?_⟩
  · have hp : listByAgent db agentID cursor limit =
        if limit < (remaining db agentID cursor).length then
          ⟨(remaining db agentID cursor).take limit, true,
            (((remaining db agentID cursor).take limit).getLast?.map AgentPolicy.id).getD ""⟩
        else ⟨remaining db agentID cursor, false, ""⟩ := rfl
    rw [hp, hr, if_pos hm, ht, List.getLast?_append]
    rfl
  · rintro rfl
    have hmem : last ∈ remaining db agentID last.id := by rw [hr]; exact List.getElem_mem hl
    exact absurd (lt_of_mem_remaining hn hmem) (lt_irrefl _)
  · rw [remaining, if_neg hn]; exact after_eq (nodup_activePolicies db agentID) hs

theorem agentPolicyLoop_eq (hs : remaining db req.agentID cursor <:+
      ordered AgentPolicy.id (activePolicies db req.agentID))
    (hfuel : (remaining db req.agentID cursor).length < fuel) :
    agentPolicyLoop lib db req targetIP fuel cursor matched =
      (pageAllows lib (remaining db req.agentID cursor) req targetIP).map fun allowed =>
        matched || allowed := by
  induction fuel generalizing cursor matched with
  | zero => omega
  | succ fuel ih =>
    by_cases hm : policyPageSize < (remaining db req.agentID cursor).length
    · obtain ⟨next, hp, hn, hnew, hr⟩ := listByAgent_more (by decide) hs hm
      have hshorter : (remaining db req.agentID next).length < fuel := by
        rw [hr, List.length_drop]
        have : 0 < policyPageSize := by decide
        omega
      have hsuffix' : remaining db req.agentID next <:+ ordered AgentPolicy.id (activePolicies db req.agentID) := by
        rw [hr]
        exact (List.drop_suffix _ _).trans hs
      rw [← List.take_append_drop policyPageSize (remaining db req.agentID cursor), pageAllows_append, ← hr]
      unfold agentPolicyLoop
      simp only [hp, hn, hnew, or_self, if_false, Bool.true_eq_false]
      cases hallowed : pageAllows lib ((remaining db req.agentID cursor).take policyPageSize) req targetIP with
      | none => rfl
      | some allowed =>
        simp only [Option.bind_eq_bind, Option.bind_some, ih hsuffix' hshorter]
        cases pageAllows lib (remaining db req.agentID next) req targetIP with
        | none => rfl
        | some more => simp [Bool.or_assoc]
    · have hp : listByAgent db req.agentID cursor policyPageSize =
          ⟨remaining db req.agentID cursor, false, ""⟩ := if_neg hm
      unfold agentPolicyLoop
      simp only [hp, if_true]
      cases pageAllows lib (remaining db req.agentID cursor) req targetIP with
      | none | some => rfl

theorem agentPolicyAllows_eq : agentPolicyAllows lib db req targetIP =
      pageAllows lib (ordered AgentPolicy.id (activePolicies db req.agentID)) req targetIP := by
  have hf : (remaining db req.agentID "").length < db.policies.rows.length + 1 := by
    rw [remaining, if_pos rfl, length_ordered]
    exact Nat.lt_succ_of_le (List.length_filter_le _ _)
  have hl : agentPolicyLoop lib db req targetIP (db.policies.rows.length + 1) "" false =
      (pageAllows lib (remaining db req.agentID "") req targetIP).map fun allowed => false || allowed :=
    agentPolicyLoop_eq (List.suffix_refl _) hf
  rw [agentPolicyAllows, hl]
  simp [remaining]

end Policies

section Owner

variable {db : Database}

def activeAccount (id : String) : Account := ⟨id, "", "user", "", false, none, .local, false⟩

def withOwner (db : Database) (id : String) : Database :=
  { db with accounts := ⟨[activeAccount id], List.nodup_singleton _⟩ }

def permitted (lib : Library) (db : Database) (now : ℕ) (id : TokenIdentity)
    (req : StreamAuthorizationRequest) : Bool :=
  authorizeStream lib (withOwner db id.ownerUserID) now id req

theorem ownerActive_withOwner (db : Database) (id : String) : ownerActive (withOwner db id) id := by
  simp [ownerActive, withOwner, Table.get, activeAccount]

theorem agentPolicyAllows_congr (h : db'.policies = db.policies)
    (req : StreamAuthorizationRequest) (targetIP : Option lib.Address) :
    agentPolicyAllows lib db' req targetIP = agentPolicyAllows lib db req targetIP := by
  rw [agentPolicyAllows_eq, agentPolicyAllows_eq, activePolicies, activePolicies, h]

theorem clientScope_eq (now : ℕ) (record : ServiceToken) : clientScopeFromRecord lib db now record =
      if ownerActive db record.ownerUserID then clientScopeFromRecord lib (withOwner db record.ownerUserID) now record
      else none := by
  unfold clientScopeFromRecord
  rw [ownerActive_withOwner]
  cases ownerActive db record.ownerUserID with
  | true | false => simp

theorem authorizeStream_eq (now : ℕ) (id : TokenIdentity) (req : StreamAuthorizationRequest) :
    authorizeStream lib db now id req = (ownerActive db id.ownerUserID && permitted lib db now id req) := by
  unfold permitted authorizeStream
  by_cases hid : id.tokenID = "" ∨ id.type ≠ .client
  · simp only [if_pos hid, Bool.and_false]
  have ht : (withOwner db id.ownerUserID).tokens = db.tokens := rfl
  have ha : (withOwner db id.ownerUserID).agents = db.agents := rfl
  have hp : (withOwner db id.ownerUserID).policies = db.policies := rfl
  simp only [if_neg hid, ht, ha, agentPolicyAllows_congr hp]
  cases hrecord : db.tokens.get id.tokenID with
  | none => simp only [Bool.and_false]
  | some record =>
    by_cases ho : record.type ≠ .client ∨ record.ownerUserID ≠ id.ownerUserID
    · simp only [if_pos ho, Bool.and_false]
    have howner : record.ownerUserID = id.ownerUserID := by by_contra hne; exact ho (.inr hne)
    simp only [if_neg ho]
    rw [clientScope_eq, howner]
    cases ownerActive db id.ownerUserID with
    | true => rw [if_pos rfl, Bool.true_and]
    | false => rfl

end Owner

def PoliciesGrant (lib : Library) (db : Database) (req : StreamAuthorizationRequest) : Prop :=
  let verdict := fun policy => policyAllows lib policy req (lib.parseIP req.targetHost)
  (∀ policy ∈ activePolicies db req.agentID, verdict policy ≠ none) ∧
    ∃ policy ∈ activePolicies db req.agentID, verdict policy = some true

theorem agentPolicyAllows_iff :
    (agentPolicyAllows lib db req (lib.parseIP req.targetHost)).getD false ↔ PoliciesGrant lib db req := by
  have hrows (rows : List AgentPolicy) (ip : Option lib.Address) : pageAllows lib rows req ip =
      if ∀ policy ∈ rows, policyAllows lib policy req ip ≠ none then
        some (rows.any fun policy => policyAllows lib policy req ip = some true)
      else none := by
    induction rows with
    | nil => rfl
    | cons policy rest ih =>
      rw [← List.singleton_append, pageAllows_append, ih]
      cases hp : policyAllows lib policy req ip with
      | none => simp [pageAllows, hp]
      | some allowed => split_ifs <;> simp_all [pageAllows]
  rw [agentPolicyAllows_eq, hrows, PoliciesGrant]
  split_ifs <;> simp_all [mem_ordered]

-- Neither the pages of the policies nor the order of their rows shows.
theorem stream_granted_iff (lib : Library) (db : Database) (now : ℕ) (id : TokenIdentity)
    (req : StreamAuthorizationRequest) :
    authorizeStream lib db now id req ↔ id.tokenID ≠ "" ∧ id.type = .client ∧ ∃ record scope normal agent,
      db.tokens.get id.tokenID = some record ∧ record.type = .client ∧ record.ownerUserID = id.ownerUserID ∧
      clientScopeFromRecord lib db now record = some scope ∧ normalizeRequest lib req = some normal ∧
      db.agents.get normal.agentID = some agent ∧ agent.enabled ∧ agent.ownerUserID = id.ownerUserID ∧
      scopeAllows scope normal (lib.parseIP normal.targetHost) ∧ PoliciesGrant lib db normal := by
  simp only [← agentPolicyAllows_iff]
  unfold authorizeStream
  -- One goal for each refusal, and one for the policies.
  repeat' split
  all_goals grind

end TunnelMesh.Authorization
