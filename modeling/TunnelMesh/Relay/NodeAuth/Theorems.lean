import TunnelMesh.Fallible
import TunnelMesh.Relay.NodeAuth

namespace TunnelMesh.Relay

open TunnelMesh.Authorization TunnelMesh.Storage Decimal Text Metadata List String Nat

section Epoch

theorem digit_value (hd : d < 10) : (digit d).isDigit ∧ (digit d).toNat - '0'.toNat = d := by
  have h : ∀ i : Fin 10, (digitChar i.1).isDigit ∧ (digitChar i.1).toNat - '0'.toNat = i.1 := by
    decide
  have hmod : d % 10 = d := mod_eq_of_lt hd
  unfold digit
  rw [hmod]
  exact h ⟨d, hd⟩

theorem foldl_digits (digits : List ℕ) (hdigits : ∀ d ∈ digits, d < 10) :
    (digits.map digit).reverse.foldl (fun n c => 10 * n + (c.toNat - '0'.toNat)) 0 = ofDigits 10 digits := by
  induction digits with
  | nil => rfl
  | cons d rest ih =>
    have hd := (digit_value (hdigits d mem_cons_self)).2
    have hr := ih fun e he => hdigits e (mem_cons_of_mem d he)
    rw [map_cons, reverse_cons, foldl_append, hr, ofDigits_cons]
    simp only [foldl_cons, foldl_nil, hd]
    omega

theorem natural_atoi (hn : 0 < n) : atoi.natural (natural n) = some n := by
  have hdigits : ∀ d ∈ digits 10 n, d < 10 := fun d hd => digits_lt_base (by omega) hd
  have hne : n ≠ 0 := by omega
  have hv : ¬ ((natural n).isEmpty ∨ (natural n).any fun c => !c.isDigit) := by
    simp only [natural, hne, if_false, not_or]
    refine ⟨?_, ?_⟩
    · simpa using digits_ne_nil_iff_ne_zero.mpr hne
    · simp only [any_reverse, any_map, any_eq_true, Function.comp, not_exists, not_and]
      intro d hd
      simp [(digit_value (hdigits d hd)).1]
  rw [atoi.natural, if_neg hv]
  simp only [natural, hne, if_false]
  rw [foldl_digits _ hdigits, ofDigits_digits]

theorem atoi_signed (hepoch : 0 < epoch) : atoi (ofList (signed epoch)) = some epoch := by
  have hpos : 0 < epoch.natAbs := by omega
  have hv : (epoch.natAbs : ℤ) = epoch := by omega
  have hsigned : signed epoch = natural epoch.natAbs := by rw [signed, if_neg (by omega)]
  have hn := natural_atoi hpos
  have hd := natural_bounds epoch.natAbs
  rw [atoi, toList_ofList, hsigned]
  split
  · rename_i digits ht
    have hs : '0' ≤ '-' := hd '-' (by rw [ht]; exact mem_cons_self)
    exact absurd hs (by decide)
  · rename_i digits ht
    have hs : '0' ≤ '+' := hd '+' (by rw [ht]; exact mem_cons_self)
    exact absurd hs (by decide)
  · rw [hn, Option.map_some]; exact congrArg some hv

end Epoch

section Metadata

variable {md : Metadata}

theorem callerMetadata_ok (h : callerMetadata nodeID epoch raw = .ok md) :
    trimSpace nodeID ≠ "" ∧ 0 < epoch ∧ trimSpace raw ≠ "" ∧ hasBlank raw = false ∧
      md = [(serverNodeAuthorizationMetadata, bearer ++ raw), (serverNodeIDMetadata, nodeID),
        (serverNodeEpochMetadata, ofList (signed epoch))] := by
  unfold callerMetadata at h
  split_ifs at h with hv
  simp only [not_or, Bool.not_eq_true, not_le] at hv
  obtain ⟨hn, he, hraw, hb⟩ := hv
  exact ⟨hn, he, hraw, hb, (Except.ok.inj h).symm⟩

theorem Metadata.one_of_get (hget : md.get key = [value]) (hv : trimSpace value ≠ "") : md.one key = .ok value := by
  rw [one, hget]
  exact if_neg hv

theorem rawToken_bearer (hraw : trimSpace raw ≠ "") (hb : hasBlank raw = false) :
    rawToken (bearer ++ raw) = .ok raw := by
  have ht : (bearer ++ raw).toList = bearer.toList ++ raw.toList := toList_append
  have hd : ofList ((bearer ++ raw).toList.drop bearer.length) = raw := by
    rw [ht, ← length_toList, drop_left, ofList_toList]
  have hs : bearer.toList.isPrefixOf (bearer ++ raw).toList := by
    rw [ht, isPrefixOf_iff_prefix]
    exact prefix_append _ _
  simp only [rawToken, hd, hs, hraw, hb]
  simp

theorem trimSpace_ne_empty {s : String} (hc : c ∈ s.toList) (hs : isSpace c = false) : trimSpace s ≠ "" := by
  intro he
  have hnil : (s.toList.dropWhile isSpace).rdropWhile isSpace = [] := by
    simpa [trimSpace] using congrArg toList he
  rw [rdropWhile_eq_nil_iff] at hnil
  have hall : s.toList.dropWhile isSpace = [] := by
    by_contra hne
    have hh := head_dropWhile_not isSpace hne
    rw [hnil _ (head_mem hne)] at hh
    cases hh
  rw [dropWhile_eq_nil_iff] at hall
  rw [hall c hc] at hs
  cases hs

theorem epochText_ne_blank (hepoch : 0 < epoch) : trimSpace (ofList (signed epoch)) ≠ "" := by
  have hs : signed epoch = natural epoch.natAbs := by rw [signed, if_neg (by omega)]
  have hne : epoch.natAbs ≠ 0 := by omega
  obtain ⟨d, hd⟩ := exists_mem_of_ne_nil _ (digits_ne_nil_iff_ne_zero.mpr hne)
  have hspace : ∀ i : Fin 10, isSpace (digitChar i.1) = false := by decide
  refine trimSpace_ne_empty (c := digit d) ?_ (hspace ⟨d % 10, mod_lt d (by omega)⟩)
  rw [toList_ofList, hs, natural, if_neg hne]
  exact mem_reverse.mpr (mem_map_of_mem hd)

-- The caller's metadata arrives as it was sent, unless the node's id has white
-- space around it.
theorem parseServerNodeMetadata_caller (h : callerMetadata nodeID epoch raw = .ok md) :
    parseServerNodeMetadata (some md) =
      if trimSpace nodeID = nodeID then .ok ⟨nodeID, epoch, raw⟩ else .error metadataInvalid := by
  obtain ⟨hn, he, hraw, hblank, hmd⟩ := callerMetadata_ok h
  have hb : trimSpace (bearer ++ raw) ≠ "" := by
    refine trimSpace_ne_empty (c := 'B') ?_ (by decide)
    rw [toList_append]
    exact mem_append_left _ (by decide)
  have ha : md.one serverNodeAuthorizationMetadata = .ok (bearer ++ raw) :=
    one_of_get (by rw [hmd]; rfl) hb
  have hid : md.one serverNodeIDMetadata = .ok nodeID := one_of_get (by rw [hmd]; rfl) hn
  have hepochText : md.one serverNodeEpochMetadata = .ok (ofList (signed epoch)) :=
    one_of_get (by rw [hmd]; rfl) (epochText_ne_blank he)
  simp only [parseServerNodeMetadata, ha, hid, hepochText, rawToken_bearer hraw hblank,
    atoi_signed he, bind, Except.bind]
  by_cases ht : trimSpace nodeID = nodeID
  · simp [ht, not_le.mpr he, pure, Except.pure]
  · simp [ht, throw, throwThe, MonadExceptOf.throw]

end Metadata

section Authenticate

theorem authenticatePeer_ok_iff : authenticatePeer platform peer nodeID = .ok () ↔
      ∃ cert, peer = .verified cert ∧ certificateHasExactSAN cert nodeID := by
  cases peer with
  | missing | unverified => simp [authenticatePeer, verifiedPeerCertificate, bind, Except.bind]
  | verified cert =>
    cases hsan : certificateHasExactSAN cert nodeID <;>
      simp [authenticatePeer, verifiedPeerCertificate, bind, Except.bind, hsan, throw, throwThe,
        MonadExceptOf.throw, pure, Except.pure]

theorem admitNode_ok_iff : admitNode interceptor now nodeID epoch = .ok () ↔
      ∃ node, interceptor.nodes.get nodeID = some node ∧ node.live now ∧ node.epoch = epoch := by
  cases hget : interceptor.nodes.get nodeID with
  | none => simp [admitNode, hget]
  | some node =>
    simp only [admitNode, hget, Option.some.injEq, exists_eq_left', ServerNode.live]
    cases henabled : node.enabled <;> cases hexpired : node.expired now <;>
      by_cases hd : node.deletedAt = none <;> by_cases he : node.epoch = epoch <;>
      simp [hd, he]

theorem authorizeCaller_ok_iff : authorizeCaller platform interceptor now caller = .ok p ↔ ∃ serverNodeIDs,
        validateServerNode platform interceptor now caller.rawToken = some (p.tokenID, serverNodeIDs) ∧
        (serverNodeIDs = [] ∨ caller.nodeID ∈ serverNodeIDs) ∧
        admitNode interceptor now caller.nodeID caller.epoch = .ok () ∧
        p.nodeID = caller.nodeID ∧ p.epoch = caller.epoch := by
  obtain ⟨nodeID, epoch, tokenID⟩ := p
  unfold authorizeCaller
  cases validateServerNode platform interceptor now caller.rawToken with
  | none => simp
  | some pair =>
    obtain ⟨id, ids⟩ := pair
    by_cases hs : ids ≠ [] ∧ caller.nodeID ∉ ids
    · simp [hs]
    have ha : ids = [] ∨ caller.nodeID ∈ ids := by tauto
    simp only [hs, if_false, Option.some.injEq, Prod.mk.injEq]
    cases admitNode interceptor now caller.nodeID caller.epoch with
    | error e => simp [Except.map]
    | ok u =>
      simp only [Except.map, Except.ok.injEq, ServerNodePrincipal.mk.injEq]
      constructor
      · rintro ⟨rfl, rfl, rfl⟩; exact ⟨ids, ⟨rfl, rfl⟩, ha, trivial, rfl, rfl⟩
      · rintro ⟨other, ⟨rfl, rfl⟩, -, -, rfl, rfl⟩; exact ⟨rfl, rfl, rfl⟩

theorem authenticateServerNode_ok_iff : authenticateServerNode platform interceptor now incoming = .ok p ↔
      ∃ caller, parseServerNodeMetadata incoming.metadata = .ok caller ∧
        (interceptor.requireMTLS → authenticatePeer platform incoming.peer caller.nodeID = .ok ()) ∧
        authorizeCaller platform interceptor now caller = .ok p := by
  cases hp : parseServerNodeMetadata incoming.metadata with
  | error e => simp [authenticateServerNode, hp, bind, Except.bind]
  | ok caller =>
    simp only [authenticateServerNode, hp, bind, Except.bind, Except.ok.injEq, exists_eq_left']
    cases interceptor.requireMTLS with
    | false => simp
    | true =>
      cases authenticatePeer platform incoming.peer caller.nodeID with
      | error | ok => simp

theorem node_of_authenticated (h : authenticateServerNode platform interceptor now incoming = .ok p) :
    ∃ node, interceptor.nodes.get p.nodeID = some node ∧ node.live now ∧ node.epoch = p.epoch := by
  obtain ⟨caller, -, -, hc⟩ := authenticateServerNode_ok_iff.mp h
  obtain ⟨ids, -, -, ha, hn, he⟩ := authorizeCaller_ok_iff.mp hc
  rw [hn, he]
  exact admitNode_ok_iff.mp ha

end Authenticate

end TunnelMesh.Relay
