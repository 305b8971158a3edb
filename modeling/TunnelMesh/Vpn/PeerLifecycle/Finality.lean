import TunnelMesh.Vpn.PeerLifecycle

namespace TunnelMesh.Vpn.PeerLifecycle

open Interleaving Call Store Option List

variable (store : Store)

-- Once a revocation returned success the peer is revoked, and a key that a
-- successful rotation retired is not the stored one.
def Store.Final : Prop :=
  (store.revoked → store.peer.status = .revoked) ∧ ∀ key ∈ store.retired, store.peer.publicKey ≠ key
  deriving Decidable

def Call.writing (c : Call) : Option (VPNPeer × Option ℕ) :=
  match c.phase with
  | .write _ loaded drawn => some (loaded, drawn)
  | _ => none

def Input.effective : Input → Bool
  | .run _ | .lost _ => true
  | .conflict | .fail => false

-- An `UPDATE` of all columns finds a peer that is not revoked, and one that
-- rotates no key finds the key its call loaded.
def Unraced (c : Call) (input : Input) : Prop :=
  input.effective → ∀ pending ∈ c.writing, store.peer.status ≠ .revoked ∧
      (pending.2 = none → pending.1.publicKey = store.peer.publicKey)
  deriving Decidable

inductive Effect (keys : KeySource) (store : Store) (c : Call) (input : Input) :
    Store → Call → Prop where
  | ends (result : Except PeerError Unit) : Effect keys store c input store (c.return result)
  | confirms (hrevoked : c.phase = .load ∧ store.peer.status = .revoked ∨ c.phase = .reread) :
      Effect keys store c input { store with revoked := true } (c.return (.ok ()))
  | prepares (row : VPNPeer) (hload : c.phase = .load) (hkey : row.publicKey = store.peer.publicKey) :
      Effect keys store c input store { c with phase := .write row store.peer none }
  | draws (row : VPNPeer) (hload : c.phase = .load) (hkey : row.publicKey = keys.publicKey store.drawn) :
      Effect keys store c input { store with drawn := store.drawn + 1 }
        { c with phase := .write row store.peer (some store.drawn) }
  | asks (hload : c.phase = .load) : Effect keys store c input store { c with phase := .setStatus }
  | finds (hstatus : c.phase = .setStatus) (hrevoked : store.peer.status = .revoked) :
      Effect keys store c input store { c with phase := .reread }
  | writes (row loaded : VPNPeer) (drawn : Option ℕ) (hphase : c.phase = .write row loaded drawn)
      (heffective : input.effective) (result : Except PeerError Unit) :
      Effect keys store c input (store.write row drawn) (c.return result)
  | retires (row loaded : VPNPeer) (drawn : Option ℕ) (hphase : c.phase = .write row loaded drawn)
      (heffective : input.effective) :
      Effect keys store c input ((store.write row drawn).retire store.peer.publicKey loaded drawn)
        (c.return (.ok ()))
  | revokes (now : ℕ) (hstatus : c.phase = .setStatus) (returned : Bool)
      (result : Except PeerError Unit) :
      Effect keys store c input { store.setRevoked now with revoked := store.revoked || returned }
        (c.return result)

theorem publicKey_updated {actor : Principal} {stored row : VPNPeer}
    (h : updated config actor patch around stored = .ok row) : row.publicKey = stored.publicKey := by
  unfold updated at h
  simp only [bind, Except.bind, pure, Except.pure] at h
  repeat' split at h
  all_goals first
    | cases h; done
    | (cases h; rfl)

theorem begin_phase (config : Config) (v : Request) :
    (begin config v).phase = .load ∨ ∃ result, (begin config v).phase = .returned result := by
  unfold begin
  cases v.operation with
  | rotate =>
    split_ifs
    · exact Or.inr ⟨_, rfl⟩
    · exact Or.inr ⟨_, rfl⟩
    · exact Or.inl rfl
  | update patch | revoke =>
    simp only
    split_ifs
    · exact Or.inr ⟨_, rfl⟩
    · exact Or.inl rfl

section Moves

variable {keys : KeySource} {store next : Store}

theorem load_effect (around : Surroundings) (hl : c.phase = .load)
    (h : store.load config keys c around = (next, moved)) : Effect keys store c input next moved := by
  unfold load at h
  cases ho : c.operation with
  | update patch =>
    simp only [ho] at h
    split_ifs at h
    · cases h; exact .ends _
    · split at h <;> cases h
      · exact .ends _
      · next row hrow => exact ho ▸ .prepares row hl (publicKey_updated hrow)
  | rotate =>
    simp only [ho] at h
    split_ifs at h <;> cases h
    · exact .ends _
    · exact .ends _
    · exact .ends _
    · exact ho ▸ .draws _ hl rfl
  | revoke =>
    simp only [ho] at h
    split_ifs at h with hhidden hr <;> cases h
    · exact .ends _
    · exact .confirms (Or.inl ⟨hl, hr⟩)
    · exact ho ▸ .asks hl

theorem run_effect (around : Surroundings) (he : input.effective)
    (h : store.run config keys c around = some (next, moved)) : Effect keys store c input next moved := by
  unfold run at h
  cases hp : c.phase with
  | load => simp only [hp, some.injEq] at h; exact load_effect around hp h
  | write row loaded drawn =>
    simp only [hp] at h
    split at h <;> cases h
    · exact .ends _
    · exact .retires row loaded drawn hp he
  | setStatus =>
    simp only [hp] at h
    split_ifs at h with hr <;> cases h
    · exact .finds hp hr
    · have heffect : Effect keys store c input _ _ := .revokes around.now hp true (.ok ())
      rwa [Bool.or_true] at heffect
  | reread =>
    simp only [hp, some.injEq] at h
    cases h
    exact .confirms (Or.inr hp)
  | returned result => simp [hp] at h

theorem move_effect (h : move config keys store c input = some (next, moved)) :
    Effect keys store c input next moved := by
  unfold move at h
  cases input with
  | run around => exact run_effect around rfl h
  | conflict | fail =>
    simp only at h
    split at h <;> cases h
    exact .ends _
  | lost around =>
    simp only at h
    split at h
    · next row loaded drawn hp =>
      split at h <;> cases h
      exact .writes row loaded drawn hp rfl _
    · next hp =>
      split_ifs at h
      cases h
      have he : Effect keys store c (.lost around) _ _ :=
        .revokes around.now hp false (.error (.other "database error"))
      rwa [Bool.or_false] at he
    · cases h

end Moves

structure Store.Inv (keys : KeySource) (store : Store) : Prop where
  status : store.revoked → store.peer.status = .revoked
  current : ∃ n rest, store.stored = n :: rest ∧ store.peer.publicKey = keys.publicKey n ∧
    ∀ key ∈ store.retired, ∃ m ∈ rest, key = keys.publicKey m

def Call.Own (keys : KeySource) (store : Store) (c : Call) : Prop :=
  match c.phase with
  | .write row loaded drawn =>
    (∃ m ∈ store.stored, loaded.publicKey = keys.publicKey m) ∧
      row.publicKey = (drawn.map keys.publicKey).getD loaded.publicKey
  | .reread => store.peer.status = .revoked
  | _ => True

variable {keys : KeySource}

theorem Call.Own.mono {store next : Store} {c : Call} (h : c.Own keys store)
    (hs : ∀ m ∈ store.stored, m ∈ next.stored)
    (hstatus : store.peer.status = .revoked → next.peer.status = .revoked) : c.Own keys next := by
  unfold Own at h ⊢
  cases hp : c.phase with
  | write row loaded drawn =>
    simp only [hp] at h
    obtain ⟨⟨m, hm, hkey⟩, hrow⟩ := h
    exact ⟨⟨m, hs m hm, hkey⟩, hrow⟩
  | reread => simp only [hp] at h; exact hstatus h
  | load | setStatus | returned _ => trivial

theorem stored_retire (replaced : String) (loaded : VPNPeer) (drawn : Option ℕ) :
    (store.retire replaced loaded drawn).stored = store.stored := by
  unfold retire
  split_ifs <;> rfl

theorem drawn_retire (replaced : String) (loaded : VPNPeer) (drawn : Option ℕ) :
    (store.retire replaced loaded drawn).drawn = store.drawn := by
  unfold retire
  split_ifs <;> rfl

section Invariant

variable {keys : KeySource} {store : Store}
  {drawn : Option ℕ}

theorem Store.Inv.stored_key (h : store.Inv keys) : ∃ m ∈ store.stored, store.peer.publicKey = keys.publicKey m := by
  obtain ⟨n, rest, hs, hkey, -⟩ := h.current
  exact ⟨n, by simp [hs], hkey⟩

theorem Store.Inv.retired_stored (h : store.Inv keys) :
    ∀ key ∈ store.retired, ∃ m ∈ store.stored, key = keys.publicKey m := by
  intro key hr
  obtain ⟨n, rest, hs, -, hall⟩ := h.current
  obtain ⟨m, hm, hkey⟩ := hall key hr
  exact ⟨m, by simp [hs, hm], hkey⟩

theorem Store.Inv.write (h : store.Inv keys) (hp : c.phase = .write row loaded drawn)
    (hown : c.Own keys store) (hg : Unraced store c input) (he : input.effective) : (store.write row drawn).Inv keys ∧
      ((store.write row drawn).retire store.peer.publicKey loaded drawn).Inv keys := by
  simp only [Own, hp] at hown
  obtain ⟨hl, hrow⟩ := hown
  obtain ⟨hlive, hs⟩ := hg he (loaded, drawn) (by simp [writing, hp])
  have hu : store.revoked ≠ true := fun hr => hlive (h.status hr)
  cases drawn with
  | none =>
    have hkey : row.publicKey = store.peer.publicKey := by rw [hrow]; exact hs rfl
    have hinv : (store.write row none).Inv keys := by
      refine ⟨fun hr => absurd hr hu, ?_⟩
      simpa [write, hkey] using h.current
    exact ⟨hinv, hinv⟩
  | some n =>
    refine ⟨⟨fun hr => absurd hr hu, n, store.stored, rfl, hrow, h.retired_stored⟩,
      ⟨fun hr => absurd hr hu, n, store.stored, rfl, hrow, ?_⟩⟩
    intro key hretired
    simp only [retire, isSome_some, if_true, mem_cons] at hretired
    rcases hretired with rfl | rfl | hold
    · exact hl
    · exact h.stored_key
    · exact h.retired_stored key hold

theorem Effect.inv {next : Store} {moved : Call} (heffect : Effect keys store c input next moved)
    (h : store.Inv keys) (hown : c.Own keys store) (hg : Unraced store c input) :
    next.Inv keys ∧ moved.Own keys next ∧ ∀ q : Call, q.Own keys store → q.Own keys next := by
  cases heffect with
  | ends | asks => exact ⟨h, trivial, fun q hq => hq⟩
  | confirms hr =>
    have hs : store.peer.status = .revoked := by
      rcases hr with ⟨-, hr⟩ | hreread
      · exact hr
      · simpa [Own, hreread] using hown
    exact ⟨⟨fun _ => hs, h.current⟩, trivial, fun q hq => hq⟩
  | prepares row hload hkey => exact ⟨h, ⟨h.stored_key, hkey⟩, fun q hq => hq⟩
  | draws row hload hkey =>
    exact ⟨⟨h.status, h.current⟩, ⟨h.stored_key, hkey⟩, fun q hq => hq.mono (fun _ hm => hm) id⟩
  | finds hs hr => exact ⟨h, hr, fun q hq => hq⟩
  | writes row loaded drawn hp he result =>
    obtain ⟨hl, -⟩ := hg he (loaded, drawn) (by simp [writing, hp])
    refine ⟨(h.write hp hown hg he).1, trivial, fun q hq => hq.mono ?_ ?_⟩
    · exact fun m hm => mem_append_right _ hm
    · exact fun hr => absurd hr hl
  | retires row loaded drawn hp he =>
    obtain ⟨hl, -⟩ := hg he (loaded, drawn) (by simp [writing, hp])
    refine ⟨(h.write hp hown hg he).2, trivial, fun q hq => hq.mono ?_ ?_⟩
    · intro m hm
      rw [stored_retire]
      exact mem_append_right _ hm
    · exact fun hr => absurd hr hl
  | revokes now hs returned result =>
    exact ⟨⟨fun _ => rfl, h.current⟩, trivial, fun q hq => hq.mono (fun _ hm => hm) fun _ => rfl⟩

end Invariant

def Call.draws (n : ℕ) (c : Call) : ℕ :=
  match c.phase with
  | .write _ _ drawn => if drawn = some n then 1 else 0
  | _ => 0

def Fresh (s : State Store Call) : Prop :=
  ∀ n, s.weight (draws n) + s.store.stored.count n ≤ if n < s.store.drawn then 1 else 0

theorem draws_return (n : ℕ) (c : Call) (result : Except PeerError Unit) : (c.return result).draws n = 0 := rfl

theorem Effect.draws_count {store next : Store}
    (heffect : Effect keys store c input next moved) (n : ℕ) : next.drawn = store.drawn ∧
        moved.draws n + next.stored.count n ≤ c.draws n + store.stored.count n ∨
      next.drawn = store.drawn + 1 ∧ next.stored = store.stored ∧ moved.draws n ≤ if n = store.drawn then 1 else 0 := by
  have hw : ∀ row loaded drawn, c.phase = .write row loaded drawn →
      (drawn.toList ++ store.stored).count n = c.draws n + store.stored.count n := by
    intro row loaded drawn hp
    rw [count_append]
    cases drawn with
    | none => simp [Call.draws, hp]
    | some m => simp [Call.draws, hp, count_singleton]
  cases heffect with
  | ends | confirms => exact Or.inl ⟨rfl, by simp [draws_return]⟩
  | prepares | asks | finds => exact Or.inl ⟨rfl, by simp [Call.draws]⟩
  | draws row hload hkey =>
    refine Or.inr ⟨rfl, rfl, ?_⟩
    simp only [Call.draws, some.injEq]
    split_ifs <;> omega
  | writes row loaded drawn hp he result =>
    refine Or.inl ⟨rfl, ?_⟩
    have hc := hw row loaded drawn hp
    rw [draws_return, Nat.zero_add]
    exact hc.le
  | retires row loaded drawn hp he =>
    refine Or.inl ⟨drawn_retire _ _ _ _, ?_⟩
    have hc := hw row loaded drawn hp
    rw [draws_return, Nat.zero_add, stored_retire]
    exact hc.le
  | revokes now hstatus returned result => exact Or.inl ⟨rfl, by simp [draws_return, setRevoked]⟩

theorem Fresh.step {s next : State Store Call} (h : Fresh s)
    (hs : (system config keys).step s label = some next) : Fresh next := by
  intro n
  have hn := h n
  cases label with
  | start request =>
    rw [step_start_eq_some hs, weight_start]
    have hb : (begin config request).draws n = 0 := by
      unfold draws
      rcases begin_phase config request with hp | ⟨result, hp⟩
      · rw [hp]
      · rw [hp]
    simp only [system, hb, Nat.add_zero]
    exact hn
  | move i input =>
    obtain ⟨c, store, moved, hc, hm, rfl⟩ := step_move_eq_some hs
    have hweight := weight_move (draws n) hc store moved
    change _ + store.stored.count n ≤ if n < store.drawn then 1 else 0
    rcases (move_effect hm).draws_count n with ⟨hd, hcount⟩ | ⟨hd, hstored, hcount⟩
    · rw [hd]; omega
    · rw [hd, hstored]; split_ifs at hn hcount ⊢ <;> omega
  | event e => exact e.elim

theorem Fresh.final (h : Fresh s) (hinv : s.store.Inv keys) : s.store.Final := by
  refine ⟨hinv.status, ?_⟩
  intro key hr hsame
  obtain ⟨n, rest, hs, hkey, hall⟩ := hinv.current
  obtain ⟨m, hm, rfl⟩ := hall key hr
  obtain rfl : n = m := keys.injective (hkey.symm.trans hsame)
  have hn := h n
  have hcount : 1 ≤ rest.count n := count_pos_iff.mpr hm
  rw [hs, count_cons_self] at hn
  split_ifs at hn <;> omega

theorem revocation_and_rotation_final (config : Config) (keys : KeySource) (peer : VPNPeer)
    (labels : List (Interleaving.Label Request Input Empty))
    (hguard : Transition.Along (system config keys).step (Interleaving.OnMoves Unraced) (init keys peer) labels) :
    Transition.Always (system config keys).step (fun s => s.store.Final) (init keys peer) labels := by
  have hstep : ∀ s label next, (Interleaving.Holds (Store.Inv keys) (fun store c => c.Own keys store) s ∧ Fresh s) →
      Interleaving.OnMoves Unraced s label → (system config keys).step s label = some next →
      Interleaving.Holds (Store.Inv keys) (fun store c => c.Own keys store) next ∧ Fresh next := by
    intro s label next h hunraced hs
    refine ⟨h.1.step ?_ ?_ ?_ hunraced hs, h.2.step hs⟩
    · intro store request _
      change Call.Own keys store (Call.begin config request)
      unfold Call.Own
      rcases begin_phase config request with hphase | ⟨result, hphase⟩
      · simp only [hphase]
      · simp only [hphase]
    · intro store c input store' moved hinv hown hunraced hmove
      exact (move_effect hmove).inv hinv hown hunraced
    · intro store e; exact e.elim
  have hinit : Interleaving.Holds (Store.Inv keys) (fun store c => c.Own keys store) (init keys peer) ∧
      Fresh (init keys peer) := by
    refine ⟨⟨⟨?_, 0, [], rfl, rfl, ?_⟩, ?_⟩, ?_⟩
    · simp [init]
    · simp [init]
    · simp [init]
    · intro n
      simp only [init, Interleaving.State.weight, map_nil, sum_nil, count_singleton]
      split_ifs <;> simp_all
  have hall := Transition.always_of_invariant hstep (init keys peer) labels hinit hguard
  exact hall.mono fun s h => h.2.final h.1.store

def sampleConfig : Config := ⟨true, false, true, false⟩

def sampleKeys : KeySource where
  publicKey n := String.ofList (List.replicate (n + 1) 'k')
  privateKey _ := ⟨"ciphertext", "nonce", "", 1⟩
  injective := by
    intro m n h
    have hlength := congrArg (fun s : String => s.toList.length) h
    simpa using hlength

def samplePeer : VPNPeer :=
  ⟨"peer", "laptop", "owner", "", ⟨"", "", "", 0⟩, "10.64.0.2", "node", "agent", [], [], false, false, 128, 0,
    none, .active, "", 0, 0⟩

def sampleAround : Surroundings := ⟨0, none, none, false⟩

def rename : Operation :=
  .update ⟨some "desktop", none, none, none, none, none, none, none, none, none, none⟩

def byOwner (operation : Operation) : Label Request Input Empty :=
  .start ⟨⟨"owner", "user"⟩, operation⟩

def advance (i : ℕ) : Label Request Input Empty := .move i (.run sampleAround)

def sequentialRun : List (Label Request Input Empty) :=
  [byOwner .rotate, advance 0, advance 0, byOwner rename, advance 1, advance 1, byOwner .revoke, advance 2, advance 2]

theorem sequential_operations_final :
    ∃ s, Transition.run (system sampleConfig sampleKeys).step (init sampleKeys samplePeer) sequentialRun =
        some s ∧ (s.store.revoked ∧ s.store.retired ≠ []) ∧ s.store.Final :=
  (revocation_and_rotation_final sampleConfig sampleKeys samplePeer sequentialRun (by decide)).exists_run (by decide)

-- A patch loads the row, another operation succeeds, and the patch writes back
-- what it loaded.
def overtakenRun (operation : Operation) : List (Label Request Input Empty) :=
  [byOwner rename, byOwner operation, advance 0, advance 1, advance 1, advance 0]

theorem stale_patch_undoes_operation :
    (∃ s, Transition.run (system sampleConfig sampleKeys).step (init sampleKeys samplePeer)
      (overtakenRun .revoke) = some s ∧ s.store.revoked ∧ s.store.peer.status ≠ .revoked) ∧
    ∃ s, Transition.run (system sampleConfig sampleKeys).step (init sampleKeys samplePeer)
      (overtakenRun .rotate) = some s ∧ s.store.peer.publicKey ∈ s.store.retired := by
  constructor
  · apply Transition.exists_run_of_any; decide
  · apply Transition.exists_run_of_any; decide

end TunnelMesh.Vpn.PeerLifecycle
