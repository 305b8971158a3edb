import TunnelMesh.Authorization.Cache

namespace TunnelMesh.Authorization.Cache

open Interleaving Option List Transition

section Invariant

variable {ρ κ δ ε : Type} (inner : Inner ρ κ δ ε) (regular : ρ → Prop)

structure Sound (history : List δ) (basis : Evaluation ρ δ ε) : Prop where
  regular : regular basis.request
  known : basis.facts ∈ history
  verdict : basis.verdict = none → inner.authorize basis.facts basis.now basis.request = none

variable (store : Store ρ κ δ ε)

def Valid (key : κ) (basis : Evaluation ρ δ ε) : Prop :=
  Sound inner regular store.history basis ∧ inner.key basis.request = key ∧
    store.generation ≤ inner.revision basis.facts

structure Coherent : Prop where
  current : store.facts ∈ store.history
  observed : ∀ r ∈ store.observed, r ≤ store.generation
  generation : store.generation ≤ inner.revision store.facts
  polled : ∀ r, store.polled = some (some r) → store.generation ≤ r ∧ r ≤ inner.revision store.facts
  entries : ∀ pair ∈ store.entries, Valid inner regular store pair.1 pair.2.basis
  inFlight : ∀ pair ∈ store.inFlight, ∃ call, store.calls[pair.2]? = some call ∧
    inner.key call.request = pair.1 ∧ ∀ b ∈ call.outcome, store.generation ≤ inner.revision b.facts
  calls : ∀ call ∈ store.calls, regular call.request ∧
    ∀ b ∈ call.outcome, Sound inner regular store.history b ∧ b.request = call.request

-- A verdict that the call may return: on its request, or one with the same key,
-- and on facts no older than the polls before the call.
structure Due (history : List δ) (p : Authorize ρ δ ε) (basis : Evaluation ρ δ ε) : Prop where
  sound : Sound inner regular history basis
  key : inner.key basis.request = inner.key p.request
  recent : ∀ r ∈ p.since, r ≤ inner.revision basis.facts

variable (p : Authorize ρ δ ε)

def Waits (c : ℕ) : Prop :=
  ∃ call, store.calls[c]? = some call ∧ inner.key call.request = inner.key p.request ∧
    ∀ b ∈ call.outcome, ∀ r ∈ p.since, r ≤ inner.revision b.facts

def Standing : Phase ρ δ ε → Prop
  | .arrived | .cancelled => True
  | .registered c => ∃ call, store.calls[c]? = some call ∧ call.request = p.request
  | .evaluated _ basis => Valid inner regular store (inner.key p.request) basis
  | .stored _ basis | .removed _ basis | .returned basis => Due inner regular store.history p basis
  | .waiting c => Waits inner store p c

def Own : Prop :=
  regular p.request ∧ (∀ r ∈ p.since, r ≤ store.generation) ∧ Standing inner regular store p p.phase

structure Extends (next : Store ρ κ δ ε) : Prop where
  generation : next.generation = store.generation
  history : store.history ⊆ next.history
  calls : ∀ (c : ℕ) call, store.calls[c]? = some call → ∃ call', next.calls[c]? = some call' ∧
    call'.request = call.request ∧ ∀ b ∈ call'.outcome, b ∈ call.outcome ∨ store.generation ≤ inner.revision b.facts

end Invariant

section Moves

variable {ρ κ δ ε : Type} {inner : Inner ρ κ δ ε} {regular : ρ → Prop} {config : Config}
  {store next : Store ρ κ δ ε} {p : Authorize ρ δ ε}

theorem Sound.mono
    (h : Sound inner regular history basis) (hsub : history ⊆ longer) : Sound inner regular longer basis :=
  { h with known := hsub h.known }

theorem Due.mono (h : Due inner regular history p basis) (hsub : history ⊆ longer) : Due inner regular longer p basis :=
  { h with sound := h.sound.mono hsub }

theorem Valid.due (h : Valid inner regular store (inner.key p.request) basis)
    (hs : ∀ r ∈ p.since, r ≤ store.generation) : Due inner regular store.history p basis :=
  ⟨h.1, h.2.1, fun r hr => (hs r hr).trans h.2.2⟩

theorem Extends.refl (store : Store ρ κ δ ε) : Extends inner store store :=
  ⟨rfl, List.Subset.refl _, fun _ call hc => ⟨call, hc, rfl, fun _ => .inl⟩⟩

theorem Extends.of_calls (hg : next.generation = store.generation)
    (hh : store.history ⊆ next.history) (hc : next.calls = store.calls) : Extends inner store next :=
  ⟨hg, hh, fun _ call hcall => ⟨call, hc ▸ hcall, rfl, fun _ => .inl⟩⟩

theorem Valid.extend
    (h : Valid inner regular store key basis) (he : Extends inner store next) : Valid inner regular next key basis :=
  ⟨h.1.mono he.history, h.2.1, he.generation ▸ h.2.2⟩

theorem Own.extend (h : Own inner regular store p) (he : Extends inner store next) : Own inner regular next p := by
  obtain ⟨hregular, hsince, hs⟩ := h
  refine ⟨hregular, fun r hr => he.generation ▸ hsince r hr, ?_⟩
  generalize p.phase = phase at hs ⊢
  cases phase with
  | arrived | cancelled => trivial
  | registered c =>
    obtain ⟨call, hcall, hrequest⟩ := hs
    obtain ⟨call', hc, hsame, -⟩ := he.calls c call hcall
    exact ⟨call', hc, hsame.trans hrequest⟩
  | evaluated => exact Valid.extend hs he
  | stored | removed | returned => exact Due.mono hs he.history
  | waiting c =>
    obtain ⟨call, hcall, hkey, hrecent⟩ := hs
    obtain ⟨call', hc, hsame, ho⟩ := he.calls c call hcall
    refine ⟨call', hc, by rw [hsame, hkey], fun b hb r hr => ?_⟩
    rcases ho b hb with hold | hnew
    · exact hrecent b hold r hr
    · exact (hsince r hr).trans hnew

theorem Coherent.of_entries {entries : List (κ × Entry ρ δ ε)} (h : Coherent inner regular store)
    (he : ∀ pair ∈ entries, Valid inner regular store pair.1 pair.2.basis) :
    Coherent inner regular { store with entries } :=
  { h with entries := he }

theorem facts_evaluate (ht : input.torn.isNone) (request : ρ) :
    (store.evaluate inner request input).facts = store.facts := by
  rw [Store.evaluate, isNone_iff_eq_none.mp ht, getD_none]

theorem valid_evaluate (ht : input.torn.isNone) (hinv : Coherent inner regular store)
    (hr : regular p.request) :
    Valid inner regular store (inner.key p.request) (store.evaluate inner p.request input) := by
  refine ⟨⟨hr, facts_evaluate ht p.request ▸ hinv.current, fun hn => ?_⟩, rfl, ?_⟩
  · simp only [Store.evaluate, or_eq_none_iff] at hn
    exact hn.2
  · rw [facts_evaluate ht]; exact hinv.generation

theorem extends_modify (hr : ∀ call, (f call).request = call.request)
    (ho : ∀ call, ∀ b ∈ (f call).outcome, b ∈ call.outcome ∨ store.generation ≤ inner.revision b.facts) :
    Extends inner store { store with calls := store.calls.modify c f } := by
  refine ⟨rfl, List.Subset.refl _, fun i call hcall => ?_⟩
  by_cases hc : c = i
  · subst hc
    refine ⟨f call, ?_, hr call, ho call⟩
    simp [hcall]
  · refine ⟨call, ?_, rfl, fun _ => .inl⟩; simp [hc, hcall]

theorem mem_modify {α : Type} {l : List α} {f : α → α} {a : α} (h : a ∈ l.modify c f) :
    a ∈ l ∨ ∃ b, l[c]? = some b ∧ a = f b := by
  obtain ⟨i, hi⟩ := mem_iff_getElem?.mp h
  rw [List.getElem?_modify] at hi
  obtain ⟨b, hb, rfl⟩ := map_eq_some_iff.mp hi
  by_cases hc : c = i
  · subst hc; exact .inr ⟨b, hb, by simp⟩
  · exact .inl (by simpa [hc] using mem_of_getElem? hb)

theorem Coherent.modify {f : Call ρ δ ε → Call ρ δ ε} {c : ℕ} (h : Coherent inner regular store)
    (hr : ∀ call, (f call).request = call.request)
    (ho : ∀ call, ∀ b ∈ (f call).outcome, b ∈ call.outcome ∨ store.generation ≤ inner.revision b.facts)
    (hs : ∀ call, store.calls[c]? = some call →
      ∀ b ∈ (f call).outcome, Sound inner regular store.history b ∧ b.request = call.request) :
    Coherent inner regular { store with calls := store.calls.modify c f } := by
  refine { h with inFlight := fun pair hp => ?_, calls := fun call hcall => ?_ }
  · obtain ⟨call, hcall, hkey, hrecent⟩ := h.inFlight pair hp
    obtain ⟨call', hc, hsame, hnew⟩ := (extends_modify hr ho).calls pair.2 call hcall
    refine ⟨call', hc, by rw [hsame, hkey], fun b hb => ?_⟩
    rcases hnew b hb with hold | hl
    · exact hrecent b hold
    · exact hl
  · rcases mem_modify hcall with hold | ⟨call', hc, rfl⟩
    · exact h.calls call hold
    · rw [hr]; exact ⟨(h.calls call' (mem_of_getElem? hc)).1, hs call' hc⟩

theorem getElem?_append_of_some {α : Type} {l l' : List α} {i : ℕ} {a : α} (h : l[i]? = some a) :
    (l ++ l')[i]? = some a := by
  rw [List.getElem?_append_left (List.getElem?_eq_some_iff.mp h).1, h]

theorem Coherent.register (h : Coherent inner regular store) (hr : regular p.request) : Coherent inner regular
      { store with
        calls := store.calls ++ [⟨p.request, none, false⟩]
        inFlight := (inner.key p.request, store.calls.length) :: store.inFlight } := by
  refine { h with inFlight := fun pair hp => ?_, calls := fun call hc => ?_ }
  · rcases mem_cons.mp hp with rfl | hold
    · exact ⟨⟨p.request, none, false⟩, by simp, rfl, by simp⟩
    · obtain ⟨call, hc, hkey, hrecent⟩ := h.inFlight pair hold
      exact ⟨call, getElem?_append_of_some hc, hkey, hrecent⟩
  · rcases mem_append.mp hc with hold | hnew
    · exact h.calls call hold
    · rw [mem_singleton.mp hnew]; exact ⟨hr, by simp⟩

variable [DecidableEq κ]

theorem Coherent.drop (h : Coherent inner regular store) (key : κ) : Coherent inner regular (store.drop key) :=
  h.of_entries fun pair hp => h.entries pair (mem_filter.mp hp).1

theorem Coherent.put (h : Coherent inner regular store) (hv : Valid inner regular store key entry.basis) :
    Coherent inner regular (store.put key entry) := by
  refine h.of_entries fun pair hp => ?_
  rcases mem_cons.mp hp with rfl | hold
  · exact hv
  · exact h.entries pair (mem_filter.mp hold).1

theorem mem_of_lookup {β : Type} {pairs : List (κ × β)} {value : β}
    (h : pairs.lookup key = some value) : (key, value) ∈ pairs := by
  obtain ⟨before, after, rfl, -⟩ := lookup_eq_some_iff.mp h
  exact mem_append_right before mem_cons_self

theorem lookupLocked_cases (store : Store ρ κ δ ε) (config : Config) (key : κ) (now : ℕ) :
    (store.lookupLocked config key now = (store, none)) ∨ (store.lookupLocked config key now = (store.drop key, none)) ∨
      ∃ entry, (key, entry) ∈ store.entries ∧ store.lookupLocked config key now =
        (store.put key { entry with lastAccess := now }, some { entry with lastAccess := now }) := by
  unfold Store.lookupLocked
  split
  · exact .inl rfl
  rename_i entry hl
  split
  · exact .inr (.inl rfl)
  · split
    · exact .inr (.inl rfl)
    · exact .inr (.inr ⟨entry, mem_of_lookup hl, rfl⟩)

theorem evictLocked_extends (store : Store ρ κ δ ε) : Extends inner store store.evictLocked := by
  unfold Store.evictLocked
  cases Store.oldest store.entries <;> exact .of_calls rfl (List.Subset.refl _) rfl

theorem Coherent.evictLocked (h : Coherent inner regular store) : Coherent inner regular store.evictLocked := by
  unfold Store.evictLocked
  cases Store.oldest store.entries with
  | none => exact h
  | some pair => exact h.drop pair.1

theorem Coherent.insert (h : Coherent inner regular store) (hv : Valid inner regular store key basis) :
    Coherent inner regular (store.insert config key basis now) ∧
      Extends inner store (store.insert config key basis now) := by
  unfold Store.insert
  simp only
  split
  · have he : Extends inner store store.evictLocked := evictLocked_extends store
    exact ⟨h.evictLocked.put (hv.extend he), { he with }⟩
  · exact ⟨h.put hv, .of_calls rfl (List.Subset.refl _) rfl⟩

theorem lookupLocked_spec (config : Config) (hinv : Coherent inner regular store) (key : κ) (now : ℕ) :
    Coherent inner regular (store.lookupLocked config key now).1 ∧
      Extends inner store (store.lookupLocked config key now).1 ∧
      ∀ entry, (store.lookupLocked config key now).2 = some entry → Valid inner regular store key entry.basis := by
  rcases lookupLocked_cases store config key now with hm | hd | ⟨entry, hmem, hhit⟩
  · rw [hm]; exact ⟨hinv, .refl store, by simp⟩
  · rw [hd]; exact ⟨hinv.drop key, .of_calls rfl (List.Subset.refl _) rfl, by simp⟩
  · rw [hhit]
    have hv := hinv.entries _ hmem
    refine ⟨hinv.put hv, .of_calls rfl (List.Subset.refl _) rfl, ?_⟩
    rintro found ⟨⟩
    exact hv

theorem arrived_coherent {moved : Authorize ρ δ ε} (hinv : Coherent inner regular store)
    (hregular : regular p.request) (hsince : ∀ r ∈ p.since, r ≤ store.generation) (hp : p.phase = .arrived)
    (ht : input.torn.isNone) (hm : move inner config store p input = some (next, moved)) :
    Coherent inner regular next ∧ Own inner regular next moved ∧ Extends inner store next := by
  obtain ⟨hf, he, hentry⟩ := lookupLocked_spec config hinv (inner.key p.request) input.now
  simp only [move, hp] at hm
  generalize store.lookupLocked config (inner.key p.request) input.now = found at *
  have hs : ∀ r ∈ p.since, r ≤ found.1.generation := fun r hr => he.generation ▸ hsince r hr
  split at hm
  · cases hm
    exact ⟨hinv, ⟨hregular, hsince, { (valid_evaluate ht hinv hregular).due hsince with }⟩, .refl store⟩
  · split at hm
    · rename_i entry hhit
      cases hm
      exact ⟨hf, ⟨hregular, hs, { ((hentry entry hhit).extend he).due hs with }⟩, he⟩
    · split at hm
      · rename_i c hj
        cases hm
        obtain ⟨call, hc, hkey, hrecent⟩ := hf.inFlight _ (mem_of_lookup hj)
        exact ⟨hf, ⟨hregular, hs, call, hc, hkey, fun b hb r hr => (hs r hr).trans (hrecent b hb)⟩, he⟩
      · cases hm
        refine ⟨hf.register hregular, ⟨hregular, hs, ⟨p.request, none, false⟩, by simp, rfl⟩, ?_⟩
        refine { he with calls := fun c call hc => ?_ }
        obtain ⟨call', hcall', hsame, ho⟩ := he.calls c call hc
        exact ⟨call', getElem?_append_of_some hcall', hsame, ho⟩

theorem move_coherent (hinv : Coherent inner regular store)
    (hown : Own inner regular store p) (ht : input.torn.isNone) (hm : move inner config store p input = some (next, moved)) :
    Coherent inner regular next ∧ Own inner regular next moved ∧ Extends inner store next := by
  obtain ⟨hregular, hsince, hs⟩ := hown
  cases hp : p.phase
  case arrived => exact arrived_coherent hinv hregular hsince hp ht hm
  case returned | cancelled => simp [move, hp] at hm
  all_goals
    simp only [hp] at hs
    simp only [move, hp] at hm
  case registered c =>
    cases hm
    obtain ⟨call, hc, hrequest⟩ := hs
    have hv := valid_evaluate ht hinv hregular
    have hnew : ∀ record : Call ρ δ ε, ∀ b ∈ some (store.evaluate inner p.request input),
        b ∈ record.outcome ∨ store.generation ≤ inner.revision b.facts := by
      rintro record b ⟨⟩
      exact .inr hv.2.2
    refine ⟨hinv.modify (fun _ => rfl) hnew ?_, ⟨hregular, hsince, hv⟩, extends_modify (fun _ => rfl) hnew⟩
    rintro record hrecord b ⟨⟩
    obtain rfl := some.inj (hc.symm.trans hrecord)
    exact ⟨hv.1, hrequest.symm⟩
  case evaluated c basis =>
    cases hm
    obtain ⟨hinsert, he⟩ := hinv.insert hs
    exact ⟨hinsert, ⟨hregular, fun r hr => he.generation ▸ hsince r hr, { (hs.due hsince).mono he.history with }⟩, he⟩
  case stored c basis =>
    cases hm
    refine ⟨{ hinv with inFlight := fun pair hpair => ?_ }, ⟨hregular, hsince, { hs with }⟩,
      .of_calls rfl (List.Subset.refl _) rfl⟩
    exact hinv.inFlight pair (mem_filter.mp hpair).1
  case removed c basis =>
    cases hm
    have hsame : ∀ record : Call ρ δ ε, ∀ b ∈ record.outcome,
        b ∈ record.outcome ∨ store.generation ≤ inner.revision b.facts := fun _ _ => .inl
    refine ⟨hinv.modify (fun _ => rfl) hsame fun call hc => (hinv.calls call (mem_of_getElem? hc)).2,
      ⟨hregular, hsince, { hs with }⟩,
      extends_modify (fun _ => rfl) hsame⟩
  case waiting c =>
    split at hm
    · cases hm; exact ⟨hinv, ⟨hregular, hsince, trivial⟩, .refl store⟩
    simp only [bind_eq_bind, bind_eq_some_iff] at hm
    obtain ⟨record, hrecord, basis, hb, hm⟩ := hm
    split_ifs at hm
    cases hm
    obtain ⟨call, hc, hkey, hrecent⟩ := hs
    obtain rfl := some.inj (hc.symm.trans hrecord)
    obtain ⟨hsound, hrequest⟩ := (hinv.calls call (mem_of_getElem? hc)).2 basis hb
    exact ⟨hinv, ⟨hregular, hsince, ⟨hsound, by rw [hrequest, hkey], hrecent basis hb⟩⟩, .refl store⟩

end Moves

section Events

variable {ρ κ δ ε : Type} {inner : Inner ρ κ δ ε} {regular : ρ → Prop} {next : Store ρ κ δ ε}
  {p : Authorize ρ δ ε}

def Phase.unstored : Phase ρ δ ε → Option (Evaluation ρ δ ε)
  | .evaluated _ basis => some basis
  | _ => none

-- No verdict on facts older than the revision is still to be stored, and no
-- call that has one can still be joined.
def Settled (inner : Inner ρ κ δ ε) (s : State ρ κ δ ε) (r : ℕ) : Prop :=
  (∀ p ∈ s.procs, ∀ basis ∈ p.phase.unstored, r ≤ inner.revision basis.facts) ∧
    ∀ pair ∈ s.store.inFlight, ∀ call ∈ s.store.calls[pair.2]?, ∀ basis ∈ call.outcome, r ≤ inner.revision basis.facts
  deriving Decidable

-- A poll applies a revision only when the calls are settled for it, no change is
-- committed during an evaluation, and the requests are regular.
def Guard (inner : Inner ρ κ δ ε) (regular : ρ → Prop) (s : State ρ κ δ ε) : Label ρ δ ε → Prop
  | .start request => regular request
  | .event (.pollApply _) => ∀ r ∈ s.store.polled.join, Settled inner s r
  | .move _ input => input.torn.isNone
  | _ => True

instance Guard.decidable (inner : Inner ρ κ δ ε) (regular : ρ → Prop) [DecidablePred regular] (s : State ρ κ δ ε)
    (label : Label ρ δ ε) : Decidable (Guard inner regular s label) := by
  unfold Guard
  split <;> infer_instance

theorem apply_coherent (hinv : Coherent inner regular store)
    (hg : store.generation ≤ r) (hr : r ≤ inner.revision store.facts)
    (hf : ∀ pair ∈ store.inFlight, ∀ call ∈ store.calls[pair.2]?,
      ∀ basis ∈ call.outcome, r ≤ inner.revision basis.facts) :
    Coherent inner regular { apply store r now with polled := none } := by
  unfold apply
  split
  · rename_i hs
    refine { hinv with observed := fun r' hr' => ?_, polled := by simp }
    rcases mem_cons.mp hr' with rfl | hold
    · exact hs.le
    · exact hinv.observed r' hold
  · refine ⟨hinv.current, fun r' hr' => ?_, hr, by simp, by simp, fun pair hp => ?_, hinv.calls⟩
    · rcases mem_cons.mp hr' with rfl | hold
      · exact le_rfl
      · exact (hinv.observed r' hold).trans hg
    · obtain ⟨call, hc, hkey, -⟩ := hinv.inFlight pair hp
      exact ⟨call, hc, hkey, hf pair hp call hc⟩

theorem apply_generation (store : Store ρ κ δ ε) (r now : ℕ) : (apply store r now).generation = r := by
  unfold apply
  split
  · rename_i hs; exact hs.symm
  · rfl

theorem apply_own (hown : Own inner regular store p) (hg : store.generation ≤ r)
    (hu : ∀ basis ∈ p.phase.unstored, r ≤ inner.revision basis.facts) :
    Own inner regular { apply store r now with polled := none } p := by
  obtain ⟨hr, hsince, hs⟩ := hown
  have hc : (apply store r now).calls = store.calls := by unfold apply; split <;> rfl
  have hh : (apply store r now).history = store.history := by unfold apply; split <;> rfl
  refine ⟨hr, fun r' hr' => ?_, ?_⟩
  · rw [apply_generation]; exact (hsince r' hr').trans hg
  · generalize p.phase = phase at hs hu ⊢
    cases phase with
    | arrived | cancelled => trivial
    | registered | waiting => simpa only [Standing, Waits, hc] using hs
    | evaluated c basis => exact ⟨hh ▸ hs.1, hs.2.1, (apply_generation store r now).symm ▸ hu basis rfl⟩
    | stored | removed | returned => simpa only [Standing, hh] using hs

theorem event_coherent {s : State ρ κ δ ε} {e : Event δ} (h : Holds (Coherent inner regular) (Own inner regular) s)
    (hguard : Guard inner regular s (.event e)) (he : event inner s.store e = some next) :
    Holds (Coherent inner regular) (Own inner regular) ⟨next, s.procs⟩ := by
  obtain ⟨hinv, hown⟩ := h
  cases e with
  | commit facts =>
    simp only [event] at he
    split_ifs at he with hh
    cases he
    have hl : s.store.history ⊆ facts :: s.store.history := subset_cons_self _ _
    have hx : Extends inner s.store { s.store with facts, history := facts :: s.store.history } := .of_calls rfl hl rfl
    refine ⟨⟨mem_cons_self, hinv.observed, hinv.generation.trans hh.le, fun r hr => ?_,
      fun pair hpair => (hinv.entries pair hpair).extend hx, hinv.inFlight, fun call hc => ?_⟩,
      fun p hp => (hown p hp).extend hx⟩
    · exact ⟨(hinv.polled r hr).1, (hinv.polled r hr).2.trans hh.le⟩
    · refine ⟨(hinv.calls call hc).1, fun b hb => ?_⟩
      exact ⟨((hinv.calls call hc).2 b hb).1.mono hl, ((hinv.calls call hc).2 b hb).2⟩
  | pollRead fails =>
    simp only [event] at he
    split at he <;> cases he
    refine ⟨{ hinv with polled := fun r hr => ?_ }, fun p hp => (hown p hp).extend (.of_calls rfl (List.Subset.refl _) rfl)⟩
    cases fails with
    | true => cases hr
    | false =>
      obtain rfl : inner.revision s.store.facts = r := by simpa using hr
      exact ⟨hinv.generation, le_rfl⟩
  | pollApply now =>
    obtain ⟨polled, hpolled, rfl⟩ := map_eq_some_iff.mp he
    cases polled with
    | none =>
      exact ⟨{ hinv with polled := by simp }, fun p hp => (hown p hp).extend (.of_calls rfl (List.Subset.refl _) rfl)⟩
    | some r =>
      obtain ⟨hg, hrevision⟩ := hinv.polled r hpolled
      obtain ⟨hu, hf⟩ := hguard r (by simp [hpolled])
      exact ⟨apply_coherent hinv hg hrevision hf, fun p hp => apply_own (hown p hp) hg (hu p hp)⟩

-- A call that has returned `nil` has it from the inner authorizer, on facts there
-- have been and no older than any poll that was applied before the call started.
def Honest (inner : Inner ρ κ δ ε) (s : State ρ κ δ ε) : Prop :=
  ∀ p ∈ s.procs, ∀ basis, p.phase = .returned basis → basis.verdict = none →
    basis.facts ∈ s.store.history ∧ inner.authorize basis.facts basis.now p.request = none ∧
      ∀ r ∈ p.since, r ≤ inner.revision basis.facts

theorem honest_of_holds {s : State ρ κ δ ε} (hkey : ∀ a b, regular a → regular b → inner.key a = inner.key b →
      ∀ facts now, inner.authorize facts now a = inner.authorize facts now b)
    (h : Holds (Coherent inner regular) (Own inner regular) s) : Honest inner s := by
  intro p hp basis hphase hnil
  obtain ⟨hr, -, hs⟩ := h.procs p hp
  simp only [hphase] at hs
  refine ⟨hs.sound.known, ?_, hs.recent⟩
  rw [← hkey basis.request p.request hs.sound.regular hr hs.key]
  exact hs.sound.verdict hnil

end Events

section Run

variable {ρ κ δ ε : Type} [DecidableEq κ] {inner : Inner ρ κ δ ε} {regular : ρ → Prop} {config : Config}
  {s next : State ρ κ δ ε}

theorem step_coherent (h : Holds (Coherent inner regular) (Own inner regular) s)
    (hg : Guard inner regular s label) (hs : step inner config s label = some next) :
    Holds (Coherent inner regular) (Own inner regular) next := by
  cases label with
  | start request =>
    rw [step_start_eq_some hs]
    exact ⟨h.store, forall_mem_append_singleton h.procs ⟨hg, h.store.observed, trivial⟩⟩
  | move i input =>
    obtain ⟨p, store, moved, hp, hm, rfl⟩ := step_move_eq_some hs
    obtain ⟨hinv, hown, he⟩ := move_coherent h.store (h.procs p (mem_of_getElem? hp)) hg hm
    exact ⟨hinv, forall_mem_set (fun q hq => (h.procs q hq).extend he) hown⟩
  | event e =>
    obtain ⟨store, hevent, rfl⟩ := step_event_eq_some hs
    exact event_coherent h hg hevent

theorem honest_along (hkey : ∀ a b, regular a → regular b → inner.key a = inner.key b →
      ∀ facts now, inner.authorize facts now a = inner.authorize facts now b) (facts : δ) (labels : List (Label ρ δ ε))
    (ha : Along (step inner config) (Guard inner regular) (init facts) labels) :
    Always (step inner config) (Honest inner) (init facts) labels := by
  have hi : Holds (Coherent inner regular) (Own inner regular) (init facts) :=
    ⟨⟨by simp [init], by simp [init], by simp [init], by simp [init], by simp [init], by simp [init],
      by simp [init]⟩, by simp [init]⟩
  have hinv := always_of_invariant (fun _ _ _ => step_coherent) _ labels hi ha
  exact hinv.mono fun _ h => honest_of_holds hkey h

end Run

end TunnelMesh.Authorization.Cache
