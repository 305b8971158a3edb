import Mathlib.Data.List.Rotate

namespace TunnelMesh.RoundRobin

open Function

variable {ι φ : Type}

-- An item comes in or goes out, urgent ones without a channel of their own.
inductive Event (ι φ : Type) where
  | accepted (channel : Option ι) (item : φ)
  | served (channel : Option ι) (item : φ)
  deriving DecidableEq

section History

variable [DecidableEq ι] (channel : Option ι)

def Event.acceptedOn : Event ι φ → Option φ
  | .accepted c item => if c = channel then some item else none
  | .served _ _ => none

def Event.servedOn : Event ι φ → Option φ
  | .accepted _ _ => none
  | .served c item => if c = channel then some item else none

variable (history : List (Event ι φ))

def accepted : List φ := history.filterMap (Event.acceptedOn channel)

def served : List φ := history.filterMap (Event.servedOn channel)

def Pending (i : ι) (history : List (Event ι φ)) : Prop :=
  (served (some i) history).length < (accepted (some i) history).length
  deriving Decidable

def UrgentFirst : Prop :=
  ∀ before i item after, history = before ++ .served (some i) item :: after → served none before = accepted none before

-- A channel that has something waiting from one turn of another channel up to the
-- next turn of that channel gets a turn of its own between the two.
def Fair : Prop :=
  ∀ before a first since second after,
    history = before ++ .served (some a) first :: since ++ .served (some a) second :: after →
      (∀ item, .served (some a) item ∉ since) →
        ∀ b, b ≠ a → (∀ part ∈ since.inits, Pending b (before ++ .served (some a) first :: part)) →
          ∃ item, .served (some b) item ∈ since

end History

structure Schedule (ι φ : Type) where
  urgent : List φ
  rotation : List ι
  queue : ι → List φ

def Schedule.waiting (s : Schedule ι φ) : Option ι → List φ
  | none => s.urgent
  | some i => s.queue i

-- What a scheduler may do. It is free in where it puts a channel that it enters,
-- and it may change the order of turns when it takes or refuses an item.
inductive Step [DecidableEq ι] (s : Schedule ι φ) : List (Event ι φ) → Schedule ι φ → Prop where
  | urgent (item : φ) : Step s [.accepted none item] { s with urgent := s.urgent ++ [item] }
  | queued {rotation : List ι} (i : ι) (item : φ) (hnodup : rotation.Nodup)
      (hmem : ∀ j, j ∈ rotation ↔ j = i ∨ j ∈ s.rotation) :
      Step s [.accepted (some i) item] ⟨s.urgent, rotation, update s.queue i (s.queue i ++ [item])⟩
  | refused {rotation : List ι} (hnodup : rotation.Nodup) (hmem : ∀ j, j ∈ rotation ↔ j ∈ s.rotation) :
      Step s [] { s with rotation }
  | servedUrgent {rest : List φ} (item : φ) (hurgent : s.urgent = item :: rest) :
      Step s [.served none item] { s with urgent := rest }
  | served {idle rest : List ι} {more : List φ} (i : ι) (item : φ) (hurgent : s.urgent = [])
      (hrotation : s.rotation = idle ++ i :: rest) (hidle : ∀ j ∈ idle, s.queue j = [])
      (hqueue : s.queue i = item :: more) :
      Step s [.served (some i) item] ⟨[], rest ++ [i], update s.queue i more⟩
  | drained (hurgent : s.urgent = []) (hqueue : ∀ j, s.queue j = []) : Step s [] ⟨[], [], s.queue⟩

def Orderly (s s' : Schedule ι φ) : Prop :=
  ∀ a b, s.queue b ≠ [] → [b, a].Sublist s.rotation → [b, a].Sublist s'.rotation

open Schedule Option List

variable {ι φ : Type} [DecidableEq ι]

section History

variable {channel : Option ι} {history more : List (Event ι φ)} {item : φ}

theorem accepted_append : accepted channel (history ++ more) = accepted channel history ++ accepted channel more :=
  filterMap_append

theorem served_append : served channel (history ++ more) = served channel history ++ served channel more :=
  filterMap_append

variable (c : Option ι)

theorem accepted_accepted : accepted channel [Event.accepted c item] = if c = channel then [item] else [] := by
  by_cases hc : c = channel <;> simp [accepted, Event.acceptedOn, hc]

theorem accepted_served : accepted channel [Event.served c item] = [] := rfl

theorem served_accepted : served channel [Event.accepted c item] = [] := rfl

theorem served_served : served channel [Event.served c item] = if c = channel then [item] else [] := by
  by_cases hc : c = channel <;> simp [served, Event.servedOn, hc]

theorem mem_accepted : item ∈ accepted channel history ↔ .accepted channel item ∈ history := by
  unfold accepted
  rw [mem_filterMap]
  constructor
  · rintro ⟨event, he, hi⟩
    cases event with
    | accepted c other =>
      obtain ⟨rfl, rfl⟩ : c = channel ∧ other = item := by
        simpa only [Event.acceptedOn, ite_none_right_eq_some, some.injEq] using hi
      exact he
    | served c other => cases hi
  · exact fun he => ⟨_, he, if_pos rfl⟩

theorem mem_served : item ∈ served channel history ↔ .served channel item ∈ history := by
  unfold served
  rw [mem_filterMap]
  constructor
  · rintro ⟨event, he, hi⟩
    cases event with
    | accepted c other => cases hi
    | served c other =>
      obtain ⟨rfl, rfl⟩ : c = channel ∧ other = item := by
        simpa only [Event.servedOn, ite_none_right_eq_some, some.injEq] using hi
      exact he
  · exact fun he => ⟨_, he, if_pos rfl⟩

end History

-- What has come in is out or waits, in its order. Channels with something waiting
-- are in the rotation.
structure Sound (s : Schedule ι φ) (history : List (Event ι φ)) : Prop where
  nodup : s.rotation.Nodup
  listed : ∀ i, s.queue i ≠ [] → i ∈ s.rotation
  fifo : ∀ channel, served channel history ++ s.waiting channel = accepted channel history
  first : UrgentFirst history

section Sound

variable {s s' : Schedule ι φ} {history events : List (Event ι φ)}

theorem append_singleton_split {α : Type} {history before after : List α} {last e : α}
    (h : history ++ [last] = before ++ e :: after) :
    (after = [] ∧ before = history ∧ e = last) ∨ ∃ rest, after = rest ++ [last] ∧ history = before ++ e :: rest := by
  rcases eq_nil_or_concat' after with rfl | ⟨rest, final, rfl⟩
  · obtain ⟨hb, hl⟩ := append_inj' h rfl; exact .inl ⟨rfl, hb.symm, (cons.inj hl).1.symm⟩
  have ha : history ++ [last] = (before ++ e :: rest) ++ [final] := by
    rw [h, append_assoc, cons_append]
  obtain ⟨hh, hl⟩ := append_inj' ha rfl
  exact .inr ⟨rest, by rw [(cons.inj hl).1], hh⟩

theorem UrgentFirst.append {e : Event ι φ} (h : UrgentFirst history)
    (hl : ∀ i item, e = .served (some i) item → served none history = accepted none history) :
    UrgentFirst (history ++ [e]) := by
  intro before i item after hs
  rcases append_singleton_split hs with ⟨-, rfl, rfl⟩ | ⟨rest, -, hb⟩
  · exact hl i item rfl
  · exact h before i item rest hb

theorem Step.sound (hstep : Step s events s') (h : Sound s history) : Sound s' (history ++ events) := by
  cases hstep with
  | urgent item =>
    refine ⟨h.nodup, h.listed, fun channel => ?_, h.first.append nofun⟩
    rw [served_append, accepted_append, served_accepted, accepted_accepted, ← h.fifo channel]
    cases channel with
    | none | some => simp [waiting]
  | @queued rotation i item hn hmem =>
    refine ⟨hn, fun j hj => ?_, fun channel => ?_, h.first.append nofun⟩
    · by_cases hs : j = i
      · exact (hmem j).mpr (.inl hs)
      · have hb : s.queue j ≠ [] := by
          rw [← update_of_ne hs (s.queue i ++ [item]) s.queue]
          exact hj
        exact (hmem j).mpr (.inr (h.listed j hb))
    · rw [served_append, accepted_append, served_accepted, accepted_accepted, ← h.fifo channel]
      cases channel with
      | none => simp [waiting]
      | some j =>
        by_cases hs : j = i
        · subst hs; simp [waiting]
        · simp [waiting, update_of_ne hs, Ne.symm hs]
  | @refused rotation hn hmem =>
    rw [append_nil]
    exact ⟨hn, fun j hj => (hmem j).mpr (h.listed j hj), h.fifo, h.first⟩
  | @servedUrgent rest item hu =>
    refine ⟨h.nodup, h.listed, fun channel => ?_, h.first.append nofun⟩
    rw [served_append, accepted_append, accepted_served, served_served, ← h.fifo channel]
    cases channel with
    | none => simp [waiting, hu]
    | some i => simp [waiting]
  | @served idle rest more i item hu hr hi hq =>
    have hn : (idle ++ i :: rest).Nodup := hr ▸ h.nodup
    refine ⟨?_, fun j hj => ?_, fun channel => ?_, h.first.append fun _ _ _ => ?_⟩
    · have ht : (i :: rest).Nodup := (nodup_append.mp hn).2.1
      exact (perm_append_singleton i rest).nodup_iff.mpr ht
    · by_cases hs : j = i
      · exact mem_append_right rest (mem_singleton.mpr hs)
      · have hb : s.queue j ≠ [] := by rw [← update_of_ne hs more s.queue]; exact hj
        have hl := h.listed j hb
        rw [hr] at hl
        rcases mem_append.mp hl with hmem | hmem
        · exact absurd (hi j hmem) hb
        · exact mem_append_left [i] ((mem_cons.mp hmem).resolve_left hs)
    · rw [served_append, accepted_append, accepted_served, served_served, ← h.fifo channel]
      cases channel with
      | none => simp [waiting, hu]
      | some j =>
        by_cases hs : j = i
        · subst hs; simp [waiting, hq]
        · simp [waiting, update_of_ne hs, Ne.symm hs]
    · have hnone := h.fifo none
      rw [waiting, hu, append_nil] at hnone
      exact hnone
  | drained hu hq =>
    rw [append_nil]
    refine ⟨nodup_nil, fun j hj => absurd (hq j) hj, fun channel => ?_, h.first⟩
    rw [← h.fifo channel]
    cases channel with
    | none => rw [waiting, waiting, hu]
    | some i => rfl

theorem Sound.pending_iff (h : Sound s history) (i : ι) : Pending i history ↔ s.queue i ≠ [] := by
  have hl := congrArg List.length (h.fifo (some i))
  rw [length_append, waiting] at hl
  rw [Pending, ← length_pos_iff]
  omega

end Sound

-- Channel `b` has had something waiting since the last turn of `a`, and no turn.
def Waits (history : List (Event ι φ)) (a b : ι) : Prop :=
  ∃ before item since, history = before ++ .served (some a) item :: since ∧ (∀ other, .served (some b) other ∉ since) ∧
      ∀ part ∈ since.inits, Pending b (before ++ .served (some a) item :: part)

structure Ordered (s : Schedule ι φ) (history : List (Event ι φ)) : Prop where
  ahead : ∀ a b, b ≠ a → Waits history a b → [b, a].Sublist s.rotation
  fair : Fair history

section Ordered

variable {s s' : Schedule ι φ} {history events : List (Event ι φ)}

theorem Waits.pending {a b : ι} (h : Waits history a b) : Pending b history := by
  obtain ⟨before, item, since, rfl, -, hp⟩ := h
  exact hp since ((mem_inits _ _).mpr prefix_rfl)

theorem Waits.of_append {a b : ι} {e : Event ι φ} (h : Waits (history ++ [e]) a b) :
    (∃ item, e = .served (some a) item) ∨ (Waits history a b ∧ ∀ item, e ≠ .served (some b) item) := by
  obtain ⟨before, item, since, hs, hn, hp⟩ := h
  rcases append_singleton_split hs with ⟨-, -, hl⟩ | ⟨rest, rfl, hb⟩
  · exact .inl ⟨item, hl.symm⟩
  refine .inr ⟨⟨before, item, rest, hb, fun other hmem => ?_, fun part hpart => ?_⟩, fun other he => ?_⟩
  · exact hn other (mem_append_left [e] hmem)
  · apply hp part
    exact (mem_inits _ _).mpr (((mem_inits _ _).mp hpart).trans (prefix_append rest [e]))
  · exact hn other (mem_append_right rest (mem_singleton.mpr he.symm))

theorem Fair.append {e : Event ι φ} (h : Fair history)
    (hl : ∀ a item, e = .served (some a) item → ∀ b, b ≠ a → ¬Waits history a b) : Fair (history ++ [e]) := by
  intro before a first since second after hsplit hs b hb hp
  rcases append_singleton_split hsplit with ⟨-, rfl, rfl⟩ | ⟨rest, -, hbefore⟩
  · by_contra hn
    apply hl a second rfl b hb
    exact ⟨before, first, since, rfl, fun item hmem => hn ⟨item, hmem⟩, hp⟩
  · exact h before a first since second rest hbefore hs b hb hp

theorem sublist_right_of_not_mem {α : Type} {a b : α} (front : List α) {back : List α}
    (h : [b, a].Sublist (front ++ back)) (hb : b ∉ front) : [b, a].Sublist back := by
  induction front with
  | nil => exact h
  | cons head tail ih =>
    have hne : b ≠ head := fun hs => hb (hs ▸ mem_cons_self)
    cases h with
    | cons _ hr => exact ih hr fun hmem => hb (mem_cons_of_mem head hmem)
    | cons_cons _ _ => exact absurd rfl hne

theorem Step.ordered (hstep : Step s events s') (hs : Sound s history) (h : Ordered s history)
    (ho : (∀ i item, events ≠ [.served (some i) item]) → Orderly s s') : Ordered s' (history ++ events) := by
  have hk (e : Event ι φ) (hevents : events = [e]) (hq : ∀ i item, e ≠ .served (some i) item) :
      Ordered s' (history ++ events) := by
    subst hevents
    refine ⟨fun a b hb hw => ?_, h.fair.append fun a item he => absurd he (hq a item)⟩
    rcases hw.of_append with ⟨item, he⟩ | ⟨hbefore, -⟩
    · exact absurd he (hq a item)
    · have hbusy : s.queue b ≠ [] := (hs.pending_iff b).mp hbefore.pending
      exact ho (fun i item he => hq i item (cons.inj he).1) a b hbusy (h.ahead a b hb hbefore)
  have hsilent (hevents : events = []) : Ordered s' (history ++ events) := by
    subst hevents
    rw [append_nil]
    refine ⟨fun a b hb hw => ?_, h.fair⟩
    have hbusy : s.queue b ≠ [] := (hs.pending_iff b).mp hw.pending
    exact ho nofun a b hbusy (h.ahead a b hb hw)
  cases hstep with
  | urgent | queued | servedUrgent => exact hk _ rfl nofun
  | refused | drained => exact hsilent rfl
  | @served idle rest more i item hu hr hi hqueue =>
    have hnodup : (idle ++ i :: rest).Nodup := hr ▸ hs.nodup
    -- whoever waits has something queued, so it is not among the idle ones
    have ha (a b : ι) (hb : b ≠ a) (hw : Waits history a b) : [b, a].Sublist (i :: rest) := by
      have hbusy : s.queue b ≠ [] := (hs.pending_iff b).mp hw.pending
      have hahead := h.ahead a b hb hw
      rw [hr] at hahead
      exact sublist_right_of_not_mem idle hahead fun hmem => hbusy (hi b hmem)
    refine ⟨fun a b hb hw => ?_, h.fair.append fun a item' he b hb hw => ?_⟩
    · rcases hw.of_append with ⟨item', he⟩ | ⟨hbefore, hother⟩
      · -- the wait begins with this turn, which puts the channel at the back
        obtain rfl : i = a := some.inj (Event.served.inj he).1
        have hp := hw.pending
        have hn := (Step.served i item hu hr hi hqueue).sound hs
        have hl := hn.listed b ((hn.pending_iff b).mp hp)
        have hrest : b ∈ rest :=
          (mem_append.mp hl).resolve_right fun hmem => hb (mem_singleton.mp hmem)
        exact (singleton_sublist.mpr hrest).append (List.Sublist.refl [i])
      · have hne : b ≠ i := fun hsame => hother item (hsame ▸ rfl)
        have ht : [b, a].Sublist rest :=
          sublist_right_of_not_mem [i] (ha a b hb hbefore) fun hmem => hne (mem_singleton.mp hmem)
        exact ht.trans (sublist_append_left rest [i])
    · obtain rfl : i = a := some.inj (Event.served.inj he).1
      have ht : [b, i].Sublist rest :=
        sublist_right_of_not_mem [i] (ha i b hb hw) fun hmem => hb (mem_singleton.mp hmem)
      have hmem : i ∈ rest := ht.subset (mem_cons_of_mem b (mem_singleton_self i))
      exact (nodup_cons.mp (nodup_append.mp hnodup).2.1).1 hmem

end Ordered

variable {α : Type}

-- A list with a cursor stands for a rotation that starts at the cursor.
section Cursor

variable {order : List α}

theorem rotate_eq_append (hc : cursor ≤ order.length) :
    order.rotate cursor = order.drop cursor ++ order.take cursor := rotate_eq_drop_append_take hc

theorem rotate_succ {head : α} (h : order.rotate cursor = head :: rest) :
    order.rotate ((cursor % order.length + 1) % order.length) = rest ++ [head] := by
  rw [rotate_mod, ← rotate_rotate, rotate_mod, h, rotate_cons_succ, rotate_zero]

theorem getElem?_cursor {head : α} (h : order.rotate cursor = head :: rest) :
    order[cursor % order.length]? = some head := by
  have hl : 0 < order.length := by
    have hr := congrArg List.length h
    rw [length_rotate, length_cons] at hr
    omega
  have hf : (order.rotate cursor)[0]? = some head := by rw [h]; rfl
  rw [List.getElem?_rotate hl, Nat.zero_add] at hf
  exact hf

variable [DecidableEq α]

theorem rotate_erase (hn : order.Nodup) (hc : cursor ≤ order.length) (hx : x ∈ order) :
    (order.erase x).rotate (if order.idxOf x < cursor then cursor - 1 else cursor) = (order.rotate cursor).erase x := by
  rw [rotate_eq_append hc]
  obtain ⟨front, back, rfl, rfl⟩ : ∃ front back, order = front ++ back ∧ front.length = cursor :=
    ⟨order.take cursor, order.drop cursor, (take_append_drop cursor order).symm, by simp [hc]⟩
  rw [drop_left, take_left]
  have ha := disjoint_of_nodup_append hn
  by_cases hf : x ∈ front
  · have hb : x ∉ back := fun hmem => ha hf hmem
    have hi : (front ++ back).idxOf x < front.length := by
      rw [idxOf_append_of_mem hf]
      exact idxOf_lt_length_of_mem hf
    rw [if_pos hi, erase_append_left back hf, erase_append_right front hb,
      ← length_erase_of_mem hf, rotate_append_length_eq]
  · have hb : x ∈ back := (mem_append.mp hx).resolve_left hf
    have hi : ¬(front ++ back).idxOf x < front.length := by rw [idxOf_append_of_notMem hf]; omega
    rw [if_neg hi, erase_append_right back hf, erase_append_left front hb, rotate_append_length_eq]

end Cursor

end TunnelMesh.RoundRobin
