import Mathlib.Data.List.Sort

namespace TunnelMesh.Paging

open List

variable {ρ κ : Type} [LinearOrder κ] (key : ρ → κ)

def ordered (rows : List ρ) : List ρ := rows.insertionSort fun a b => key a ≤ key b

def after (rows : List ρ) (last : κ) : List ρ := ordered key (rows.filter fun row => last < key row)

section Ordered

theorem mem_ordered : row ∈ ordered key rows ↔ row ∈ rows :=
  mem_insertionSort _

theorem length_ordered : (ordered key rows).length = rows.length :=
  length_insertionSort _ rows

theorem perm_ordered : (ordered key rows).Perm rows := perm_insertionSort _ rows

variable {key}

theorem pairwise_ordered (hn : (rows.map key).Nodup) : (ordered key rows).Pairwise fun a b => key a < key b := by
  have hle : (ordered key rows).Pairwise fun a b => key a ≤ key b := by
    exact pairwise_insertionSort _ rows
  have hne : (ordered key rows).Pairwise fun a b => key a ≠ key b := by
    rw [← pairwise_map (R := fun a b => a ≠ b)]
    exact ((perm_ordered key).map key).nodup_iff.mpr hn
  exact (hle.and hne).imp fun h => lt_of_le_of_ne h.1 h.2

theorem ordered_filter (hn : (rows.map key).Nodup) (p : ρ → Bool) :
    ordered key (rows.filter p) = (ordered key rows).filter p := by
  have hn' : ((rows.filter p).map key).Nodup := hn.sublist (filter_sublist.map key)
  refine (pairwise_ordered hn').eq_of_mem_iff ((pairwise_ordered hn).filter p) fun row => ?_
  rw [mem_ordered, mem_filter, mem_filter, mem_ordered]

theorem after_eq (hn : (rows.map key).Nodup)
    (hs : ordered key rows = first ++ last :: rest) : after key rows (key last) = rest := by
  have hp := pairwise_ordered hn
  rw [hs, pairwise_append] at hp
  obtain ⟨-, ht, hc⟩ := hp
  have hf : first.filter (fun row => key last < key row) = [] :=
    filter_eq_nil_iff.mpr fun row hrow => by simpa using (hc row hrow last mem_cons_self).le
  have hr : rest.filter (fun row => key last < key row) = rest :=
    filter_eq_self.mpr fun row hrow => by simpa using rel_of_pairwise_cons ht hrow
  rw [after, ordered_filter hn, hs, filter_append, hf, filter_cons_of_neg (by simp), hr, nil_append]

end Ordered

structure Page (ρ γ : Type) where
  items : List ρ
  nextCursor : γ
  hasMore : Bool

variable {γ : Type}

def follow (list : γ → Page ρ γ) : ℕ → γ → Option (List ρ)
  | 0, _ => none
  | n + 1, c => if (list c).hasMore then (follow list n (list c).nextCursor).map ((list c).items ++ ·)
    else some (list c).items

def page (cursor : ρ → γ) (empty : γ) (limit : ℕ) (left : List ρ) : Page ρ γ :=
  if limit < left.length then ⟨left.take limit, (left.take limit).getLast?.elim empty cursor, true⟩
  else ⟨left, empty, false⟩

section Walk

variable {list : γ → Page ρ γ} {cursor : ρ → γ} {empty : γ}

theorem follow_succ (hc : list c = page cursor empty limit left)
    (hlast : left[k]? = some last) (hk : k + 1 = limit) (hm : limit < left.length) :
    follow list (n + 1) c = (follow list n (cursor last)).map (left.take limit ++ ·) := by
  have hl : (left.take limit).getLast? = some last := by
    rw [getLast?_eq_getElem?, length_take, Nat.min_eq_left hm.le, getElem?_take_of_lt (by omega), ← hlast, ← hk,
      Nat.add_sub_cancel]
  rw [follow, hc, page, if_pos hm, if_pos rfl, hl, Option.elim_some]

theorem follow_last (hc : list c = page cursor empty limit left) (hm : ¬ limit < left.length) :
    follow list (n + 1) c = some left := by simp [follow, hc, page, if_neg hm]

-- The rows that the query behind a cursor finds: of those that any cursor can
-- reach it finds all that follow one it finds.
structure Seeks (before : ρ → ρ → Prop) (list : γ → Page ρ γ) (cursor : ρ → γ) (empty : γ) (limit : ℕ) (sorted : List ρ)
    (visible : ρ → Prop) (sees : ρ → ρ → Bool) : Prop where
  pairwise : sorted.Pairwise before
  reached : ∀ last row, sees last row → visible row
  closed : ∀ last a b, sees last a → before a b → visible b → sees last b
  list_cursor : ∀ last, list (cursor last) = page cursor empty limit (sorted.filter (sees last))

namespace Seeks

variable {before : ρ → ρ → Prop} [Std.Asymm before] {sorted : List ρ} {visible : ρ → Prop} {sees : ρ → ρ → Bool}
  (s : Seeks before list cursor empty limit sorted visible sees) (hlimit : 0 < limit)

include s hlimit

omit [Std.Asymm before] in
theorem visible_of_follow (h : follow list n (cursor last) = some out) (hrow : row ∈ out) : visible row := by
  induction n generalizing last out with
  | zero => cases h
  | succ n ih =>
    have hfound {row} (hm : row ∈ sorted.filter (sees last)) : visible row := s.reached last row (mem_filter.mp hm).2
    by_cases hm : limit < (sorted.filter (sees last)).length
    · have hk : limit - 1 < (sorted.filter (sees last)).length := by omega
      rw [follow_succ (s.list_cursor last) (getElem?_eq_getElem hk) (by omega) hm, Option.map_eq_some_iff] at h
      obtain ⟨behind, hb, rfl⟩ := h
      exact (mem_append.mp hrow).elim (fun ht => hfound (mem_of_mem_take ht)) (ih hb)
    · rw [follow_last (s.list_cursor last) hm] at h
      exact hfound (Option.some.inj h ▸ hrow)

-- A walk that goes on with the first row of the rest finds the whole rest: what
-- it finds and the rest are the visible rows from that one on.
theorem filter_eq_of_follow (hs : sorted = first ++ rest)
    (h : follow list n (cursor last) = some rest) : sorted.filter (sees last) = rest := by
  have hvis : ∀ row ∈ rest, visible row := fun row => s.visible_of_follow hlimit h
  cases n with
  | zero => cases h
  | succ n =>
    by_cases hm : limit < (sorted.filter (sees last)).length
    · have hk : limit - 1 < (sorted.filter (sees last)).length := by omega
      rw [follow_succ (s.list_cursor last) (getElem?_eq_getElem hk) (by omega) hm, Option.map_eq_some_iff] at h
      obtain ⟨behind, -, hb⟩ := h
      have hp := s.pairwise
      rw [hs, pairwise_append] at hp
      have hfp : (sorted.filter (sees last)).Pairwise before := s.pairwise.filter _
      obtain ⟨head, tail, hf⟩ := exists_cons_of_length_pos (l := sorted.filter (sees last)) (by omega)
      obtain ⟨m, rfl⟩ := Nat.exists_eq_add_of_lt hlimit
      have hrest : rest = head :: (tail.take m ++ behind) := by rw [← hb, hf]; simp
      have hhead : sees last head := (mem_filter.mp (hf ▸ mem_cons_self : head ∈ sorted.filter (sees last))).2
      refine hfp.eq_of_mem_iff hp.2.1 fun row => ⟨fun hrow => ?_, fun hrow => ?_⟩
      · rcases mem_append.mp (hs ▸ mem_of_mem_filter hrow) with hfirst | hin
        · have hlt : before row head := hp.2.2 row hfirst head (hrest ▸ mem_cons_self)
          rw [hf] at hrow hfp
          rcases mem_cons.mp hrow with rfl | htail
          · exact absurd hlt (irrefl row)
          · exact absurd hlt (asymm (rel_of_pairwise_cons hfp htail))
        · exact hin
      · refine mem_filter.mpr ⟨hs ▸ mem_append_right _ hrow, ?_⟩
        have hpr := hp.2.1
        rw [hrest] at hrow hpr
        rcases mem_cons.mp hrow with rfl | htail
        · exact hhead
        · exact s.closed last head row hhead (rel_of_pairwise_cons hpr htail) (hvis row (hrest ▸ mem_cons_of_mem _ htail))
    · rw [follow_last (s.list_cursor last) hm] at h
      exact Option.some.inj h

-- By induction on the pages: a walk lists what is left exactly when at the end
-- of every page but the last the cursor finds the rows behind it and no others.
theorem follow_iff (hs : sorted = first ++ left) (hc : list c = page cursor empty limit left)
    (hn : left.length < n) : follow list n c = some left ↔ ∀ k last, limit ∣ k + 1 → left[k]? = some last →
      k + 1 < left.length → sorted.filter (sees last) = left.drop (k + 1) := by
  induction n generalizing first left c with
  | zero => cases hn
  | succ n ih =>
    by_cases hm : limit < left.length
    · obtain ⟨m, rfl⟩ := Nat.exists_eq_add_of_lt hlimit
      simp only [Nat.zero_add] at *
      have hlast : left[m]? = some left[m] := getElem?_eq_getElem (by omega)
      have hs' : sorted = (first ++ left.take (m + 1)) ++ left.drop (m + 1) := by
        rw [append_assoc, take_append_drop, hs]
      have hstep : follow list (n + 1) c = some left ↔ follow list n (cursor left[m]) = some (left.drop (m + 1)) := by
        rw [follow_succ hc hlast rfl hm, Option.map_eq_some_iff]
        constructor
        · rintro ⟨behind, hb, ha⟩
          rw [hb, append_cancel_left (ha.trans (take_append_drop (m + 1) left).symm)]
        · intro h; exact ⟨_, h, take_append_drop ..⟩
      have hnext (hf : sorted.filter (sees left[m]) = left.drop (m + 1)) :=
        ih hs' (hf ▸ s.list_cursor left[m]) (by rw [length_drop]; omega)
      rw [hstep]
      constructor
      · intro h k last hd hk hlt
        have hf := s.filter_eq_of_follow hlimit hs' h
        rcases Nat.lt_or_ge m k with hmk | hkm
        · obtain ⟨j, rfl⟩ := Nat.exists_eq_add_of_lt hmk
          have hd' : m + 1 ∣ j + 1 := (Nat.dvd_add_right (Nat.dvd_refl (m + 1))).mp
            (by rwa [show m + 1 + (j + 1) = m + j + 1 + 1 by omega])
          have := (hnext hf).mp h j last hd' (by rw [getElem?_drop]; convert hk using 2; omega)
            (by rw [length_drop]; omega)
          rw [this, drop_drop]
          congr 1
          omega
        · obtain rfl : k = m := by have := Nat.le_of_dvd (by omega) hd; omega
          obtain rfl : left[k] = last := Option.some.inj (hlast.symm.trans hk)
          exact hf
      · intro h
        refine (hnext (h m _ (Nat.dvd_refl _) hlast hm)).mpr fun k last hd hk hlt => ?_
        rw [length_drop] at hlt
        rw [h (m + 1 + k) last (by rw [Nat.add_assoc]; exact Nat.dvd_add (Nat.dvd_refl _) hd)
          (by rw [← hk, getElem?_drop]) (by omega), drop_drop]
        congr 1
    · rw [follow_last hc hm]
      refine ⟨fun _ k last hd _ hlt => ?_, fun _ => rfl⟩
      have := Nat.le_of_dvd (by omega) hd
      omega

end Seeks

end Walk

end TunnelMesh.Paging
