import TunnelMesh.Storage.Listing

namespace TunnelMesh.Storage

open Paging List Prod.Lex

namespace Base64

variable {b : Base64} {id : String}

theorem decode_encodeCursor (h : id ≠ "") : b.decodeCursor (b.encodeCursor id) = id := by
  have hne : b.encode id ≠ "" := by
    intro he
    have hd := b.decode_encode id
    rw [he, ← b.encode_empty, b.decode_encode] at hd
    exact h (Option.some.inj hd).symm
  rw [decodeCursor, encodeCursor, if_neg h, if_neg hne, b.decode_encode, Option.getD_some]

-- A separator is always in the payload, so a composite cursor always decodes, and
-- to its own parts unless the value has a separator too.
theorem decode_composite (spec : SortSpec) (sortValue : String) (hid : id ≠ "") (hs : spec.column ≠ .id) (hc : spec.composite) :
    ∃ last, b.decodeCompositeCursor (b.nextCursor spec sortValue id) = some last ∧
      ('\x00' ∉ sortValue.toList → last = (sortValue, id)) := by
  have hne : sortValue ++ "\x00" ++ id ≠ "" := fun he => by simpa using congrArg String.toList he
  rw [nextCursor, if_neg (by simp [hs, hc]), if_neg hid, decodeCompositeCursor, decode_encodeCursor hne, if_neg hne, cut]
  simp only [String.toList_append, append_assoc]
  by_cases h : '\x00' ∈ sortValue.toList
  · split
    · rename_i he
      have := dropWhile_eq_nil_iff.mp he '\x00' (mem_append_left _ h)
      simp at this
    · exact ⟨_, rfl, fun hn => absurd h hn⟩
  · have hk : ∀ c ∈ sortValue.toList, decide (c ≠ '\x00') = true := by
      intro c hm
      exact decide_eq_true fun he => h (he ▸ hm)
    rw [dropWhile_append_of_pos hk, takeWhile_append_of_pos hk]
    exact ⟨(sortValue, id), by simp, fun _ => rfl⟩

end Base64

-- What comes first in the order of a list.
def SortSpec.precedes (spec : SortSpec) [LT α] (a b : α) : Prop := if spec.descending then b < a else a < b

theorem SortSpec.precedes_trans [Preorder α] {spec : SortSpec} {a b c : α} (hab : spec.precedes a b)
    (hbc : spec.precedes b c) : spec.precedes a c := by
  unfold precedes at *
  cases hd : spec.descending <;> simp only [hd, Bool.false_eq_true, if_false, if_true] at *
  · exact hab.trans hbc
  · exact hbc.trans hab

namespace Listing

variable {l : Listing} {κ : Type} [LinearOrder κ] {collate : String → κ} {b : Base64} {spec : SortSpec}

abbrev Before (l : Listing) (collate : String → κ) (spec : SortSpec) (a b : Row) : Prop :=
  spec.precedes (l.sortKey collate spec.column a) (l.sortKey collate spec.column b)

instance : Std.Asymm (l.Before collate spec) where
  asymm a b h := by
    unfold Before SortSpec.precedes at h ⊢
    cases hd : spec.descending <;> simp only [hd, Bool.false_eq_true, if_false, if_true] at h ⊢ <;> exact h.asymm

def Visible (l : Listing) (column : Column) (row : Row) : Prop := column = .id ∨ (l.stored row column).isSome

def Carries (l : Listing) (column : Column) (row : Row) : Prop :=
  column = .id ∨ l.stored row column = some (l.cursorValue column row)

def cursorKey (collate : String → κ) (column : Column) (sortValue id : String) : WithBot κ ×ₗ κ :=
  toLex (if column = .id then ⊥ else collate sortValue, collate id)

omit [LinearOrder κ] in
theorem Carries.cursorKey_eq (h : l.Carries spec.column last) :
    cursorKey collate spec.column (l.cursorValue spec.column last) last.id = l.sortKey collate spec.column last := by
  unfold cursorKey sortKey
  rcases h with h | h
  · rw [if_pos h, if_pos h]
  · rw [h]; rfl

theorem cursorCondition_iff (hs : spec.composite = decide (spec.column ≠ .id)) {sortValue id : String} :
    l.cursorCondition collate spec sortValue id row ↔ l.Visible spec.column row ∧
      spec.precedes (cursorKey collate spec.column sortValue id) (l.sortKey collate spec.column row) := by
  unfold cursorCondition cursorKey sortKey Visible SortSpec.precedes
  by_cases hid : spec.column = .id
  · cases hd : spec.descending <;> simp [hid, lt_iff]
  · cases l.stored row spec.column with
    | none => simp [hid, hs]
    | some text => cases hd : spec.descending <;> simp [hid, hs, lt_iff, eq_comm (a := collate text)]

theorem seek_cursor (b : Base64) (spec : SortSpec) (hs : spec.composite = decide (spec.column ≠ .id)) (collate : String → κ)
    (l : Listing) (last : Row) : ∃ sortValue id, ('\x00' ∉ (l.cursorValue spec.column last).toList →
        sortValue = l.cursorValue spec.column last ∧ id = last.id) ∧
      ∀ row, l.seek collate b spec (l.cursor b spec last) row ↔ l.Visible spec.column row ∧
        spec.precedes (cursorKey collate spec.column sortValue id) (l.sortKey collate spec.column row) := by
  by_cases hid : spec.column = .id
  · have hn : l.cursor b spec last = b.encodeCursor last.id := if_pos (.inl hid)
    refine ⟨l.cursorValue spec.column last, last.id, fun _ => ⟨rfl, rfl⟩, fun row => ?_⟩
    rw [seek, if_pos hid, hn, Base64.decode_encodeCursor last.named, if_neg last.named, cursorCondition_iff hs]
    simp only [cursorKey, if_pos hid]
  · obtain ⟨⟨sortValue, id⟩, hd, hp⟩ := b.decode_composite spec (l.cursorValue spec.column last) last.named hid
      (by simp [hs, hid])
    refine ⟨sortValue, id, fun hz => Prod.mk.inj (hp hz), fun row => ?_⟩
    rw [seek, if_neg hid, cursor, hd]
    exact cursorCondition_iff hs

theorem pageArgs_pos (limit : ℤ) : 0 < pageArgs limit := by
  unfold pageArgs
  split <;> omega

variable {rows : List Row} {filter : Row → Bool} {sort : Option SortSpec}

theorem list_eq_page (hs : sort.getD l.initial = spec) (at_ : String) :
    l.list collate b rows filter sort limit at_ = page (l.cursor b spec) "" (pageArgs limit)
      (l.orderBy collate spec ((rows.filter filter).filter (l.seek collate b spec at_))) := by
  simp only [list, hs, filter_filter, Bool.and_comm]
  generalize l.orderBy collate spec _ = out
  rw [page, take_take, Nat.min_eq_left (Nat.le_succ _), length_take]
  split
  · rw [if_pos (by omega)]
  · rw [if_neg (by omega), take_of_length_le (by omega)]

section Order

variable (hids : (rows.map fun row => collate row.id).Nodup)

include hids

omit [LinearOrder κ] in
theorem nodup_sortKey (l : Listing) (spec : SortSpec) : (rows.map (l.sortKey collate spec.column)).Nodup := by
  refine List.Nodup.of_map (fun key => (ofLex key).2) ?_
  rw [map_map]
  exact hids

theorem orderBy_filter (p : Row → Bool) :
    l.orderBy collate spec (rows.filter p) = (l.orderBy collate spec rows).filter p := by
  have hk := nodup_sortKey hids l spec
  unfold orderBy
  split
  · exact ordered_filter (by rw [← map_map]; exact hk.map OrderDual.toDual.injective) p
  · exact ordered_filter hk p

theorem pairwise_orderBy (l : Listing) (spec : SortSpec) :
    (l.orderBy collate spec rows).Pairwise (l.Before collate spec) := by
  have hk := nodup_sortKey hids l spec
  unfold orderBy Before SortSpec.precedes
  split
  · exact pairwise_ordered (by rw [← map_map]; exact hk.map OrderDual.toDual.injective)
  · exact pairwise_ordered hk

end Order

theorem perm_orderBy : (l.orderBy collate spec rows).Perm rows := by
  unfold orderBy
  split <;> exact perm_ordered _

theorem length_orderBy : (l.orderBy collate spec rows).length = rows.length := perm_orderBy.length_eq

theorem mem_orderBy : row ∈ l.orderBy collate spec rows ↔ row ∈ rows := perm_orderBy.mem_iff

-- At the end of every page but the last, the condition of the cursor is true of
-- the rows behind the page and of no others.
def Cuts (l : Listing) (collate : String → κ) (b : Base64) (spec : SortSpec) (limit : ℤ) (rows : List Row) : Prop :=
  ∀ k last, pageArgs limit ∣ k + 1 → (l.orderBy collate spec rows)[k]? = some last → k + 1 < rows.length →
    (l.orderBy collate spec rows).filter (l.seek collate b spec (l.cursor b spec last)) =
      (l.orderBy collate spec rows).drop (k + 1)

section Walk

variable (hspec : sort.getD l.initial = spec) (hcomp : spec.composite = decide (spec.column ≠ .id))
  (hids : ((rows.filter filter).map fun row => collate row.id).Nodup)

include hspec in
theorem list_first : l.list collate b rows filter sort limit "" = page (l.cursor b spec) "" (pageArgs limit)
    (l.orderBy collate spec (rows.filter filter)) := by
  have hall : l.seek collate b spec "" = fun _ => true := by unfold seek; split <;> rfl
  rw [list_eq_page hspec, hall, filter_true]

include hspec hcomp hids

theorem seeks_list : Seeks (l.Before collate spec) (l.list collate b rows filter sort limit) (l.cursor b spec) ""
    (pageArgs limit) (l.orderBy collate spec (rows.filter filter)) (l.Visible spec.column)
    (fun last => l.seek collate b spec (l.cursor b spec last)) where
  pairwise := pairwise_orderBy hids l spec
  reached last row h := by
    obtain ⟨sortValue, id, -, hseek⟩ := seek_cursor b spec hcomp collate l last
    exact ((hseek row).mp h).1
  closed last a c ha hac hc := by
    obtain ⟨sortValue, id, -, hseek⟩ := seek_cursor b spec hcomp collate l last
    exact (hseek c).mpr ⟨hc, SortSpec.precedes_trans ((hseek a).mp ha).2 hac⟩
  list_cursor last := by rw [list_eq_page hspec, orderBy_filter hids]

theorem list_iff : follow (l.list collate b rows filter sort limit) (rows.length + 1) "" =
    some (l.orderBy collate spec (rows.filter filter)) ↔ l.Cuts collate b spec limit (rows.filter filter) := by
  rw [(seeks_list hspec hcomp hids).follow_iff (pageArgs_pos limit) (nil_append _).symm (list_first hspec)
    (by rw [length_orderBy]; exact Nat.lt_succ_of_le (length_filter_le ..)), length_orderBy]
  rfl

-- No row behind the first page is listed but through a cursor.
theorem visible_behind (h : follow (l.list collate b rows filter sort limit) (rows.length + 1) "" = some out)
    (hp : out.Perm (rows.filter filter)) (hrow : row ∈ (l.orderBy collate spec (rows.filter filter)).drop (pageArgs limit)) :
    l.Visible spec.column row := by
  have hlimit := pageArgs_pos limit
  have hm : pageArgs limit < (l.orderBy collate spec (rows.filter filter)).length := by
    have := length_pos_of_mem hrow
    rw [length_drop] at this
    omega
  rw [follow_succ (list_first hspec) (getElem?_eq_getElem (i := pageArgs limit - 1) (by omega)) (by omega) hm,
    Option.map_eq_some_iff] at h
  obtain ⟨behind, hb, rfl⟩ := h
  have hperm : behind.Perm ((l.orderBy collate spec (rows.filter filter)).drop (pageArgs limit)) := by
    rw [← perm_append_left_iff, take_append_drop]
    exact hp.trans perm_orderBy.symm
  exact (seeks_list hspec hcomp hids).visible_of_follow hlimit hb (hperm.mem_iff.mpr hrow)

end Walk

theorem filter_eq_drop {p : Row → Bool} (ht : ∀ row ∈ rows.take k, ¬ p row)
    (hd : ∀ row ∈ rows.drop k, p row) : rows.filter p = rows.drop k := by
  conv_lhs => rw [← take_append_drop k rows]
  rw [filter_append, filter_eq_nil_iff.mpr ht, filter_eq_self.mpr hd, nil_append]

theorem mem_take_succ (h : rows[k]? = some last) (hrow : row ∈ rows.take (k + 1)) :
    row ∈ rows.take k ∨ row = last := by
  rw [take_add_one, h] at hrow
  simpa using hrow

section Cuts

variable (hids : (rows.map fun row => collate row.id).Nodup)

include hids

-- The rows up to one and those behind it, in the order of the list.
theorem orderBy_split (hk : (l.orderBy collate spec rows)[k]? = some last) :
    (∀ row ∈ (l.orderBy collate spec rows).take (k + 1), ¬ l.Before collate spec last row) ∧
    ∀ row ∈ (l.orderBy collate spec rows).drop (k + 1), l.Before collate spec last row := by
  have hp := pairwise_orderBy hids l spec
  obtain ⟨hlt, rfl⟩ := List.getElem?_eq_some_iff.mp hk
  rw [← take_append_drop k (l.orderBy collate spec rows), drop_eq_getElem_cons hlt, pairwise_append] at hp
  refine ⟨fun row hrow => ?_, fun row => rel_of_pairwise_cons hp.2.1⟩
  rcases mem_take_succ hk hrow with hrow | rfl
  · exact asymm (r := l.Before collate spec) (hp.2.2 row hrow _ mem_cons_self)
  · exact irrefl (r := l.Before collate spec) _

theorem cut_of_carries (hcomp : spec.composite = decide (spec.column ≠ .id)) (hk : (l.orderBy collate spec rows)[k]? = some last)
    (hl : l.Carries spec.column last) (hz : '\x00' ∉ (l.cursorValue spec.column last).toList)
    (hv : ∀ row ∈ (l.orderBy collate spec rows).drop (k + 1), l.Visible spec.column row) :
    (l.orderBy collate spec rows).filter (l.seek collate b spec (l.cursor b spec last)) =
      (l.orderBy collate spec rows).drop (k + 1) := by
  obtain ⟨sortValue, id, hparts, hseek⟩ := seek_cursor b spec hcomp collate l last
  obtain ⟨rfl, rfl⟩ := hparts hz
  rw [hl.cursorKey_eq] at hseek
  obtain ⟨ht, hd⟩ := orderBy_split hids hk
  exact filter_eq_drop (fun row hrow hs => ht row hrow ((hseek row).mp hs).2)
    fun row hrow => (hseek row).mpr ⟨hv row hrow, hd row hrow⟩

theorem cuts_of_carries (hcomp : spec.composite = decide (spec.column ≠ .id))
    (hc : ∀ row ∈ rows, l.Carries spec.column row ∧ '\x00' ∉ (l.cursorValue spec.column row).toList) :
    l.Cuts collate b spec limit rows := by
  intro k last _ hk _
  obtain ⟨hl, hz⟩ := hc last (mem_orderBy.mp (mem_of_getElem? hk))
  refine cut_of_carries hids hcomp hk hl hz fun row hrow => ?_
  exact (hc row (mem_orderBy.mp (mem_of_mem_drop hrow))).1.imp_right Option.isSome_of_mem

theorem list_of_carries (hc : ∀ row ∈ rows, l.Carries column row ∧ '\x00' ∉ (l.cursorValue column row).toList) :
    follow (l.list collate b rows filter (some (listSort column descending)) limit) (rows.length + 1) "" =
      some (l.orderBy collate (listSort column descending) (rows.filter filter)) := by
  have hids' := hids.sublist ((filter_sublist (p := filter)).map _)
  exact (list_iff rfl rfl hids').mpr (cuts_of_carries hids' rfl fun row hrow => hc row (mem_of_mem_filter hrow))

end Cuts

end Listing

end TunnelMesh.Storage
