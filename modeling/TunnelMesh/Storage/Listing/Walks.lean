import TunnelMesh.Storage.Listing.Theorems

namespace TunnelMesh.Storage

open Paging Decimal List

theorem nul_not_mem_padded (width n : ℕ) : '\x00' ∉ padded width n := fun h =>
  absurd (padded_bounds width n _ h).1 (by decide)

theorem nul_not_mem_tm (t : ℕ) : '\x00' ∉ (tm t).toList := by
  by_cases h : t = 0
  · simp [h, tm]
  have hy year : '\x00' ∉ yearText year := by
    unfold yearText
    split
    · exact nul_not_mem_padded _ _
    · exact fun hm => absurd (Nat.isDigit_of_mem_toDigits (by decide) (by decide) hm) (by decide)
  have hf nanos : '\x00' ∉ fraction nanos := by
    rw [fraction_eq]
    split
    · exact not_mem_nil
    · have hsub : '\x00' ∉ trimmed (padded 9 nanos) := fun hm =>
        nul_not_mem_padded 9 nanos ((List.rdropWhile_prefix _ _).subset hm)
      simpa using hsub
  rw [toList_tm h]
  simp [stamp, hy, hf, nul_not_mem_padded]

namespace Listing

variable {κ : Type} [LinearOrder κ] (collate : String → κ)

theorem agents_listed (b : Base64) (rows : List Row) (filter : Row → Bool) (column : Column)
    (descending : Bool) (limit : ℤ) (hcolumn : column ∈ [.createdAt, .updatedAt, .id])
    (hids : (rows.map fun row => collate row.id).Nodup) :
    follow (agents.list collate b rows filter (some (listSort column descending)) limit) (rows.length + 1) "" =
      some (agents.orderBy collate (listSort column descending) (rows.filter filter)) ∧ ∀ t id, column ≠ .id → id ≠ "" →
      b.decodeCompositeCursor (b.nextCursor (listSort column descending) (tm t) id) = some (tm t, id) := by
  refine ⟨list_of_carries hids fun row _ => ?_, fun t id hc hid => ?_⟩
  · simp only [mem_cons, not_mem_nil, or_false] at hcolumn
    rcases hcolumn with rfl | rfl | rfl
    · exact ⟨.inr rfl, nul_not_mem_tm _⟩
    · exact ⟨.inr rfl, nul_not_mem_tm _⟩
    · exact ⟨.inl rfl, by simp [agents]⟩
  · obtain ⟨last, hd, hlast⟩ := b.decode_composite (listSort column descending) (tm t) hid hc (decide_eq_true hc)
    rw [hd, hlast (nul_not_mem_tm t)]

-- The cursors of the samples below, as `RawURLEncoding` writes them.
def sampleTexts : List (String × String) :=
  [("", ""), ("\x00a", "AGE"), ("0001-01-01T00:00:02Z\x00b", "MDAwMS0wMS0wMVQwMDowMDowMloAYg"),
    ("0001-01-01T00:00:00.000000002Z\x00b", "MDAwMS0wMS0wMVQwMDowMDowMC4wMDAwMDAwMDJaAGI"),
    ("0001-01-01T00:00:00.000000008Z\x00b", "MDAwMS0wMS0wMVQwMDowMDowMC4wMDAwMDAwMDhaAGI"),
    ("0001-01-01T00:00:00.000000009Z\x00a", "MDAwMS0wMS0wMVQwMDowMDowMC4wMDAwMDAwMDlaAGE")]

-- Any other text is marked with a point, which no encoded text has.
def sampleCodec : Base64 where
  encode text := ((sampleTexts.find? (·.1 = text)).map (·.2)).getD (String.ofList ('.' :: text.toList))
  decode cursor := match cursor.toList with
    | '.' :: text => some (String.ofList text)
    | _ => (sampleTexts.find? (·.2 = cursor)).map (·.1)
  encode_empty := by decide +kernel
  decode_encode text := by
    cases h : sampleTexts.find? (·.1 = text) with
    | none => simp
    | some pair =>
      have hall : ∀ pair ∈ sampleTexts, (match pair.2.toList with
        | '.' :: text => some (String.ofList text)
        | _ => (sampleTexts.find? (·.2 = pair.2)).map (·.1)) = some pair.1 := by decide +kernel
      obtain rfl : pair.1 = text := by simpa using find?_some h
      exact hall pair (mem_of_find?_eq_some h)

def sampleRow (id : String) (named : id ≠ "") (createdAt updatedAt : ℕ) : Row :=
  ⟨id, id, none, createdAt, updatedAt, none, none, named⟩

def sampleRows : List Row := [sampleRow "a" (by decide) 1 9, sampleRow "b" (by decide) 2 8]

theorem two_agents_listed :
    follow (agents.list String.toList sampleCodec sampleRows (fun _ => true) (some (listSort .createdAt true)) 1) 3 "" =
      some sampleRows.reverse := by
  have h := (agents_listed String.toList sampleCodec sampleRows (fun _ => true) .createdAt true 1 (by decide)
    (by decide +kernel)).1
  exact h.trans (by decide +kernel)

section Unseen

variable {collate}

theorem visible_lastSeenAt : serverNodes.Visible .lastSeenAt row ↔ row.lastSeenAt ≠ none := by
  simp [Visible, stored, Option.isSome_iff_ne_none]

-- Nodes that were never seen are first in the ascending order and last in the
-- descending one.
theorem unseen_precedes_iff (hl : last.lastSeenAt = none) (hr : row.lastSeenAt ≠ none) :
    (listSort .lastSeenAt descending).precedes (serverNodes.sortKey collate .lastSeenAt last)
      (serverNodes.sortKey collate .lastSeenAt row) ↔ descending = false := by
  obtain ⟨t, ht⟩ := Option.ne_none_iff_exists'.mp hr
  cases descending <;> simp [SortSpec.precedes, listSort, sortKey, stored, ht, hl, Prod.Lex.lt_iff]

theorem cuts_of_seen (hids : (rows.map fun row => collate row.id).Nodup)
    (hzero : ∀ row ∈ rows, row.lastSeenAt ≠ some 0) (hempty : ∀ t ≠ 0, collate "" < collate (tm t))
    (h : ∀ row ∈ (serverNodes.orderBy collate (listSort .lastSeenAt descending) rows).drop (pageArgs limit),
      row.lastSeenAt ≠ none) : serverNodes.Cuts collate b (listSort .lastSeenAt descending) limit rows := by
  intro k last hdvd hk hlt
  have hseen : ∀ row ∈ (serverNodes.orderBy collate (listSort .lastSeenAt descending) rows).drop (k + 1),
      row.lastSeenAt ≠ none := fun row hrow =>
    h row (drop_subset_drop_left _ (Nat.le_of_dvd (Nat.succ_pos k) hdvd) hrow)
  have hz : '\x00' ∉ (serverNodes.cursorValue .lastSeenAt last).toList := by
    cases hl : last.lastSeenAt <;> simp [serverNodes, hl, nul_not_mem_tm]
  by_cases hl : last.lastSeenAt = none
  · obtain ⟨ht, hd⟩ := orderBy_split hids hk
    obtain ⟨sortValue, id, hparts, hseek⟩ := seek_cursor b (listSort .lastSeenAt descending) rfl collate
      serverNodes last
    obtain ⟨rfl, rfl⟩ := hparts hz
    -- A node that was seen follows one that was not: the order ascends.
    have hnext : (serverNodes.orderBy collate (listSort .lastSeenAt descending) rows).drop (k + 1) ≠ [] := by
      rwa [ne_eq, drop_eq_nil_iff, length_orderBy, Nat.not_le]
    obtain ⟨next, hnext⟩ := exists_mem_of_ne_nil _ hnext
    have hasc : descending = false := (unseen_precedes_iff hl (hseen next hnext)).mp (hd next hnext)
    refine filter_eq_drop (fun row hrow hs => ?_) fun row hrow => (hseek row).mpr ⟨visible_lastSeenAt.mpr (hseen row hrow), ?_⟩
    · have hr := visible_lastSeenAt.mp ((hseek row).mp hs).1
      exact ht row hrow ((unseen_precedes_iff hl hr).mpr hasc)
    · obtain ⟨t, hr⟩ := Option.ne_none_iff_exists'.mp (hseen row hrow)
      have h0 : t ≠ 0 := fun h0 => hzero row (mem_orderBy.mp (mem_of_mem_drop hrow)) (h0 ▸ hr)
      simp [SortSpec.precedes, listSort, hasc, cursorKey, sortKey, stored, serverNodes, hr, hl, Prod.Lex.lt_iff, hempty t h0]
  · obtain ⟨t, ht⟩ := Option.ne_none_iff_exists'.mp hl
    exact cut_of_carries hids rfl hk (.inr (by simp [stored, serverNodes, listSort, ht])) hz
      fun row hrow => visible_lastSeenAt.mpr (hseen row hrow)

end Unseen

theorem nodes_listed (b : Base64) (rows : List Row) (descending : Bool) (limit : ℤ)
    (hids : (rows.map fun row => collate row.id).Nodup) (hzero : ∀ row ∈ rows, row.lastSeenAt ≠ some 0)
    (hempty : ∀ t ≠ 0, collate "" < collate (tm t)) :
    let walk := follow (serverNodes.list collate b rows (fun _ => true) (some (listSort .lastSeenAt descending)) limit)
      (rows.length + 1) ""
    let sorted := serverNodes.orderBy collate (listSort .lastSeenAt descending) rows
    (walk = some sorted ↔ ∀ row ∈ sorted.drop (pageArgs limit), row.lastSeenAt ≠ none) ∧
      ∀ out, walk = some out → out.Perm rows → out = sorted := by
  intro walk sorted
  have hkeep : rows.filter (fun _ => true) = rows := filter_true _
  have hids' : ((rows.filter fun _ => true).map fun row => collate row.id).Nodup := hkeep.symm ▸ hids
  have hsorted : serverNodes.orderBy collate (listSort .lastSeenAt descending) (rows.filter fun _ => true) = sorted := by
    rw [hkeep]
  have hwalk : walk = some sorted ↔ serverNodes.Cuts collate b (listSort .lastSeenAt descending) limit rows := by
    rw [← hsorted, ← congrArg (serverNodes.Cuts collate b _ limit) hkeep]
    exact list_iff rfl rfl hids'
  have hbehind {out} (h : walk = some out) (hp : out.Perm rows) : ∀ row ∈ sorted.drop (pageArgs limit),
      row.lastSeenAt ≠ none := by
    intro row hrow
    rw [← hsorted] at hrow
    exact visible_lastSeenAt.mp (visible_behind rfl rfl hids' h (hkeep.symm ▸ hp) hrow)
  have hcuts h := hwalk.mpr (cuts_of_seen hids hzero hempty h)
  refine ⟨⟨fun h => hbehind h perm_orderBy, hcuts⟩, fun out h hp => ?_⟩
  exact Option.some.inj (h.symm.trans (hcuts (hbehind h hp)))

def sampleNodes : List Row :=
  [sampleRow "a" (by decide) 1 9, ⟨"b", "b", none, 2, 8, none, some 3, by decide⟩]

-- The one unseen node ends the first page of the ascending list.
theorem two_nodes_listed :
    follow (serverNodes.list String.toList sampleCodec sampleNodes (fun _ => true) (some (listSort .lastSeenAt false)) 1)
      3 "" = some sampleNodes := by
  have hempty : ∀ t ≠ 0, "".toList < (tm t).toList := fun t ht =>
    String.lt_iff.mp (empty_lt_iff.mpr (by rw [toList_tm ht]; simp))
  have h := (nodes_listed String.toList sampleCodec sampleNodes false 1 (by decide +kernel) (by decide +kernel) hempty).1.mpr
    (by decide +kernel)
  exact h.trans (by decide +kernel)

-- The second node that was never seen compares with no cursor.
theorem unseen_node_skipped :
    follow (serverNodes.list String.toList sampleCodec sampleRows (fun _ => true) (some (listSort .lastSeenAt false)) 1)
      3 "" = some (sampleRows.take 1) := by decide +kernel

end Listing

end TunnelMesh.Storage
