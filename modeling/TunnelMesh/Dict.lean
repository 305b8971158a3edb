import Mathlib.Data.List.AList

namespace TunnelMesh

open AList

abbrev Dict (κ ν : Type) := AList fun _ : κ => ν

namespace Dict

variable {κ ν : Type} [DecidableEq κ] {d : Dict κ ν}

theorem lookup_insert_eq (d : Dict κ ν) (k other : κ) (v : ν) :
    (d.insert k v).lookup other = if other = k then some v else d.lookup other := by
  split_ifs with h
  · subst h; exact lookup_insert d
  · exact lookup_insert_ne h

theorem lookup_erase_eq (d : Dict κ ν) (k other : κ) :
    (d.erase k).lookup other = if other = k then none else d.lookup other := by
  split_ifs with h
  · subst h; exact lookup_erase other d
  · exact lookup_erase_ne h

theorem mem_iff_lookup : k ∈ d ↔ ∃ v, d.lookup k = some v := by
  rw [← lookup_isSome, Option.isSome_iff_exists]

theorem mem_of_lookup (h : d.lookup k = some v) : k ∈ d := mem_iff_lookup.mpr ⟨v, h⟩

theorem mem_entries_iff : (⟨k, v⟩ : Sigma fun _ : κ => ν) ∈ d.entries ↔ d.lookup k = some v :=
  mem_lookup_iff.symm

omit [DecidableEq κ] in
theorem entries_nodup (d : Dict κ ν) : d.entries.Nodup := List.NodupKeys.nodup d.nodupKeys

theorem entries_perm_erase (h : d.lookup k = some v) : d.entries.Perm (⟨k, v⟩ :: (d.erase k).entries) := by
  have hf : (⟨k, v⟩ : Sigma fun _ : κ => ν) ∉ (d.erase k).entries := by
    rw [mem_entries_iff, lookup_erase]
    simp
  apply (List.perm_ext_iff_of_nodup d.entries_nodup (List.nodup_cons.mpr ⟨hf, entries_nodup _⟩)).mpr
  rintro ⟨other, w⟩
  rw [List.mem_cons, mem_entries_iff, mem_entries_iff, lookup_erase_eq]
  by_cases hs : other = k
  · subst hs; simp [h, eq_comm]
  · simp [hs]

theorem keys_insert_of_none (h : d.lookup k = none) (v : ν) : (d.insert k v).keys = k :: d.keys := by
  rw [keys_insert, List.erase_of_not_mem]
  exact lookup_eq_none.mp h

end Dict

end TunnelMesh
