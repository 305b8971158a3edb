import Mathlib.Data.Char
import Mathlib.Data.List.DropRight
import Mathlib.Data.List.Lex
import Mathlib.Data.Nat.Digits.Defs

namespace TunnelMesh.Decimal

open List Nat

def digit (n : ℕ) : Char := digitChar (n % 10)

def padded : ℕ → ℕ → List Char
  | 0, _ => []
  | width + 1, n => padded width (n / 10) ++ [digit n]

def natural (n : ℕ) : List Char := if n = 0 then ['0'] else ((digits 10 n).map digit).reverse

def signed (n : ℤ) : List Char := if n < 0 then '-' :: natural n.natAbs else natural n.natAbs

def trimmed (digits : List Char) : List Char := digits.rdropWhile (· == '0')

def Extends (u v : List Char) : Prop :=
  trimmed u ≠ trimmed v ∧ (trimmed u <+: trimmed v ∨ trimmed v <+: trimmed u)
  deriving Decidable

variable {v u : List Char}

theorem append_lt_append_iff (hlen : u.length = v.length) : u ++ s < v ++ t ↔ u < v ∨ u = v ∧ s < t := by
  induction u generalizing v with
  | nil => obtain rfl : v = [] := length_eq_zero_iff.mp (by simpa using hlen.symm); simp
  | cons a u ih =>
    cases v with
    | nil => simp at hlen
    | cons b v =>
      have hl : u.length = v.length := by simpa using hlen
      simp only [cons_append, cons_lt_cons_iff, ih hl, cons.injEq]
      tauto

theorem digit_lt_digit_iff (a b : ℕ) : digit a < digit b ↔ a % 10 < b % 10 := by
  have h : ∀ i j : Fin 10, digitChar i.1 < digitChar j.1 ↔ i.1 < j.1 := by decide
  exact h ⟨a % 10, mod_lt _ (by decide)⟩ ⟨b % 10, mod_lt _ (by decide)⟩

theorem digit_eq_digit_iff (a b : ℕ) : digit a = digit b ↔ a % 10 = b % 10 := by
  have h : ∀ i j : Fin 10, digitChar i.1 = digitChar j.1 ↔ i.1 = j.1 := by decide
  exact h ⟨a % 10, mod_lt _ (by decide)⟩ ⟨b % 10, mod_lt _ (by decide)⟩

@[simp] theorem length_padded (width n : ℕ) : (padded width n).length = width := by
  induction width generalizing n with
  | zero => rfl
  | succ width ih => simp [padded, ih]

theorem padded_eq_padded_iff (ha : a < 10 ^ width) (hb : b < 10 ^ width) : padded width a = padded width b ↔ a = b := by
  induction width generalizing a b with
  | zero => simp only [padded, true_iff]; omega
  | succ width ih =>
    have hh := ih (a := a / 10) (b := b / 10) (by omega) (by omega)
    simp only [padded, ← concat_eq_append, concat_inj, hh, digit_eq_digit_iff]
    omega

theorem padded_lt_padded_iff (ha : a < 10 ^ width) (hb : b < 10 ^ width) : padded width a < padded width b ↔ a < b := by
  induction width generalizing a b with
  | zero => simp only [padded, not_lt_nil, false_iff]; omega
  | succ width ih =>
    have hlt := ih (a := a / 10) (b := b / 10) (by omega) (by omega)
    have heq : padded width (a / 10) = padded width (b / 10) ↔ a / 10 = b / 10 :=
      padded_eq_padded_iff (by omega) (by omega)
    have hone : [digit a] < [digit b] ↔ a % 10 < b % 10 := by
      rw [cons_lt_cons_iff, digit_lt_digit_iff]
      simp
    simp only [padded]
    rw [append_lt_append_iff (by simp), hlt, heq, hone]
    omega

theorem digit_bounds (n : ℕ) : '.' < digit n ∧ '0' ≤ digit n ∧ digit n < 'Z' := by
  have h : ∀ i : Fin 10, '.' < digitChar i.1 ∧ '0' ≤ digitChar i.1 ∧ digitChar i.1 < 'Z' := by decide
  exact h ⟨n % 10, mod_lt _ (by decide)⟩

theorem padded_bounds (width n : ℕ) : ∀ c ∈ padded width n, '0' ≤ c ∧ c < 'Z' := by
  induction width generalizing n with
  | zero => simp [padded]
  | succ width ih =>
    intro c hc
    simp only [padded, mem_append, mem_singleton] at hc
    rcases hc with hc | rfl
    · exact ih (n / 10) c hc
    · exact (digit_bounds n).2

theorem trimmed_cons (c : Char) (rest : List Char) :
    trimmed (c :: rest) = if trimmed rest = [] ∧ c = '0' then [] else c :: trimmed rest := by
  simp only [trimmed, List.rdropWhile, List.reverse_cons, List.dropWhile_append, List.isEmpty_iff,
    List.reverse_eq_nil_iff]
  by_cases hr : List.dropWhile (· == '0') rest.reverse = []
  · by_cases hc : c = '0' <;> simp [hr, hc]
  · rw [if_neg hr, if_neg (fun h => hr h.1)]; simp

theorem trimmed_cons_eq_nil_iff (c : Char) (rest : List Char) :
    trimmed (c :: rest) = [] ↔ trimmed rest = [] ∧ c = '0' := by
  rw [trimmed_cons]
  split_ifs with h
  · simp [h]
  · simp [h]

theorem trimmed_cons_of_ne_nil (h : trimmed (c :: rest) ≠ []) : trimmed (c :: rest) = c :: trimmed rest := by
  rw [trimmed_cons, if_neg (mt (trimmed_cons_eq_nil_iff c rest).mpr h)]

theorem eq_of_trimmed_eq_nil (hlen : u.length = v.length) (hu : trimmed u = []) (hv : trimmed v = []) : u = v := by
  simp only [trimmed, rdropWhile_eq_nil_iff, beq_iff_eq] at hu hv
  rw [eq_replicate_of_mem hu, eq_replicate_of_mem hv, hlen]

theorem lt_of_trimmed_eq_nil (hlen : u.length = v.length)
    (hv : ∀ c ∈ v, '0' ≤ c) (hu : trimmed u = []) (hne : trimmed v ≠ []) : u < v := by
  induction u generalizing v with
  | nil =>
    obtain rfl : v = [] := length_eq_zero_iff.mp (by simpa using hlen.symm)
    exact absurd rfl hne
  | cons a u ih =>
    cases v with
    | nil => simp at hlen
    | cons b v =>
      obtain ⟨hu', rfl⟩ := (trimmed_cons_eq_nil_iff a u).mp hu
      rcases lt_or_eq_of_le (hv b mem_cons_self) with hb | rfl
      · exact cons_lt_cons_iff.mpr (Or.inl hb)
      · have hv' : trimmed v ≠ [] := fun h => hne ((trimmed_cons_eq_nil_iff _ v).mpr ⟨h, rfl⟩)
        have hr := ih (by simpa using hlen) (fun c hc => hv c (mem_cons_of_mem _ hc)) hu' hv'
        exact cons_lt_cons_iff.mpr (Or.inr ⟨rfl, hr⟩)

theorem extends_cons_iff (hu : trimmed (a :: u) ≠ [])
    (hv : trimmed (b :: v) ≠ []) : Extends (a :: u) (b :: v) ↔ a = b ∧ Extends u v := by
  rw [Extends, Extends, trimmed_cons_of_ne_nil hu, trimmed_cons_of_ne_nil hv]
  grind

-- With a capital letter after the digits, the texts of two trimmed fractions
-- compare as the fractions do exactly when neither text continues the other.
theorem trimmed_lt_iff (hlen : u.length = v.length)
    (hu : ∀ c ∈ u, '0' ≤ c ∧ c < 'Z') (hv : ∀ c ∈ v, '0' ≤ c ∧ c < 'Z') :
    ((trimmed u ++ ['Z'] < trimmed v ++ ['Z']) ↔ u < v) ↔ ¬ Extends u v := by
  induction u generalizing v with
  | nil => obtain rfl : v = [] := length_eq_zero_iff.mp (by simpa using hlen.symm); simp [Extends]
  | cons a u ih =>
    cases v with
    | nil => simp at hlen
    | cons b v =>
      have haZ := (hu a mem_cons_self).2
      have hbZ := (hv b mem_cons_self).2
      -- A trimmed fraction is empty, or it still begins with its first digit.
      by_cases hu0 : trimmed (a :: u) = [] <;> by_cases hv0 : trimmed (b :: v) = []
      · have heq := eq_of_trimmed_eq_nil hlen hu0 hv0; simp [Extends, heq]
      · have hlt := lt_of_trimmed_eq_nil hlen (fun c hc => (hv c hc).1) hu0 hv0
        have ht : ¬ ['Z'] < b :: (trimmed v ++ ['Z']) := by
          simp [cons_lt_cons_iff, lt_asymm hbZ, hbZ.ne']
        simp only [Extends, hu0, trimmed_cons_of_ne_nil hv0, nil_append, cons_append, ht, hlt]
        simp
      · have hlt := lt_of_trimmed_eq_nil hlen.symm (fun c hc => (hu c hc).1) hv0 hu0
        have ht : a :: (trimmed u ++ ['Z']) < ['Z'] :=
          cons_lt_cons_iff.mpr (Or.inl haZ)
        simp only [Extends, hv0, trimmed_cons_of_ne_nil hu0, nil_append, cons_append, ht, lt_asymm hlt]
        simp
      · have hi := ih (by simpa using hlen) (fun c hc => hu c (mem_cons_of_mem _ hc))
          (fun c hc => hv c (mem_cons_of_mem _ hc))
        rw [extends_cons_iff hu0 hv0, trimmed_cons_of_ne_nil hu0, trimmed_cons_of_ne_nil hv0]
        simp only [cons_append, cons_lt_cons_iff]
        by_cases hab : a = b
        · subst hab; simp only [lt_irrefl, true_and, false_or, hi]
        · simp [hab]

theorem map_digit_inj {u v : List ℕ} (hu : ∀ d ∈ u, d < 10) (hv : ∀ d ∈ v, d < 10)
    (h : u.map digit = v.map digit) : u = v := by
  induction u generalizing v with
  | nil =>
    cases v with
    | nil => rfl
    | cons b v => cases h
  | cons a u ih =>
    cases v with
    | nil => cases h
    | cons b v =>
      obtain ⟨hab, huv⟩ := cons.inj h
      have hdigits := (digit_eq_digit_iff a b).mp hab
      have ha := hu a mem_cons_self
      have hb := hv b mem_cons_self
      have ht := ih (fun d hd => hu d (mem_cons_of_mem a hd))
        (fun d hd => hv d (mem_cons_of_mem b hd)) huv
      rw [ht, show a = b by omega]

theorem natural_bounds (n : ℕ) : ∀ c ∈ natural n, '0' ≤ c := by
  unfold natural
  split
  · simp
  · intro c hc
    obtain ⟨d, -, rfl⟩ := mem_map.mp (mem_reverse.mp hc)
    exact (digit_bounds d).2.1

theorem natural_injective : Function.Injective natural := by
  have hz : ∀ n, n ≠ 0 → natural n ≠ ['0'] := by
    intro n hn h
    have hdigits : (digits 10 n).map digit = [0].map digit := by
      have hr := congrArg List.reverse h
      simp only [natural, hn, if_false, reverse_reverse] at hr
      exact hr
    have hs := map_digit_inj (fun d hd => digits_lt_base (by omega) hd) (by simp) hdigits
    have hv := congrArg (ofDigits 10) hs
    rw [ofDigits_digits] at hv
    exact hn hv
  intro n m h
  by_cases hn : n = 0
  · by_cases hm : m = 0
    · rw [hn, hm]
    · exact absurd (by rw [← h, hn]; rfl) (hz m hm)
  · by_cases hm : m = 0
    · exact absurd (by rw [h, hm]; rfl) (hz n hn)
    · simp only [natural, hn, hm, if_false, reverse_inj] at h
      exact digits_inj_iff.mp (map_digit_inj (fun d hd => digits_lt_base (by omega) hd)
        (fun d hd => digits_lt_base (by omega) hd) h)

theorem signed_injective : Function.Injective signed := by
  have hs : ∀ a b, natural a ≠ '-' :: natural b := by
    intro a b h
    have hb := natural_bounds a '-' (h ▸ mem_cons_self)
    exact absurd hb (by decide)
  intro n m h
  unfold signed at h
  by_cases hn : n < 0
  · by_cases hm : m < 0
    · simp only [hn, hm, if_true, cons.injEq, true_and] at h
      have habs := natural_injective h
      omega
    · simp only [hn, hm, if_true, if_false] at h; exact absurd h.symm (hs _ _)
  · by_cases hm : m < 0
    · simp only [hn, hm, if_true, if_false] at h; exact absurd h (hs _ _)
    · simp only [hn, hm, if_false] at h
      have habs := natural_injective h
      omega

end TunnelMesh.Decimal
