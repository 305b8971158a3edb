import Mathlib.Algebra.GroupWithZero.Nat
import Mathlib.Data.Nat.Size
import Mathlib.Algebra.Ring.Int.Defs

namespace TunnelMesh.Rounding

open Nat Int

def Representable (p n : ℕ) : Prop := ∃ m e, m < 2 ^ p ∧ n = m * 2 ^ e

-- The weight of the last of the `p` leading bits of `n`.
def lastPlace (p n : ℕ) : ℕ := 2 ^ (n.size - p)

def nearest (unit n : ℕ) : ℕ :=
  if 2 * (n % unit) < unit ∨ 2 * (n % unit) = unit ∧ n / unit % 2 = 0 then n / unit else n / unit + 1

def round (p n : ℕ) : ℕ := nearest (lastPlace p n) n * lastPlace p n

section Nearest

theorem nearest_le (unit n : ℕ) : nearest unit n ≤ n / unit + 1 := by
  unfold nearest
  split <;> omega

theorem nearest_of_dvd (hunit : 0 < unit) (h : unit ∣ n) : nearest unit n * unit = n := by
  rw [nearest, if_pos (Or.inl (by omega)), Nat.div_mul_cancel h]

theorem nearest_near (hu : 0 < unit) :
    2 * (nearest unit n * unit) ≤ 2 * n + unit ∧ 2 * n ≤ 2 * (nearest unit n * unit) + unit := by
  have hn : n / unit * unit + n % unit = n := div_add_mod' n unit
  have hmod : n % unit < unit := mod_lt n hu
  have hsucc : (n / unit + 1) * unit = n / unit * unit + unit := succ_mul _ _
  unfold nearest
  split <;> omega

end Nearest

section Round

theorem lastPlace_pos (p n : ℕ) : 0 < lastPlace p n := Nat.two_pow_pos _

theorem lastPlace_le (h : n < 2 ^ k) : lastPlace p n ≤ 2 ^ (k - p) := by
  apply Nat.pow_le_pow_right (by omega)
  have hsize := Nat.size_le.mpr h
  omega

theorem div_lastPlace_lt : n / lastPlace p n < 2 ^ p := by
  apply Nat.div_lt_of_lt_mul
  have hs : n < 2 ^ n.size := Nat.lt_size_self n
  apply Nat.lt_of_lt_of_le hs
  rw [lastPlace, ← Nat.pow_add]
  exact Nat.pow_le_pow_right (by omega) (by omega)

theorem representable_iff_dvd : Representable p n ↔ lastPlace p n ∣ n := by
  constructor
  · rintro ⟨m, e, hm, rfl⟩
    rcases Nat.eq_zero_or_pos m with rfl | hpos
    · rw [Nat.zero_mul]; exact Nat.dvd_zero _
    have hsize : (m * 2 ^ e).size ≤ p + e := by
      rw [Nat.size_le, Nat.pow_add]
      exact Nat.mul_lt_mul_of_pos_right hm (Nat.two_pow_pos e)
    have hdvd : lastPlace p (m * 2 ^ e) ∣ 2 ^ e := Nat.pow_dvd_pow 2 (by omega)
    exact Nat.dvd_trans hdvd (Nat.dvd_mul_left _ _)
  · intro h; exact ⟨n / lastPlace p n, n.size - p, div_lastPlace_lt, (Nat.div_mul_cancel h).symm⟩

theorem representable_round (hp : 0 < p) : Representable p (round p n) := by
  have hle : nearest (lastPlace p n) n ≤ 2 ^ p := by
    have hnearest := nearest_le (lastPlace p n) n
    have hdiv := div_lastPlace_lt (p := p) (n := n)
    omega
  rcases Nat.lt_or_eq_of_le hle with hlt | heq
  · exact ⟨_, _, hlt, rfl⟩
  · refine ⟨1, p + (n.size - p), Nat.one_lt_two_pow (by omega), ?_⟩
    rw [round, heq, lastPlace, ← Nat.pow_add, Nat.one_mul]

theorem round_eq_self_iff : round p n = n ↔ Representable p n := by
  rw [representable_iff_dvd]
  constructor
  · intro h; exact ⟨nearest (lastPlace p n) n, by rw [mul_comm]; exact h.symm⟩
  · exact nearest_of_dvd (lastPlace_pos p n)

theorem round_near : 2 * round p n ≤ 2 * n + lastPlace p n ∧ 2 * n ≤ 2 * round p n + lastPlace p n :=
  nearest_near (lastPlace_pos p n)

end Round

instance (p n : ℕ) : Decidable (Representable p n) := decidable_of_iff _ representable_iff_dvd.symm

-- The whole numbers that a value of type `float64` can be.
structure Float64 where
  value : ℤ
  representable : Representable 53 value.natAbs

def Float64.ofInt (z : ℤ) : Float64 where
  value := z.sign * round 53 z.natAbs
  representable := by
    rw [natAbs_mul, natAbs_natCast]
    rcases sign_trichotomy z with hsign | hsign | hsign
    · rw [hsign, natAbs_one, one_mul]; exact representable_round (by omega)
    · rw [hsign, natAbs_zero, zero_mul]; exact ⟨0, 0, by omega, rfl⟩
    · rw [hsign, natAbs_neg, natAbs_one, one_mul]; exact representable_round (by omega)

-- What a conversion gives where the integer type does not hold the number: the
-- language leaves it to the platform.
structure OutOfRange where
  int64 : ℤ → Int64
  uint32 : ℤ → UInt32

-- The conversions of a processor whose result for a number out of range is the
-- least integer.
def OutOfRange.wrapping : OutOfRange where
  int64 _ := Int64.minValue
  uint32 _ := 0

namespace Float64

variable (outside : OutOfRange)

def toInt64 (x : Float64) : Int64 :=
  if -2 ^ 63 ≤ x.value ∧ x.value < 2 ^ 63 then Int64.ofInt x.value else outside.int64 x.value

def toUInt32 (x : Float64) : UInt32 :=
  if 0 ≤ x.value ∧ x.value < 2 ^ 32 then UInt32.ofNat x.value.toNat else outside.uint32 x.value

theorem ofInt_of_representable {z : ℤ} (h : Representable 53 z.natAbs) : (ofInt z).value = z := by
  have hr : round 53 z.natAbs = z.natAbs := round_eq_self_iff.mpr h
  have hv : (ofInt z).value = z.sign * round 53 z.natAbs := rfl
  rw [hv, hr, sign_mul_natAbs]

theorem representable_of_lt (h : n < 2 ^ p) : Representable p n := ⟨n, 0, h, (mul_one n).symm⟩

theorem toUInt32_ofInt (x : UInt32) : (ofInt x.toNat).toUInt32 outside = x := by
  have hx : x.toNat < 2 ^ 32 := UInt32.toNat_lt x
  have hv : (ofInt x.toNat).value = x.toNat := by
    apply ofInt_of_representable
    exact representable_of_lt (by omega)
  rw [toUInt32, hv, if_pos (by omega), toNat_natCast, UInt32.ofNat_toNat]

-- The numbers from half a unit below `2 ^ 63` on are rounded to it, the tie too.
theorem round_top (h : n < 2 ^ 63) :
    (2 ^ 63 - 512 ≤ n → round 53 n = 2 ^ 63) ∧ (n < 2 ^ 63 - 512 → round 53 n < 2 ^ 63) := by
  by_cases hlow : n < 2 ^ 62
  · have hp : lastPlace 53 n ≤ 2 ^ (62 - 53) := lastPlace_le hlow
    have hnear := (round_near (p := 53) (n := n)).1
    omega
  · have hs : n.size = 63 := by
      have hle : n.size ≤ 63 := Nat.size_le.mpr h
      have hlt : 62 < n.size := lt_size.mpr (by omega)
      omega
    have hp : lastPlace 53 n = 1024 := by rw [lastPlace, hs]; rfl
    rw [round, hp, nearest]
    split <;> omega

-- The numbers that come back from a `float64`: those it holds exactly and, where
-- the platform says so, one of those that are rounded out of the range.
def Kept (x : Int64) : Prop :=
  Representable 53 x.toInt.natAbs ∨ (2 ^ 63 - 512 ≤ x.toInt ∧ outside.int64 (2 ^ 63) = x)

theorem toInt64_ofInt_iff (x : Int64) : (ofInt x.toInt).toInt64 outside = x ↔ Kept outside x := by
  have hlow : -2 ^ 63 ≤ x.toInt := Int64.le_toInt x
  have hh : x.toInt < 2 ^ 63 := Int64.toInt_lt x
  by_cases he : Representable 53 x.toInt.natAbs
  · have hv := ofInt_of_representable he
    rw [toInt64, hv, if_pos ⟨hlow, hh⟩, Int64.ofInt_toInt]
    exact ⟨fun _ => Or.inl he, fun _ => rfl⟩
  · have hround : round 53 x.toInt.natAbs ≠ x.toInt.natAbs := fun h => he (round_eq_self_iff.mp h)
    have hne : x.toInt.natAbs ≠ 2 ^ 63 := fun h => he (h ▸ ⟨1, 63, by decide, rfl⟩)
    have hb : x.toInt.natAbs < 2 ^ 63 := by omega
    obtain ⟨htop, hbelow⟩ := round_top hb
    have hv : (ofInt x.toInt).value = x.toInt.sign * round 53 x.toInt.natAbs := rfl
    by_cases hl : 2 ^ 63 - 512 ≤ x.toInt
    · have hs : x.toInt.sign = 1 := Int.sign_eq_one_of_pos (by omega)
      have hout : (ofInt x.toInt).value = 2 ^ 63 := by rw [hv, hs, htop (by omega)]; rfl
      rw [toInt64, hout, if_neg (by omega), Kept]
      exact ⟨fun h => Or.inr ⟨hl, h⟩, fun h => (h.resolve_left he).2⟩
    · have hnot : ¬Kept outside x := fun h => h.elim he fun h => hl h.1
      refine ⟨fun h => absurd ?_ hround, fun h => absurd h hnot⟩
      -- The rounded number is in range, so that it is what comes back.
      have hz : x.toInt ≠ 0 := fun hz => he (hz ▸ representable_of_lt (by decide))
      have hsplit : (ofInt x.toInt).value = round 53 x.toInt.natAbs ∧ 0 < x.toInt ∨
          (ofInt x.toInt).value = -round 53 x.toInt.natAbs ∧ x.toInt < 0 := by
        rcases Int.lt_or_gt_of_ne hz with hneg | hpos
        · exact Or.inr ⟨by rw [hv, Int.sign_eq_neg_one_of_neg hneg, Int.neg_one_mul], hneg⟩
        · exact Or.inl ⟨by rw [hv, Int.sign_eq_one_of_pos hpos, Int.one_mul], hpos⟩
      have hr : -2 ^ 63 ≤ (ofInt x.toInt).value ∧ (ofInt x.toInt).value < 2 ^ 63 := by omega
      rw [toInt64, if_pos hr] at h
      have hback := Int64.toInt_ofInt_of_le hr.1 hr.2
      rw [h] at hback
      omega

end Float64

end TunnelMesh.Rounding
