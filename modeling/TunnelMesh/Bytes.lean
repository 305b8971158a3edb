import Mathlib.Algebra.GroupWithZero.Nat
import Mathlib.Data.List.Induction

namespace TunnelMesh.Bytes

open List

def slice {α : Type} (b : List α) (i j : ℕ) : List α := (b.take j).drop i

section Slice

variable {α : Type}

theorem length_slice (hj : j ≤ b.length) : (slice b i j).length = j - i := by
  rw [slice, length_drop, length_take, Nat.min_eq_left hj]

theorem slice_append_slice (hij : i ≤ j) (hjk : j ≤ k) : slice b i j ++ slice b j k = slice b i k := by
  have ht : b.take j = (b.take k).take j := by rw [take_take, Nat.min_eq_left hjk]
  have hs : (b.take k).drop j = ((b.take k).drop i).drop (j - i) := by
    rw [drop_drop, Nat.add_sub_cancel' hij]
  rw [slice, slice, slice, ht, drop_take, hs, take_append_drop]

end Slice

def bigEndian : List UInt8 → ℕ := List.foldl (fun n b => n * 256 + b.toNat) 0

def putBigEndian : ℕ → ℕ → List UInt8
  | 0, _ => []
  | width + 1, n => putBigEndian width (n / 256) ++ [UInt8.ofNat n]

theorem bigEndian_concat (l : List UInt8) (b : UInt8) : bigEndian (l ++ [b]) = bigEndian l * 256 + b.toNat := by
  simp only [bigEndian, foldl_append, foldl_cons, foldl_nil]

theorem bigEndian_putBigEndian (h : n < 256 ^ width) : bigEndian (putBigEndian width n) = n := by
  induction width generalizing n with
  | zero =>
    have hz : n = 0 := by simpa using h
    rw [hz]
    rfl
  | succ width ih =>
    have hdiv : n / 256 < 256 ^ width := by apply Nat.div_lt_of_lt_mul; rwa [Nat.pow_succ'] at h
    have hl : (UInt8.ofNat n).toNat = n % 256 := UInt8.toNat_ofNat
    rw [putBigEndian, bigEndian_concat, ih hdiv, hl]
    omega

theorem putBigEndian_bigEndian (l : List UInt8) : putBigEndian l.length (bigEndian l) = l := by
  induction l using List.reverseRecOn with
  | nil => rfl
  | append_singleton l b ih =>
    have hb : b.toNat < 256 := UInt8.toNat_lt b
    have hdiv : (bigEndian l * 256 + b.toNat) / 256 = bigEndian l := by omega
    have hl : UInt8.ofNat (bigEndian l * 256 + b.toNat) = b := by
      apply UInt8.toNat_inj.mp
      have hofNat : (UInt8.ofNat (bigEndian l * 256 + b.toNat)).toNat = (bigEndian l * 256 + b.toNat) % 256 :=
        UInt8.toNat_ofNat
      omega
    rw [length_append, length_singleton, putBigEndian, bigEndian_concat, hdiv, hl, ih]

theorem bigEndian_lt (l : List UInt8) : bigEndian l < 256 ^ l.length := by
  induction l using List.reverseRecOn with
  | nil => decide
  | append_singleton l b ih =>
    have hb : b.toNat < 256 := UInt8.toNat_lt b
    rw [bigEndian_concat, length_append, length_singleton, Nat.pow_succ]
    omega

end TunnelMesh.Bytes
