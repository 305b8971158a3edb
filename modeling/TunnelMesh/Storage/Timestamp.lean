import TunnelMesh.Calendar
import TunnelMesh.Decimal

namespace TunnelMesh.Storage

open TunnelMesh.Decimal Calendar List String

-- A `time.Time` in UTC is a count of nanoseconds since January 1 of year 1, the
-- zero time.
def nanosPerSecond : ℕ := 10 ^ 9

def minute : ℕ := 60 * nanosPerSecond

-- Go pads a year to four digits and writes a longer one in full.
def yearText (year : ℕ) : List Char :=
  if year < 10 ^ 4 then padded 4 year else Nat.toDigits 10 year

def stamp (seconds : ℕ) : List Char :=
  let date := date (seconds / 86400)
  yearText date.year ++ '-' :: (padded 2 date.month ++ '-' :: (padded 2 date.day ++ 'T' ::
    (padded 2 (seconds / 3600 % 24) ++ ':' :: (padded 2 (seconds / 60 % 60) ++ ':' ::
      padded 2 (seconds % 60)))))

-- The fraction of RFC3339Nano: no trailing zeros, and no point without digits.
def fraction (nanos : ℕ) : List Char :=
  match trimmed (padded 9 nanos) with
  | [] => []
  | digits => '.' :: digits

def tm (t : ℕ) : String :=
  if t = 0 then ""
  else String.ofList
    (stamp (t / nanosPerSecond) ++ (fraction (t % nanosPerSecond) ++ ['Z']))

def InRange (t : ℕ) : Prop := t < 315537897600 * nanosPerSecond
  deriving Decidable

-- Two instants of one second of which one is written with the digits of the
-- other and more.
def Ambiguous (a b : ℕ) : Prop :=
  a ≠ 0 ∧ b ≠ 0 ∧ a / nanosPerSecond = b / nanosPerSecond ∧
    Extends (padded 9 (a % nanosPerSecond)) (padded 9 (b % nanosPerSecond))
  deriving Decidable

theorem field_lt_field_iff (ha : a < 10 ^ width) (hb : b < 10 ^ width) :
    padded width a ++ c :: s < padded width b ++ c :: t ↔ a < b ∨ a = b ∧ s < t := by
  rw [append_lt_append_iff (by simp), padded_lt_padded_iff ha hb, padded_eq_padded_iff ha hb]
  simp

section Range

variable (ha : a < 315537897600) (hb : b < 315537897600)

include ha

theorem year_lt : (date (a / 86400)).year < 10 ^ 4 := by
  have hd : a / 86400 < 3652059 := by omega
  have := date_year_le hd
  omega

theorem yearText_of_lt : yearText (date (a / 86400)).year =
    padded 4 (date (a / 86400)).year := by rw [yearText, if_pos (year_lt ha)]

theorem length_stamp : (stamp a).length = 19 := by simp [stamp, yearText_of_lt ha]

include hb

theorem stamp_lt_stamp_iff : stamp a < stamp b ↔ a < b := by
  have hda := date_month_day_le (a / 86400)
  have hdb := date_month_day_le (b / 86400)
  simp only [stamp, yearText_of_lt ha, yearText_of_lt hb]
  rw [field_lt_field_iff (year_lt ha) (year_lt hb), field_lt_field_iff (by omega) (by omega),
    field_lt_field_iff (by omega) (by omega), date_lt_or_iff,
    field_lt_field_iff (by omega) (by omega), field_lt_field_iff (by omega) (by omega),
    padded_lt_padded_iff (by omega) (by omega)]
  omega

theorem stamp_eq_stamp_iff : stamp a = stamp b ↔ a = b := by
  have hlt := stamp_lt_stamp_iff ha hb
  have hgt := stamp_lt_stamp_iff hb ha
  refine ⟨fun h => ?_, fun h => h ▸ rfl⟩
  simp only [h, lt_irrefl, false_iff] at hlt hgt
  omega

end Range

theorem seconds_lt (h : InRange t) : t / nanosPerSecond < 315537897600 := by
  exact Nat.div_lt_of_lt_mul (by rwa [Nat.mul_comm])

theorem nanos_lt (t : ℕ) : t % nanosPerSecond < 10 ^ 9 := Nat.mod_lt _ (by decide)

theorem stamp_append_lt_iff (ha : InRange a) (hb : InRange b) (s t : List Char) :
    stamp (a / nanosPerSecond) ++ s < stamp (b / nanosPerSecond) ++ t ↔ a / nanosPerSecond < b / nanosPerSecond ∨
        a / nanosPerSecond = b / nanosPerSecond ∧ s < t := by
  have hla := length_stamp (seconds_lt ha)
  have hlb := length_stamp (seconds_lt hb)
  rw [append_lt_append_iff (hla.trans hlb.symm), stamp_lt_stamp_iff (seconds_lt ha) (seconds_lt hb),
    stamp_eq_stamp_iff (seconds_lt ha) (seconds_lt hb)]

theorem fraction_eq (nanos : ℕ) :
    fraction nanos = if trimmed (padded 9 nanos) = [] then [] else '.' :: trimmed (padded 9 nanos) := by
  unfold fraction
  split
  · simp_all
  · rename_i h; rw [if_neg h]

theorem fraction_lt_fraction_iff (a b : ℕ) : fraction a ++ ['Z'] < fraction b ++ ['Z'] ↔
      trimmed (padded 9 a) ++ ['Z'] < trimmed (padded 9 b) ++ ['Z'] := by
  have hh : ∀ n c rest, trimmed (padded 9 n) = c :: rest → c < 'Z' := by
    intro n c rest h
    have hmem : c ∈ padded 9 n := (List.rdropWhile_prefix _ _).subset (h ▸ mem_cons_self)
    exact (padded_bounds 9 n c hmem).2
  rw [fraction_eq, fraction_eq]
  cases ha : trimmed (padded 9 a) with
  | nil =>
    cases hb : trimmed (padded 9 b) with
    | nil => simp
    | cons d rest => have hd := hh b d rest hb; simp [cons_lt_cons_iff, lt_asymm hd, hd.ne']
  | cons c tail =>
    have hc := hh a c tail ha
    cases hb : trimmed (padded 9 b) with
    | nil => simp [cons_lt_cons_iff, hc]
    | cons d rest => simp [cons_lt_cons_iff]

theorem toList_tm (h : t ≠ 0) :
    (tm t).toList = stamp (t / nanosPerSecond) ++ (fraction (t % nanosPerSecond) ++ ['Z']) := by
  rw [tm, if_neg h, toList_ofList]

theorem lt_iff_seconds (a b : ℕ) :
    a < b ↔ a / nanosPerSecond < b / nanosPerSecond ∨ a / nanosPerSecond = b / nanosPerSecond ∧
      a % nanosPerSecond < b % nanosPerSecond := by
  simp only [nanosPerSecond]
  omega

theorem empty_lt_iff : "" < s ↔ s.toList ≠ [] := by
  rw [lt_iff]
  cases s.toList <;> simp

theorem tm_zero_order (h : a = 0 ∨ b = 0) : tm a < tm b ↔ a < b := by
  by_cases hb : b = 0
  · subst hb
    rw [lt_iff]
    simp [tm]
  · obtain rfl : a = 0 := h.resolve_right hb
    have hne : (tm b).toList ≠ [] := by rw [toList_tm hb]; simp
    simp only [show tm 0 = "" from rfl, empty_lt_iff, hne, ne_eq, not_false_eq_true, true_iff]
    omega

-- The texts of two times compare as the times do exactly when they are not
-- ambiguous.
theorem tm_order_iff (ha : InRange a) (hb : InRange b) : (tm a < tm b ↔ a < b) ↔ ¬ Ambiguous a b := by
  by_cases hz : a = 0 ∨ b = 0
  · have hamb : ¬ Ambiguous a b := fun h => hz.elim h.1 h.2.1
    simp only [hamb, not_false_eq_true, iff_true]
    exact tm_zero_order hz
  obtain ⟨ha0, hb0⟩ := not_or.mp hz
  have ht := trimmed_lt_iff (u := padded 9 (a % nanosPerSecond))
    (v := padded 9 (b % nanosPerSecond)) (by simp) (padded_bounds _ _) (padded_bounds _ _)
  rw [padded_lt_padded_iff (nanos_lt a) (nanos_lt b)] at ht
  rw [lt_iff, toList_tm ha0, toList_tm hb0, stamp_append_lt_iff ha hb, lt_iff_seconds a b, fraction_lt_fraction_iff]
  by_cases hsec : a / nanosPerSecond = b / nanosPerSecond
  · simp only [Ambiguous, ha0, hb0, hsec, ne_eq, not_false_eq_true, true_and, lt_irrefl, false_or]
    exact ht
  · simp [Ambiguous, hsec]

theorem tm_lt_tm_iff (ha : InRange a) (hb : InRange b) (h : ¬ Ambiguous a b) : tm a < tm b ↔ a < b :=
  (tm_order_iff ha hb).mpr h

end TunnelMesh.Storage
