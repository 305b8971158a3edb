import Mathlib.Tactic.NormNum

namespace TunnelMesh.Calendar

open List

variable (year : ℕ)

def isLeap : Bool := year % 4 == 0 && (year % 100 != 0 || year % 400 == 0)

def yearLength : ℕ := if isLeap year then 366 else 365

-- Days from January 1 of year 1 to January 1 of `year`, for years from 1 on.
def yearStart : ℕ :=
  365 * (year - 1) + (year - 1) / 4 - (year - 1) / 100 + (year - 1) / 400

-- The year of a day count since January 1 of year 1, and the day within it.
-- The days are cut into cycles of 400, 100, 4 and 1 years; `n - n / 4` keeps
-- the leap day that ends a cycle of four inside the last of its parts.
def yearDay (days : ℕ) : ℕ × ℕ :=
  let inCycle := days % 146097
  let century := inCycle / 36524 - inCycle / 36524 / 4
  let inCentury := inCycle - 36524 * century
  let inFour := inCentury % 1461
  let single := inFour / 365 - inFour / 365 / 4
  (400 * (days / 146097) + 100 * century + 4 * (inCentury / 1461) + single + 1, inFour - 365 * single)

def monthLengths : List ℕ :=
  [31, if isLeap year then 29 else 28, 31, 30, 31, 30, 31, 31, 30, 31, 30, 31]

def monthDay : List ℕ → ℕ → ℕ → ℕ × ℕ
  | [], month, day => (month, day + 1)
  | length :: rest, month, day =>
    if day < length then (month, day + 1) else monthDay rest (month + 1) (day - length)

structure Date where
  year : ℕ
  month : ℕ
  day : ℕ
  deriving DecidableEq

def date (days : ℕ) : Date :=
  let (year, inYear) := yearDay days
  let (month, day) := monthDay (monthLengths year) 1 inYear
  { year, month, day }

section Parts

variable (cycle century four single : ℕ) (hcentury : century ≤ 3) (hfour : four ≤ 24)
  (hsingle : single ≤ 3)

include hcentury hfour hsingle

theorem yearStart_parts : yearStart (400 * cycle + 100 * century + 4 * four + single + 1) =
      146097 * cycle + 36524 * century + 1461 * four + 365 * single := by
  have h4 : (400 * cycle + 100 * century + 4 * four + single) / 4 = 100 * cycle + 25 * century + four := by omega
  have h100 : (400 * cycle + 100 * century + 4 * four + single) / 100 = 4 * cycle + century := by omega
  have h400 : (400 * cycle + 100 * century + 4 * four + single) / 400 = cycle := by omega
  simp only [yearStart, Nat.add_sub_cancel, h4, h100, h400]
  omega

theorem isLeap_parts : isLeap (400 * cycle + 100 * century + 4 * four + single + 1) ↔
      single = 3 ∧ (four ≠ 24 ∨ century = 3) := by
  simp only [isLeap, Bool.and_eq_true, Bool.or_eq_true, beq_iff_eq, bne_iff_ne]
  omega

theorem yearStart_succ_parts : yearStart (400 * cycle + 100 * century + 4 * four + single + 2) =
      yearStart (400 * cycle + 100 * century + 4 * four + single + 1) +
        yearLength (400 * cycle + 100 * century + 4 * four + single + 1) := by
  have hstart := yearStart_parts cycle century four single hcentury hfour hsingle
  have hl := isLeap_parts cycle century four single hcentury hfour hsingle
  -- The next year carries into the first part that is not yet full.
  obtain ⟨c, b, a, s, hb, ha, hs, hnext⟩ : ∃ c b a s, b ≤ 3 ∧ a ≤ 24 ∧ s ≤ 3 ∧
      400 * cycle + 100 * century + 4 * four + single + 1 = 400 * c + 100 * b + 4 * a + s := by
    by_cases h1 : single < 3
    · exact ⟨cycle, century, four, single + 1, hcentury, hfour, by omega, by omega⟩
    by_cases h2 : four < 24
    · exact ⟨cycle, century, four + 1, 0, hcentury, by omega, by omega, by omega⟩
    by_cases h3 : century < 3
    · exact ⟨cycle, century + 1, 0, 0, by omega, by omega, by omega, by omega⟩
    · exact ⟨cycle + 1, 0, 0, 0, by omega, by omega, by omega, by omega⟩
  have hsucc := yearStart_parts c b a s hb ha hs
  rw [show 400 * cycle + 100 * century + 4 * four + single + 2 =
    400 * c + 100 * b + 4 * a + s + 1 by omega, hsucc, hstart, yearLength]
  split_ifs with h
  · have := hl.mp h; omega
  · have := mt hl.mpr h; omega

end Parts

theorem yearStart_succ (hpos : 1 ≤ year) : yearStart (year + 1) = yearStart year + yearLength year := by
  obtain ⟨cycle, century, four, single, hb, ha, hs, rfl⟩ : ∃ cycle century four single,
      century ≤ 3 ∧ four ≤ 24 ∧ single ≤ 3 ∧ year = 400 * cycle + 100 * century + 4 * four + single + 1 :=
    ⟨(year - 1) / 400, (year - 1) % 400 / 100, (year - 1) % 100 / 4, (year - 1) % 4,
      by omega, by omega, by omega, by omega⟩
  exact yearStart_succ_parts cycle century four single hb ha hs

theorem yearStart_mono (hpos : 1 ≤ a) (h : a ≤ b) : yearStart a ≤ yearStart b := by
  induction b, h using Nat.le_induction with
  | base => exact le_rfl
  | succ b hb ih => have := yearStart_succ b (by omega); omega

theorem yearDay_spec (days : ℕ) : 1 ≤ (yearDay days).1 ∧ yearStart (yearDay days).1 + (yearDay days).2 = days ∧
      (yearDay days).2 < yearLength (yearDay days).1 := by
  simp only [yearDay]
  generalize hinCycle : days % 146097 = inCycle
  generalize hcentury : inCycle / 36524 - inCycle / 36524 / 4 = century
  generalize hinCentury : inCycle - 36524 * century = inCentury
  generalize hinFour : inCentury % 1461 = inFour
  generalize hsingle : inFour / 365 - inFour / 365 / 4 = single
  have hc : century ≤ 3 := by omega
  have hf : inCentury / 1461 ≤ 24 := by omega
  have hs : single ≤ 3 := by omega
  refine ⟨by omega, ?_, ?_⟩
  · rw [yearStart_parts _ _ _ _ hc hf hs]; omega
  · have hl := isLeap_parts (days / 146097) century (inCentury / 1461) single hc hf hs
    rw [yearLength]
    split_ifs with h
    · omega
    · have := mt hl.mpr h; omega

theorem yearDay_lt (h : a < b) : (yearDay a).1 < (yearDay b).1 ∨
      (yearDay a).1 = (yearDay b).1 ∧ (yearDay a).2 < (yearDay b).2 := by
  obtain ⟨hapos, ha, halt⟩ := yearDay_spec a
  obtain ⟨hb, hbsum, hblt⟩ := yearDay_spec b
  rcases Nat.lt_trichotomy (yearDay a).1 (yearDay b).1 with hlt | heq | hgt
  · exact Or.inl hlt
  · rw [heq] at ha; exact Or.inr ⟨heq, by omega⟩
  · have hsucc := yearStart_succ (yearDay b).1 hb
    have hmono := yearStart_mono (by omega) (show (yearDay b).1 + 1 ≤ (yearDay a).1 from hgt)
    omega

variable (lengths : List ℕ)

theorem month_le_monthDay (month day : ℕ) : month ≤ (monthDay lengths month day).1 := by
  induction lengths generalizing month day with
  | nil => exact le_rfl
  | cons length rest ih =>
    simp only [monthDay]
    split_ifs
    · exact le_rfl
    · have := ih (month + 1) (day - length); omega

theorem monthDay_lt (month : ℕ) (h : a < b) : (monthDay lengths month a).1 < (monthDay lengths month b).1 ∨
      (monthDay lengths month a).1 = (monthDay lengths month b).1 ∧
        (monthDay lengths month a).2 < (monthDay lengths month b).2 := by
  induction lengths generalizing month a b with
  | nil => exact Or.inr ⟨rfl, Nat.succ_lt_succ h⟩
  | cons length rest ih =>
    simp only [monthDay]
    split_ifs with ha hb hb
    · exact Or.inr ⟨rfl, Nat.succ_lt_succ h⟩
    · have := month_le_monthDay rest (month + 1) (b - length); exact Or.inl (by omega)
    · omega
    · exact ih (month + 1) (by omega)

theorem monthDay_bounds (month day : ℕ) (hlen : ∀ l ∈ lengths, l ≤ 31) (hday : day < lengths.sum) :
    (monthDay lengths month day).1 < month + lengths.length ∧ (monthDay lengths month day).2 ≤ 31 := by
  induction lengths generalizing month day with
  | nil => simp at hday
  | cons length rest ih =>
    have hhead := hlen length mem_cons_self
    simp only [monthDay, length_cons]
    split_ifs with h
    · exact ⟨by omega, by omega⟩
    · have hr := ih (month + 1) (day - length) (fun l hl => hlen l (mem_cons_of_mem _ hl))
        (by rw [sum_cons] at hday; omega)
      exact ⟨by omega, hr.2⟩

theorem sum_monthLengths : (monthLengths year).sum = yearLength year := by
  simp only [monthLengths, yearLength]
  split_ifs <;> rfl

theorem monthLengths_le : ∀ l ∈ monthLengths year, l ≤ 31 := by
  simp only [monthLengths]
  split_ifs <;> decide

theorem date_lt (h : a < b) : (date a).year < (date b).year ∨ (date a).year = (date b).year ∧
      ((date a).month < (date b).month ∨ (date a).month = (date b).month ∧ (date a).day < (date b).day) := by
  simp only [date]
  rcases yearDay_lt h with hy | ⟨hy, hday⟩
  · exact Or.inl hy
  · rw [hy]; exact Or.inr ⟨rfl, monthDay_lt _ 1 hday⟩

theorem date_lt_or_iff (a b : ℕ) (p : Prop) : ((date a).year < (date b).year ∨ (date a).year = (date b).year ∧
      ((date a).month < (date b).month ∨ (date a).month = (date b).month ∧
        ((date a).day < (date b).day ∨ (date a).day = (date b).day ∧ p))) ↔ a < b ∨ a = b ∧ p := by
  rcases Nat.lt_trichotomy a b with hlt | rfl | hgt
  · have := date_lt hlt; omega
  · simp
  · have := date_lt hgt
    have hab : ¬ (a < b ∨ a = b ∧ p) := by omega
    omega

theorem date_month_day_le (days : ℕ) : (date days).month ≤ 12 ∧ (date days).day ≤ 31 := by
  obtain ⟨-, -, hlt⟩ := yearDay_spec days
  rw [← sum_monthLengths] at hlt
  have h := monthDay_bounds (monthLengths (yearDay days).1) 1 (yearDay days).2 (monthLengths_le _) hlt
  simp only [monthLengths, length_cons, length_nil] at h
  exact ⟨by simp only [date, monthLengths]; omega, h.2⟩

theorem date_year_le (h : days < 3652059) : (date days).year ≤ 9999 := by
  obtain ⟨-, hsum, -⟩ := yearDay_spec days
  by_contra hy
  have hmono := yearStart_mono (a := 10000) (by decide)
    (show 10000 ≤ (yearDay days).1 by simp only [date] at hy; omega)
  have hstart : yearStart 10000 = 3652059 := by decide
  omega

example : date 0 = ⟨1, 1, 1⟩ ∧ date 738944 = ⟨2024, 2, 29⟩ ∧ date 3652058 = ⟨9999, 12, 31⟩ := by
  decide

end TunnelMesh.Calendar
