import Mathlib.Algebra.Ring.Nat
import Mathlib.Data.Nat.Find
import Mathlib.Order.Monotone.Basic

/-!
The proleptic Gregorian calendar over the days since the 1st of January of the
year 1, counted from 0, and over the months since that January.  A month is known
by its index: month `m % 12 + 1` of the year `m / 12 + 1`.  Days and months before
that January are negative: the calendar repeats itself every 400 years.
-/

namespace Socle.Gregorian

def isLeap (year : Nat) : Bool := year % 4 = 0 ∧ (year % 100 ≠ 0 ∨ year % 400 = 0)

/-- The days before the 1st of January of a year. -/
def daysBeforeYear (year : Nat) : Nat :=
  let y := year - 1
  y * 365 + y / 4 - y / 100 + y / 400

def daysInMonth (year month : Nat) : Nat :=
  match month with
  | 2 => if isLeap year then 29 else 28
  | 4 | 6 | 9 | 11 => 30
  | _ => 31

/-- The days of a year before the 1st of a month. -/
def daysBeforeMonth (year month : Nat) : Nat :=
  ((List.range (month - 1)).map fun m => daysInMonth year (m + 1)).sum

/-- The first day of a month. -/
def monthStart (m : Nat) : Nat :=
  daysBeforeYear (m / 12 + 1) + daysBeforeMonth (m / 12 + 1) (m % 12 + 1)

/-- The month of a day. -/
def monthOf (day : Nat) : Nat := Nat.findGreatest (fun m => monthStart m ≤ day) (day / 28)

theorem daysInMonth_bounds (year month : Nat) :
    28 ≤ daysInMonth year month ∧ daysInMonth year month ≤ 31 := by
  unfold daysInMonth
  split <;> try split
  all_goals omega

theorem daysBeforeMonth_succ (year month : Nat) :
    daysBeforeMonth year (month + 2) =
      daysBeforeMonth year (month + 1) + daysInMonth year (month + 1) := by
  simp [daysBeforeMonth, List.range_succ]

theorem daysBeforeMonth_year (year : Nat) :
    daysBeforeMonth year 13 = 365 + if isLeap year then 1 else 0 := by
  simp only [daysBeforeMonth, daysInMonth, Nat.add_one_sub_one]
  cases isLeap year <;> rfl

theorem succ_div (n d : Nat) : (n + 1) / d = n / d + if (n + 1) % d = 0 then 1 else 0 := by
  rw [Nat.succ_div]
  simp only [Nat.dvd_iff_mod_eq_zero]

theorem daysBeforeYear_succ (year : Nat) :
    daysBeforeYear (year + 2) =
      daysBeforeYear (year + 1) + daysBeforeMonth (year + 1) 13 := by
  have hcentury : (year + 1) / 100 ≤ (year + 1) / 4 := Nat.div_le_div_left (by decide) (by decide)
  have hcentury' : year / 100 ≤ year / 4 := Nat.div_le_div_left (by decide) (by decide)
  have hdvd : (year + 1) % 100 = 0 → (year + 1) % 4 = 0 := by omega
  have hdvd' : (year + 1) % 400 = 0 → (year + 1) % 100 = 0 := by omega
  rw [daysBeforeMonth_year]
  simp only [daysBeforeYear, Nat.add_one_sub_one, isLeap, decide_eq_true_eq]
  simp only [succ_div] at hcentury ⊢
  generalize year / 4 = q, year / 100 = c, year / 400 = f at *
  by_cases h4 : (year + 1) % 4 = 0
  · by_cases h100 : (year + 1) % 100 = 0
    · by_cases h400 : (year + 1) % 400 = 0
      · simp [h4, h100, h400] at hcentury ⊢
        omega
      · simp [h4, h100, h400] at hcentury ⊢
        omega
    · have h400 : (year + 1) % 400 ≠ 0 := fun h => h100 (hdvd' h)
      simp [h4, h100, h400] at hcentury ⊢
      omega
  · have h100 : (year + 1) % 100 ≠ 0 := fun h => h4 (hdvd h)
    have h400 : (year + 1) % 400 ≠ 0 := fun h => h100 (hdvd' h)
    simp [h4, h100, h400] at hcentury ⊢
    omega

theorem monthStart_succ (m : Nat) :
    monthStart (m + 1) = monthStart m + daysInMonth (m / 12 + 1) (m % 12 + 1) := by
  unfold monthStart
  by_cases hlast : m % 12 = 11
  · rw [show (m + 1) / 12 = m / 12 + 1 by omega, show (m + 1) % 12 = 0 by omega, hlast,
      daysBeforeYear_succ, daysBeforeMonth_succ]
    simp [daysBeforeMonth]
    omega
  · rw [show (m + 1) / 12 = m / 12 by omega, show (m + 1) % 12 = m % 12 + 1 by omega,
      daysBeforeMonth_succ]
    omega

theorem monthStart_strictMono : StrictMono monthStart :=
  strictMono_nat_of_lt_succ fun m => by
    rw [monthStart_succ]
    have := (daysInMonth_bounds (m / 12 + 1) (m % 12 + 1)).1
    omega

theorem le_monthStart (m : Nat) : 28 * m ≤ monthStart m := by
  induction m with
  | zero => exact Nat.zero_le _
  | succ m ih =>
      rw [monthStart_succ]
      have := (daysInMonth_bounds (m / 12 + 1) (m % 12 + 1)).1
      omega

/-- A month has begun exactly when the day lies in it or in a later one. -/
theorem monthStart_le_iff {m day : Nat} : monthStart m ≤ day ↔ m ≤ monthOf day := by
  constructor
  · intro h
    have hbound := le_monthStart m
    exact Nat.le_findGreatest (by omega) h
  · intro h
    have hzero : monthStart 0 ≤ day := Nat.zero_le _
    have hmonth : monthStart (monthOf day) ≤ day :=
      Nat.findGreatest_spec (P := fun m => monthStart m ≤ day) (Nat.zero_le _) hzero
    exact (monthStart_strictMono.monotone h).trans hmonth

def daysInCycle : Nat := 146097

def monthsInCycle : Nat := 4800

theorem monthStart_cycle : monthStart monthsInCycle = daysInCycle := by decide +kernel

/-- The first day of a month, for any month. -/
def startOfMonth (m : Int) : Int :=
  daysInCycle * (m / monthsInCycle) + monthStart (m % monthsInCycle).toNat

/-- The month of any day. -/
def monthOfDay (day : Int) : Int :=
  monthsInCycle * (day / daysInCycle) + monthOf (day % daysInCycle).toNat

theorem startOfMonth_le_iff {m day : Int} : startOfMonth m ≤ day ↔ m ≤ monthOfDay day := by
  have hday := Int.emod_nonneg day (show (daysInCycle : Int) ≠ 0 by decide)
  have hday' := Int.emod_lt_of_pos day (show (0 : Int) < daysInCycle by decide)
  have hmonth := Int.emod_nonneg m (show (monthsInCycle : Int) ≠ 0 by decide)
  have hmonth' := Int.emod_lt_of_pos m (show (0 : Int) < monthsInCycle by decide)
  have hiff : monthStart (m % monthsInCycle).toNat ≤ (day % daysInCycle).toNat ↔
      (m % monthsInCycle).toNat ≤ monthOf (day % daysInCycle).toNat := monthStart_le_iff
  have hstart : monthStart (m % monthsInCycle).toNat < daysInCycle := by
    rw [← monthStart_cycle, monthStart_strictMono.lt_iff_lt]
    omega
  have hmonthOf : monthOf (day % daysInCycle).toNat < monthsInCycle := by
    rw [← not_le, ← monthStart_le_iff, monthStart_cycle]
    omega
  have hdays := Int.mul_ediv_add_emod day daysInCycle
  have hmonths := Int.mul_ediv_add_emod m monthsInCycle
  unfold startOfMonth monthOfDay
  generalize m / (monthsInCycle : Int) = q, day / (daysInCycle : Int) = c,
    m % (monthsInCycle : Int) = p, day % (daysInCycle : Int) = r at *
  rw [← hdays, ← hmonths]
  simp only [daysInCycle, monthsInCycle] at *
  omega

theorem startOfMonth_succ (m : Int) :
    startOfMonth m < startOfMonth (m + 1) ∧ startOfMonth (m + 1) ≤ startOfMonth m + 31 := by
  have hmonth := Int.emod_nonneg m (show (monthsInCycle : Int) ≠ 0 by decide)
  have hmonth' := Int.emod_lt_of_pos m (show (0 : Int) < monthsInCycle by decide)
  have hsucc := monthStart_succ (m % monthsInCycle).toNat
  have hbounds := daysInMonth_bounds ((m % monthsInCycle).toNat / 12 + 1)
    ((m % monthsInCycle).toNat % 12 + 1)
  unfold startOfMonth
  by_cases hlast : m % (monthsInCycle : Int) = 4799
  · rw [hlast] at hsucc hbounds ⊢
    rw [show (4799 : Int).toNat + 1 = monthsInCycle from rfl, monthStart_cycle] at hsucc
    rw [show (m + 1) / (monthsInCycle : Int) = m / monthsInCycle + 1 by
        simp only [monthsInCycle] at *; omega,
      show (m + 1) % (monthsInCycle : Int) = 0 by simp only [monthsInCycle] at *; omega,
      show monthStart (0 : Int).toNat = 0 from rfl]
    simp only [monthsInCycle, daysInCycle] at *
    omega
  · rw [show (m + 1) / (monthsInCycle : Int) = m / monthsInCycle by
        simp only [monthsInCycle] at *; omega,
      show ((m + 1) % (monthsInCycle : Int)).toNat = (m % monthsInCycle).toNat + 1 by
        simp only [monthsInCycle] at *; omega, hsucc]
    omega

/-- Two days of one month are less than 31 days apart. -/
theorem lt_add_of_monthOfDay_eq {day day' : Int} (h : monthOfDay day' = monthOfDay day) :
    day' < day + 31 := by
  have hstart : startOfMonth (monthOfDay day) ≤ day := startOfMonth_le_iff.mpr le_rfl
  have hend : ¬ startOfMonth (monthOfDay day + 1) ≤ day' := by
    rw [startOfMonth_le_iff, h]
    omega
  have hsucc := (startOfMonth_succ (monthOfDay day)).2
  omega

end Socle.Gregorian
