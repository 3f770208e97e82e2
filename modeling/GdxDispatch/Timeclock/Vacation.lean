import GdxDispatch.Timeclock.PeriodsTile

/-! Vacation years (`core/time_off.py`).

    A company counts a vacation allowance over calendar years or from each person's hire date. Under the second policy the
    years before the hire date are calendar years still, and the last of them ends the day before it. -/

namespace Gdx.Timeclock

open Lib PayPeriods

inductive VacationYearPolicy where
  | calendarYear | hireAnniversary
  deriving DecidableEq, Repr

/-- `vacation_year_policy_out`: a missing or unknown policy is the calendar year. -/
def vacationYearPolicyOut (value : Option Text) : VacationYearPolicy :=
  if value = some "hire_anniversary".toList then .hireAnniversary else .calendarYear

def yearOf (day : ℤ) : ℤ := (civil day).1

/-- `_anniversary`: 29 February is 28 February in a year without one. -/
def anniversary (hireDate year : ℤ) : ℤ :=
  let (_, m, d) := civil hireDate
  if m = 2 ∧ d = 29 ∧ isLeapYear year = false then dayNumber year 2 28 else dayNumber year m d

/-- `_counts_from_anniversary`: the hire date, when the year is counted from it. -/
def countsFromAnniversary (policy : Option Text) (hireDate : Option ℤ) (on : ℤ) : Option ℤ :=
  if vacationYearPolicyOut policy = .hireAnniversary then hireDate.filter (· ≤ on) else none

def vacationYearStart (policy : Option Text) (hireDate : Option ℤ) (on : ℤ) : ℤ :=
  match countsFromAnniversary policy hireDate on with
  | none => dayNumber (yearOf on) 1 1
  | some hired =>
    let start := anniversary hired (yearOf on)
    if start ≤ on then start else anniversary hired (yearOf on - 1)

/-- The first and the last day of the vacation year that contains `on`. -/
def vacationWindow (policy : Option Text) (hireDate : Option ℤ) (on : ℤ) : ℤ × ℤ :=
  let start := vacationYearStart policy hireDate on
  match countsFromAnniversary policy hireDate on with
  | none =>
    let truncated := if vacationYearPolicyOut policy = .hireAnniversary then hireDate.filter (yearOf · = yearOf on) else none
    (start, match truncated with
      | none => dayNumber (yearOf on) 12 31
      | some hired => hired - 1)
  | some hired => (start, anniversary hired (yearOf start + 1) - 1)

/-- Hired on 29 February 2024: the first year ends on 27 February, the fourth on 28 February 2028. -/
example : vacationWindow (some "hire_anniversary".toList) (some 19782) 20000 = (19782, dayNumber 2025 2 27) ∧
    vacationWindow (some "hire_anniversary".toList) (some 19782) (dayNumber 2027 3 1) =
      (dayNumber 2027 2 28, dayNumber 2028 2 28) := by decide +kernel

/-! ### Who took what -/

/-- A row of the entries table as the balances read it; `entryType` is the stored text. -/
structure VacationRow where
  technicianId : Option Text
  entryType : Text
  clockInAt : Stamp
  clockOutAt : Option Stamp
  minutes : Option ℤ
  deletedAt : Option Stamp
  deriving DecidableEq

def VACATION_TYPE : Text := "vacation".toList

/-- A live, closed vacation entry. -/
def VacationRow.paidVacation (row : VacationRow) : Bool :=
  row.deletedAt.isNone && row.entryType = VACATION_TYPE && row.clockOutAt.isSome && row.minutes.isSome

/-- `_paid_vacation_between`: the coarse filter on the text. -/
def VacationRow.paidVacationBetween (lo hi : Text) (row : VacationRow) : Bool :=
  row.paidVacation && !(row.clockInAt.text < lo) && row.clockInAt.text < hi

/-- A technician's window, as the dict holds it. -/
structure PersonWindow where
  technicianId : Text
  first : ℤ
  last : ℤ
  deriving DecidableEq

/-- `vacation_windows`: the years of these people that contain `on`. -/
def vacationWindows (policy : Option Text) (hires : Text → Option ℤ) (technicianIds : List Text) (on : ℤ) :
    List PersonWindow :=
  technicianIds.dedup.map fun tid =>
    ⟨tid, (vacationWindow policy (hires tid) on).1, (vacationWindow policy (hires tid) on).2⟩

def windowFor (windows : List PersonWindow) (tech : Text) : Option PersonWindow :=
  windows.find? (·.technicianId = tech)

/-- The rows `vacation_minutes_by_person` adds up for one person. -/
def countedRows (z : ShopZone) (windows : List PersonWindow) (rows : List VacationRow) (tech : Text) :
    List VacationRow :=
  let windows := windows.filter (·.technicianId ≠ [])
  match (windows.map (·.first)).min?, (windows.map (·.last)).max? with
  | some lo, some hi =>
    rows.filter fun row =>
      row.paidVacationBetween (isoformat (lo - 1)).toList (isoformat (hi + 2)).toList && row.technicianId = some tech &&
        match windowFor windows tech with
        | none => false
        | some w => w.first ≤ z.day (asAware row.clockInAt) && z.day (asAware row.clockInAt) ≤ w.last
  | _, _ => []

def VacationRow.paid (row : VacationRow) : ℤ := max 0 (row.minutes.getD 0)

/-- `vacation_minutes_by_person`: the minutes used, and those of them after `asOf`. -/
def vacationMinutesByPerson (z : ShopZone) (windows : List PersonWindow) (rows : List VacationRow) (asOf : ℤ)
    (tech : Text) : Option (ℤ × ℤ) :=
  match countedRows z windows rows tech with
  | [] => none
  | counted =>
    some ((counted.map VacationRow.paid).sum,
      ((counted.filter fun row => asOf < z.day (asAware row.clockInAt)).map VacationRow.paid).sum)

/-- `vacation_takers`: everyone with vacation within a year of `on`. -/
def vacationTakers (rows : List VacationRow) (on : ℤ) : List Text :=
  ((rows.filter (VacationRow.paidVacationBetween (isoformat (on - 367)).toList (isoformat (on + 368)).toList)).filterMap
    fun row => row.technicianId.filter (· ≠ [])).dedup

/-! ### Years on the line of days -/

def newYear (y : ℤ) : ℤ := firstOfMonth (12 * y)

theorem dayNumber_newYear (y : ℤ) : dayNumber y 1 1 = newYear y := by
  unfold newYear firstOfMonth
  congr 1 <;> omega

theorem dayNumber_yearEnd (y : ℤ) : dayNumber y 12 31 = newYear (y + 1) - 1 := by
  have hsucc := firstOfMonth_succ (12 * y + 11)
  have hfirst : dayNumber y 12 1 = firstOfMonth (12 * y + 11) := by
    unfold firstOfMonth
    congr 1 <;> omega
  have hlength : lengthOfMonth (12 * y + 11) = 31 := by
    unfold lengthOfMonth
    rw [show (12 * y + 11) % 12 + 1 = 12 by omega]
    rfl
  unfold newYear
  rw [dayNumber_eq, hfirst, show 12 * (y + 1) = 12 * y + 11 + 1 by ring, hsucc, hlength]
  ring

theorem newYear_lt_iff {y z : ℤ} : newYear y < newYear z ↔ y < z := by
  unfold newYear
  rw [firstOfMonth_lt_iff]
  omega

/-- A day is of the year whose first day it is not before, and whose next it is before. -/
theorem yearOf_eq_iff {day y : ℤ} : yearOf day = y ↔ newYear y ≤ day ∧ day < newYear (y + 1) := by
  obtain ⟨-, -, -, hcivil⟩ := monthOf_spec day
  have hyear : yearOf day = monthOf day / 12 := congrArg Prod.fst hcivil
  have hmonth := (monthOf_eq_iff (n := day)).mp rfl
  have hle : ∀ {t u : ℤ}, firstOfMonth t ≤ firstOfMonth u ↔ t ≤ u := by
    intro t u
    rw [← not_lt, ← not_lt, firstOfMonth_lt_iff]
  unfold newYear
  rw [hyear]
  constructor
  · rintro rfl
    refine ⟨le_trans (hle.mpr ?_) hmonth.1, lt_of_lt_of_le hmonth.2 (hle.mpr ?_)⟩ <;> omega
  · rintro ⟨h0, h1⟩
    have hlow := firstOfMonth_lt_iff.mp (lt_of_le_of_lt h0 hmonth.2)
    have hhigh := firstOfMonth_lt_iff.mp (lt_of_le_of_lt hmonth.1 h1)
    omega

theorem yearOf_dayNumber {y m d : ℤ} (hm0 : 1 ≤ m) (hm1 : m ≤ 12) (hd0 : 1 ≤ d) (hd1 : d ≤ monthLength y m) :
    yearOf (dayNumber y m d) = y := by
  unfold yearOf
  rw [civil_dayNumber hm0 hm1 hd0 hd1]

theorem newYear_succ_le (y : ℤ) : newYear (y + 1) ≤ newYear y + 366 := by
  have hyear := yearDays_succ y
  have hnext : newYear (y + 1) = yearDays y + 307 - 719469 := by
    rw [← dayNumber_newYear]
    simp [dayNumber]
    ring
  have hown : newYear y = yearDays (y - 1) + 307 - 719469 := by
    rw [← dayNumber_newYear]
    simp [dayNumber]
    ring
  rw [hnext, hown, hyear]
  split <;> omega

/-! ### Anniversaries -/

/-- The month and the day of a date stand in every year, 29 February aside. -/
theorem civil_stands (hired year : ℤ) :
    1 ≤ (civil hired).2.1 ∧ (civil hired).2.1 ≤ 12 ∧ 1 ≤ (civil hired).2.2 ∧
      ((civil hired).2.2 ≤ monthLength year (civil hired).2.1 ∨
        ((civil hired).2.1 = 2 ∧ (civil hired).2.2 = 29 ∧ isLeapYear year = false)) := by
  obtain ⟨h0, h1, -, hcivil⟩ := monthOf_spec hired
  have hm : (civil hired).2.1 = monthOf hired % 12 + 1 := congrArg (fun c => c.2.1) hcivil
  refine ⟨by omega, by omega, h0, ?_⟩
  unfold lengthOfMonth at h1
  rw [← hm] at h1
  unfold monthLength at h1 ⊢
  by_cases hfeb : (civil hired).2.1 = 2
  · rw [if_pos hfeb] at h1 ⊢
    rcases Bool.eq_false_or_eq_true (isLeapYear year) with hleap | hleap
    · rw [hleap]
      left
      split at h1 <;> simp <;> omega
    · rw [hleap]
      by_cases h29 : (civil hired).2.2 = 29
      · exact .inr ⟨hfeb, h29, rfl⟩
      · left
        split at h1 <;> simp <;> omega
  · rw [if_neg hfeb] at h1 ⊢
    exact .inl h1

theorem anniversary_eq (hired year : ℤ) :
    ∃ d, anniversary hired year = dayNumber year (civil hired).2.1 d ∧ 1 ≤ d ∧
      d ≤ monthLength year (civil hired).2.1 ∧
      (d = (civil hired).2.2 ∨ (d = 28 ∧ (civil hired).2.1 = 2 ∧ (civil hired).2.2 = 29 ∧ isLeapYear year = false)) := by
  obtain ⟨-, -, hd0, hd1⟩ := civil_stands hired year
  unfold anniversary
  simp only
  split
  · rename_i hfeb
    refine ⟨28, by rw [hfeb.1], by decide, ?_, .inr ⟨rfl, hfeb⟩⟩
    unfold monthLength
    rw [if_pos hfeb.1]
    split <;> decide
  · rename_i hfeb
    exact ⟨_, rfl, hd0, hd1.resolve_right hfeb, .inl rfl⟩

/-- The anniversary falls in its year. -/
theorem yearOf_anniversary (hired year : ℤ) : yearOf (anniversary hired year) = year := by
  obtain ⟨hm0, hm1, -, -⟩ := civil_stands hired year
  obtain ⟨d, heq, hd0, hd1, -⟩ := anniversary_eq hired year
  rw [heq]
  exact yearOf_dayNumber hm0 hm1 hd0 hd1

theorem anniversary_bounds (hired year : ℤ) :
    newYear year ≤ anniversary hired year ∧ anniversary hired year < newYear (year + 1) :=
  yearOf_eq_iff.mp (yearOf_anniversary hired year)

/-- The hire date is the anniversary of its own year. -/
theorem anniversary_self (hired : ℤ) : anniversary hired (yearOf hired) = hired := by
  obtain ⟨h0, h1, hday, hcivil⟩ := monthOf_spec hired
  have hy : yearOf hired = monthOf hired / 12 := congrArg Prod.fst hcivil
  have hm : (civil hired).2.1 = monthOf hired % 12 + 1 := congrArg (fun c => c.2.1) hcivil
  have hown : dayNumber (yearOf hired) (civil hired).2.1 (civil hired).2.2 = hired := by
    rw [dayNumber_eq, hy, hm]
    exact hday.symm
  unfold anniversary
  simp only
  rw [if_neg, hown]
  rintro ⟨hfeb, h29, hleap⟩
  unfold lengthOfMonth at h1
  rw [← hm, ← hy, hfeb, h29] at h1
  unfold monthLength at h1
  rw [if_pos rfl, hleap] at h1
  simp at h1

theorem anniversary_lt (hired : ℤ) {y z : ℤ} (h : y < z) : anniversary hired y < anniversary hired z := by
  have hy := (anniversary_bounds hired y).2
  have hz := (anniversary_bounds hired z).1
  have hle : newYear (y + 1) ≤ newYear z := by
    rcases (Int.add_one_le_iff.mpr h).lt_or_eq with hlt | heq
    · exact (newYear_lt_iff.mpr hlt).le
    · rw [heq]
  omega

/-- Two anniversaries are at most 366 days apart. -/
theorem anniversary_succ_le (hired year : ℤ) : anniversary hired (year + 1) ≤ anniversary hired year + 366 := by
  obtain ⟨d, heq, -, hd1, hd⟩ := anniversary_eq hired year
  obtain ⟨e, heq', -, he1, he⟩ := anniversary_eq hired (year + 1)
  have hbefore := yearDays_succ year
  have hafter := yearDays_succ (year + 1)
  rw [heq, heq']
  generalize (civil hired).2.1 = m at *
  generalize (civil hired).2.2 = n at *
  rw [add_sub_cancel_right] at hafter
  unfold dayNumber
  by_cases hm : m ≤ 2
  · simp only [hm, if_true, add_sub_cancel_right]
    rw [hbefore]
    rcases hd with rfl | ⟨rfl, hfeb, h29, hleap⟩
    · rcases he with rfl | ⟨rfl, -, h29, -⟩ <;> split <;> omega
    · rw [hleap]
      rcases he with rfl | ⟨rfl, -, -, -⟩ <;> simp <;> omega
  · simp only [hm, if_false]
    rw [hafter]
    rcases hd with rfl | ⟨-, hfeb, -, -⟩
    · rcases he with rfl | ⟨-, hfeb, -, -⟩
      · split <;> omega
      · omega
    · omega

end Gdx.Timeclock
