import GdxDispatch.Core.Calendar
import GdxDispatch.Lib.Tiling
import GdxDispatch.Lib.Words

/-! Pay periods (`core/pay_periods.py`).

    A cadence cuts the shop's calendar into periods: weeks from Monday or from Sunday, fortnights counted from an anchor,
    and halves of a month. Days are day numbers. -/

namespace Gdx.PayPeriods

open Lib

inductive Cadence where
  | weeklyMon | weeklySun | biweekly | semimonthly
  deriving DecidableEq, Repr

/-- `CADENCES`, as stored. -/
def CADENCES : List (String × Cadence) :=
  [("weekly_mon", .weeklyMon), ("weekly_sun", .weeklySun), ("biweekly", .biweekly), ("semimonthly", .semimonthly)]

def DEFAULT_CADENCE : Cadence := .weeklyMon

/-- What Python says of blanks and of lower case. -/
structure PyText where
  isSpace : Char → Bool
  lower : Text → Text

/-- An unknown or missing cadence is the default. -/
def normalizeCadence (py : PyText) (value : Option Text) : Cadence :=
  let text := py.lower (trim py.isSpace (value.getD []))
  ((CADENCES.find? fun c => c.1.toList == text).map (·.2)).getD DEFAULT_CADENCE

/-- Both ends are inclusive. -/
structure PayPeriod where
  start : ℤ
  endDay : ℤ
  deriving DecidableEq, Repr

def PayPeriod.contains (p : PayPeriod) (day : ℤ) : Bool := p.start ≤ day && day ≤ p.endDay

/-- `date.weekday`: Monday is 0. -/
def weekday (day : ℤ) : ℤ := (day + 3) % 7

/-- `PayPeriodUnconfigured`. -/
def NO_ANCHOR : String := "Biweekly pay periods need a start date to count from — set one in Settings → Pay periods."

/-- `period_containing`, of a normalized cadence and an anchor already read as a date. -/
def periodContaining (cadence : Cadence) (anchor : Option ℤ) (day : ℤ) : Except String PayPeriod :=
  match cadence, anchor with
  | .weeklyMon, _ => .ok ⟨day - weekday day, day - weekday day + 6⟩
  | .weeklySun, _ => .ok ⟨day - (weekday day + 1) % 7, day - (weekday day + 1) % 7 + 6⟩
  | .biweekly, none => .error NO_ANCHOR
  | .biweekly, some anchor =>
    let index := (day - anchor) / 14
    .ok ⟨anchor + 14 * index, anchor + 14 * index + 13⟩
  | .semimonthly, _ =>
    let (y, m, d) := civil day
    if d ≤ 15 then .ok ⟨dayNumber y m 1, dayNumber y m 15⟩ else .ok ⟨dayNumber y m 16, dayNumber y m (monthLength y m)⟩

def previousPeriod (cadence : Cadence) (anchor : Option ℤ) (period : PayPeriod) : Except String PayPeriod :=
  periodContaining cadence anchor (period.start - 1)

def nextPeriod (cadence : Cadence) (anchor : Option ℤ) (period : PayPeriod) : Except String PayPeriod :=
  periodContaining cadence anchor (period.endDay + 1)

/-- The period that closed the day before. -/
def isCloseDay (cadence : Cadence) (anchor : Option ℤ) (day : ℤ) : Except String (Option PayPeriod) :=
  (periodContaining cadence anchor (day - 1)).map fun period => if period.endDay = day - 1 then some period else none

example : periodContaining .semimonthly none (dayNumber 2024 2 20) = .ok ⟨dayNumber 2024 2 16, dayNumber 2024 2 29⟩ := by
  decide +kernel

example : periodContaining .biweekly (some 4) 3 = .ok ⟨-10, 3⟩ := by decide

/-! ### The four rules -/

/-- A biweekly shop has told the day its fortnights are counted from. -/
def Configured (cadence : Cadence) (anchor : Option ℤ) : Prop := cadence = .biweekly → anchor.isSome = true

theorem emod_within {length shift d x : ℤ} (h0 : d - (d - shift) % length ≤ x)
    (h1 : x ≤ d - (d - shift) % length + (length - 1)) : (x - shift) % length = x - (d - (d - shift) % length) := by
  have hsum : x - shift = x - (d - (d - shift) % length) + length * ((d - shift) / length) := by
    have := Int.emod_add_mul_ediv (d - shift) length
    omega
  rw [hsum, Int.add_mul_emod_self_left, Int.emod_eq_of_lt (by omega) (by omega)]

/-- Periods of one length, counted from `shift`. -/
def spans (length : ℤ) (hlength : 0 < length) (shift : ℤ) : Tiling where
  first d := d - (d - shift) % length
  last d := d - (d - shift) % length + (length - 1)
  first_le d := by
    have := Int.emod_nonneg (d - shift) hlength.ne'
    omega
  le_last d := by
    have := Int.emod_lt_of_pos (d - shift) hlength
    omega
  same_first h0 h1 := by
    rw [emod_within h0 h1]
    ring
  same_last h0 h1 := by
    rw [emod_within h0 h1]
    ring

/-- The first day of the half of the month, and the last. -/
def halfStart (day : ℤ) : ℤ :=
  if day - firstOfMonth (monthOf day) < 15 then firstOfMonth (monthOf day) else firstOfMonth (monthOf day) + 15

def halfEnd (day : ℤ) : ℤ :=
  if day - firstOfMonth (monthOf day) < 15 then firstOfMonth (monthOf day) + 14
  else firstOfMonth (monthOf day) + (lengthOfMonth (monthOf day) - 1)

theorem firstOfMonth_monthOf_le (day : ℤ) :
    firstOfMonth (monthOf day) ≤ day ∧ day < firstOfMonth (monthOf day) + lengthOfMonth (monthOf day) := by
  obtain ⟨h0, h1, hday, -⟩ := monthOf_spec day
  omega

/-- The days of a half are of one month and stand in the same half of it. -/
theorem half_within {d x : ℤ} (h0 : halfStart d ≤ x) (h1 : x ≤ halfEnd d) :
    monthOf x = monthOf d ∧ (x - firstOfMonth (monthOf d) < 15 ↔ d - firstOfMonth (monthOf d) < 15) := by
  have hmonth := firstOfMonth_monthOf_le d
  have hlength := (lengthOfMonth_bounds (monthOf d)).1
  rw [monthOf_eq_iff, firstOfMonth_succ]
  unfold halfStart at h0
  unfold halfEnd at h1
  split at h0 <;> split at h1 <;> omega

/-- The halves of the months. -/
def halves : Tiling where
  first := halfStart
  last := halfEnd
  first_le d := by
    have hmonth := firstOfMonth_monthOf_le d
    unfold halfStart
    split <;> omega
  le_last d := by
    have hmonth := firstOfMonth_monthOf_le d
    unfold halfEnd
    split <;> omega
  same_first h0 h1 := by
    obtain ⟨hmonth, hhalf⟩ := half_within h0 h1
    unfold halfStart
    rw [hmonth, if_congr hhalf rfl rfl]
  same_last h0 h1 := by
    obtain ⟨hmonth, hhalf⟩ := half_within h0 h1
    unfold halfEnd
    rw [hmonth, if_congr hhalf rfl rfl]

/-- The tiling of a cadence. -/
def tiling (cadence : Cadence) (anchor : Option ℤ) : Tiling :=
  match cadence with
  | .weeklyMon => spans 7 (by decide) (-3)
  | .weeklySun => spans 7 (by decide) (-4)
  | .biweekly => spans 14 (by decide) (anchor.getD 0)
  | .semimonthly => halves

/-- Every rule is a tiling of the calendar. -/
theorem periodContaining_eq {cadence : Cadence} {anchor : Option ℤ} (hconfig : Configured cadence anchor) (day : ℤ) :
    periodContaining cadence anchor day =
      .ok ⟨(tiling cadence anchor).first day, (tiling cadence anchor).last day⟩ := by
  cases cadence with
  | weeklyMon =>
    simp only [periodContaining, tiling, spans, weekday]
    congr 2
  | weeklySun =>
    simp only [periodContaining, tiling, spans, weekday]
    congr 2 <;> omega
  | biweekly =>
    obtain ⟨start, rfl⟩ := Option.isSome_iff_exists.mp (hconfig rfl)
    simp only [periodContaining, tiling, spans, Option.getD_some]
    congr 2 <;> omega
  | semimonthly =>
    obtain ⟨h0, h1, hday, hcivil⟩ := monthOf_spec day
    obtain ⟨d, hd⟩ : ∃ d, d = (civil day).2.2 := ⟨_, rfl⟩
    rw [← hd] at h0 h1 hday hcivil
    simp only [periodContaining, tiling, halves, hcivil]
    have hfirst : ∀ k, dayNumber (monthOf day / 12) (monthOf day % 12 + 1) k = firstOfMonth (monthOf day) + (k - 1) :=
      fun k => dayNumber_eq _ _ k
    rw [hfirst, hfirst, hfirst, hfirst]
    unfold halfStart halfEnd
    change _ = Except.ok (PayPeriod.mk _ _)
    have hlength : monthLength (monthOf day / 12) (monthOf day % 12 + 1) = lengthOfMonth (monthOf day) := rfl
    rw [hlength]
    split
    · rw [if_pos (by omega), if_pos (by omega)]
      congr 2
      omega
    · rw [if_neg (by omega), if_neg (by omega)]
      congr 2

/-! ### Neighbours and the close day -/

section Periods
variable {cadence : Cadence} {anchor : Option ℤ}

/-- A period of the shop's calendar. -/
def IsPeriod (cadence : Cadence) (anchor : Option ℤ) (period : PayPeriod) : Prop :=
  ∃ day, periodContaining cadence anchor day = .ok period

theorem contains_iff {period : PayPeriod} {day : ℤ} :
    period.contains day = true ↔ period.start ≤ day ∧ day ≤ period.endDay := by
  simp [PayPeriod.contains]

theorem containing_contains (hconfig : Configured cadence anchor) {day : ℤ} {period : PayPeriod}
    (h : periodContaining cadence anchor day = .ok period) : period.contains day = true := by
  rw [periodContaining_eq hconfig, Except.ok.injEq] at h
  subst h
  exact contains_iff.mpr ⟨Tiling.first_le _ _, Tiling.le_last _ _⟩

/-- The period of a day is the period of every day in it. -/
theorem containing_same (hconfig : Configured cadence anchor) {period : PayPeriod}
    (h : IsPeriod cadence anchor period) {day : ℤ} (hday : period.contains day = true) :
    periodContaining cadence anchor day = .ok period := by
  obtain ⟨d, hd⟩ := h
  rw [periodContaining_eq hconfig, Except.ok.injEq] at hd
  subst hd
  obtain ⟨h0, h1⟩ := contains_iff.mp hday
  rw [periodContaining_eq hconfig, Tiling.same_first _ h0 h1, Tiling.same_last _ h0 h1]

/-- The next period starts the day after, and the one before it is this one. -/
theorem next_spec (hconfig : Configured cadence anchor) {period : PayPeriod} (h : IsPeriod cadence anchor period) :
    ∃ next, nextPeriod cadence anchor period = .ok next ∧ next.start = period.endDay + 1 ∧
      previousPeriod cadence anchor next = .ok period := by
  obtain ⟨d, hd⟩ := h
  rw [periodContaining_eq hconfig, Except.ok.injEq] at hd
  subst hd
  refine ⟨_, periodContaining_eq hconfig _, Tiling.first_succ_last _ _, ?_⟩
  unfold previousPeriod
  simp only
  rw [Tiling.first_succ_last, add_sub_cancel_right, periodContaining_eq hconfig, Tiling.first_last,
    Tiling.same_last _ ((Tiling.first_le _ d).trans (Tiling.le_last _ d)) le_rfl]

/-- The period before ends the day before, and the next one after it is this one. -/
theorem previous_spec (hconfig : Configured cadence anchor) {period : PayPeriod} (h : IsPeriod cadence anchor period) :
    ∃ previous, previousPeriod cadence anchor period = .ok previous ∧ previous.endDay = period.start - 1 ∧
      nextPeriod cadence anchor previous = .ok period := by
  obtain ⟨d, hd⟩ := h
  rw [periodContaining_eq hconfig, Except.ok.injEq] at hd
  subst hd
  refine ⟨_, periodContaining_eq hconfig _, Tiling.last_pred_first _ _, ?_⟩
  unfold nextPeriod
  simp only
  rw [Tiling.last_pred_first, sub_add_cancel, periodContaining_eq hconfig, Tiling.last_first,
    Tiling.same_first _ le_rfl ((Tiling.first_le _ d).trans (Tiling.le_last _ d))]

/-- A period closes on the day after its last, and on no other day. -/
theorem closeDay_iff (hconfig : Configured cadence anchor) {period : PayPeriod} (h : IsPeriod cadence anchor period)
    (day : ℤ) : isCloseDay cadence anchor day = .ok (some period) ↔ day = period.endDay + 1 := by
  obtain ⟨d, hd⟩ := h
  rw [periodContaining_eq hconfig, Except.ok.injEq] at hd
  subst hd
  unfold isCloseDay
  rw [periodContaining_eq hconfig]
  simp only [Except.map]
  constructor
  · intro hclose
    split at hclose
    · rename_i heq
      simp only [Except.ok.injEq, Option.some.injEq, PayPeriod.mk.injEq] at hclose
      omega
    · simp at hclose
  · rintro rfl
    rw [add_sub_cancel_right, Tiling.first_last,
      Tiling.same_last _ ((Tiling.first_le _ d).trans (Tiling.le_last _ d)) le_rfl, if_pos rfl]

end Periods

end Gdx.PayPeriods
