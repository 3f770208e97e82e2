import GdxDispatch.Core.ShopCalendar
import GdxDispatch.Lib.TextOrder
import Mathlib.Tactic.IntervalCases
import Mathlib.Tactic.Linarith

/-! The Gregorian calendar both ways: a date's day number, and months counted on one line.

    `civil` reads a day number as a date. Here a date is turned into its day number, the two are inverse, and a month is
    the run of days from its first to the day before the next month's. The years are not bounded as `datetime.date` bounds
    them; where a date is written out, the years are four digits and the texts compare as the days do. -/

namespace Gdx
open Lib

/-- `calendar.isleap`. -/
def isLeapYear (y : ℤ) : Bool := y % 4 = 0 && (y % 100 ≠ 0 || y % 400 = 0)

/-- `calendar.monthrange(y, m)[1]`. -/
def monthLength (y m : ℤ) : ℤ :=
  if m = 2 then (if isLeapYear y then 29 else 28) else if m = 4 ∨ m = 6 ∨ m = 9 ∨ m = 11 then 30 else 31

/-- Days in the years before the one that starts in March of `y`. -/
def yearDays (y : ℤ) : ℤ := 365 * y + y / 4 - y / 100 + y / 400

/-- The day number of a date. -/
def dayNumber (y m d : ℤ) : ℤ :=
  yearDays (if m ≤ 2 then y - 1 else y) + (153 * (if m ≤ 2 then m + 9 else m - 3) + 2) / 5 + d - 719469

example : dayNumber 1970 1 1 = 0 ∧ dayNumber 2024 2 29 = 19782 := by decide +kernel

/-! ### The date of a day number -/

/-- The year of a cycle from its day: `civil` counts the leap days of the years before. -/
theorem yoe_spec (yoe doy : ℤ) (h0 : 0 ≤ yoe) (h1 : yoe ≤ 399) (hd0 : 0 ≤ doy) (hd1 : doy ≤ 365)
    (hleap : doy = 365 → isLeapYear (yoe + 1) = true) (doe : ℤ) (hdoe : doe = 365 * yoe + yoe / 4 - yoe / 100 + doy) :
    (doe - doe / 1460 + doe / 36524 - doe / 146096) / 365 = yoe := by
  have hl : doy = 365 → (yoe + 1) % 4 = 0 ∧ ((yoe + 1) % 100 ≠ 0 ∨ (yoe + 1) % 400 = 0) := by
    intro h
    have := hleap h
    simpa [isLeapYear] using this
  obtain ⟨c, hc⟩ : ∃ c, c = yoe / 100 := ⟨_, rfl⟩
  obtain ⟨b, hb⟩ : ∃ b, b = yoe % 100 / 4 := ⟨_, rfl⟩
  obtain ⟨a, ha⟩ : ∃ a, a = yoe % 4 := ⟨_, rfl⟩
  have hyoe : yoe = 100 * c + 4 * b + a := by omega
  have hc0 : 0 ≤ c := by omega
  have hc3 : c ≤ 3 := by omega
  have hb0 : 0 ≤ b := by omega
  have hb24 : b ≤ 24 := by omega
  have ha0 : 0 ≤ a := by omega
  have ha3 : a ≤ 3 := by omega
  have hq4 : yoe / 4 = 25 * c + b := by omega
  have hdoe' : doe = 365 * yoe + 24 * c + b + doy := by omega
  have hlast : doy = 365 → a = 3 ∧ (b = 24 → c = 3) := by
    intro h
    obtain ⟨h4, h100⟩ := hl h
    constructor
    · omega
    · intro h24
      omega
  have hq1 : doe / 1460 = 25 * c + b ∨ doe / 1460 = 25 * c + b + 1 := by omega
  have hq2 : doe / 36524 = c ∨ (doe / 36524 = c + 1 ∧ doy = 365 ∧ c = 3 ∧ b = 24) := by
    by_cases h : doy = 365
    · obtain ⟨rfl, h24⟩ := hlast h
      by_cases h24' : b = 24
      · right
        have := h24 h24'
        omega
      · left
        omega
    · left
      omega
  have hq3 : doe / 146096 = 0 ∨ (doe / 146096 = 1 ∧ doe / 36524 = 4) := by omega
  have hlast' : doy = 365 → doe / 1460 = 25 * c + b + 1 := by
    intro h
    obtain ⟨rfl, -⟩ := hlast h
    omega
  omega

/-- The month from the day of a year that starts in March. -/
theorem march_spec (m d doy : ℤ) (h0 : 0 ≤ m) (h1 : m ≤ 11) (hd0 : 1 ≤ d)
    (hd1 : d ≤ if m = 11 then 29 else if m = 1 ∨ m = 3 ∨ m = 6 ∨ m = 8 then 30 else 31)
    (hdoy : doy = (153 * m + 2) / 5 + d - 1) : (5 * doy + 2) / 153 = m ∧ 0 ≤ doy ∧ doy ≤ 365 := by
  interval_cases m <;> simp at hd1 <;> omega

theorem yearDays_cycle (yy : ℤ) :
    yearDays yy = 146097 * (yy / 400) + (365 * (yy % 400) + yy % 400 / 4 - yy % 400 / 100) := by
  have h4 : yy / 4 = 100 * (yy / 400) + yy % 400 / 4 := by omega
  have h100 : yy / 100 = 4 * (yy / 400) + yy % 400 / 100 := by omega
  unfold yearDays
  omega

theorem cycle_bounds {r : ℤ} (h0 : 0 ≤ r) (h1 : r ≤ 399) :
    0 ≤ 365 * r + r / 4 - r / 100 ∧ 365 * r + r / 4 - r / 100 + 365 < 146097 := by
  constructor
  · omega
  · rcases h1.lt_or_eq with hlt | rfl
    · omega
    · decide

theorem march_month {y m d mp : ℤ} (hm0 : 1 ≤ m) (hm1 : m ≤ 12) (hd1 : d ≤ monthLength y m)
    (hmp : mp = if m ≤ 2 then m + 9 else m - 3) :
    d ≤ (if mp = 11 then 29 else if mp = 1 ∨ mp = 3 ∨ mp = 6 ∨ mp = 8 then 30 else 31) ∧
      (mp = 11 → d = 29 → m = 2 ∧ isLeapYear y = true) := by
  unfold monthLength at hd1
  constructor
  · split_ifs at hd1 ⊢ <;> omega
  · intro h11 h29
    have hm2 : m = 2 := by
      split_ifs at hmp <;> omega
    refine ⟨hm2, ?_⟩
    by_contra hnot
    rw [if_pos hm2, if_neg hnot] at hd1
    omega

/-- A date is read back from its day number. -/
theorem civil_dayNumber {y m d : ℤ} (hm0 : 1 ≤ m) (hm1 : m ≤ 12) (hd0 : 1 ≤ d) (hd1 : d ≤ monthLength y m) :
    civil (dayNumber y m d) = (y, m, d) := by
  obtain ⟨yy, hyy⟩ : ∃ yy, yy = if m ≤ 2 then y - 1 else y := ⟨_, rfl⟩
  obtain ⟨mp, hmp⟩ : ∃ mp, mp = if m ≤ 2 then m + 9 else m - 3 := ⟨_, rfl⟩
  obtain ⟨hdm, hfeb⟩ := march_month hm0 hm1 hd1 hmp
  have hmp0 : 0 ≤ mp := by split_ifs at hmp <;> omega
  have hmp1 : mp ≤ 11 := by split_ifs at hmp <;> omega
  have hmonth' : (if mp < 10 then mp + 3 else mp - 9) = m := by
    split_ifs at hmp ⊢ <;> omega
  obtain ⟨doy, hdoy⟩ : ∃ doy, doy = (153 * mp + 2) / 5 + d - 1 := ⟨_, rfl⟩
  have hdom : doy - (153 * mp + 2) / 5 + 1 = d := by rw [hdoy]; ring
  obtain ⟨hmonth, hdoy0, hdoy1⟩ := march_spec mp d doy hmp0 hmp1 hd0 hdm hdoy
  have hday : dayNumber y m d + 719468 = yearDays yy + doy := by
    unfold dayNumber
    rw [← hyy, ← hmp, hdoy]
    ring
  have hr0 : 0 ≤ yy % 400 := Int.emod_nonneg _ (by decide)
  have hr1 : yy % 400 ≤ 399 := by omega
  have hleap : doy = 365 → isLeapYear (yy % 400 + 1) = true := by
    intro h
    have h11 : mp = 11 := by omega
    obtain ⟨rfl, hy⟩ := hfeb h11 (by omega)
    rw [if_pos (by decide)] at hyy
    simp only [isLeapYear, Bool.and_eq_true, Bool.or_eq_true, decide_eq_true_eq] at hy ⊢
    omega
  obtain ⟨hlow, hhigh⟩ := cycle_bounds hr0 hr1
  have hyoe := yoe_spec (yy % 400) doy hr0 hr1 hdoy0 hdoy1 hleap _ rfl
  have hyear : yy % 400 + yy / 400 * 400 + (if m ≤ 2 then 1 else 0) = y := by
    split_ifs at hyy ⊢ <;> omega
  rw [yearDays_cycle] at hday
  generalize yy / 400 = e at *
  generalize yy % 400 = r at *
  have hdiv : (dayNumber y m d + 719468) / 146097 = e := by
    rw [hday]
    omega
  have hmod : (dayNumber y m d + 719468) % 146097 = 365 * r + r / 4 - r / 100 + doy := by
    rw [hday]
    omega
  have hrest : 365 * r + r / 4 - r / 100 + doy - (365 * r + r / 4 - r / 100) = doy := by ring
  unfold civil
  simp only [hdiv, hmod, hyoe, hrest, hmonth, hmonth', hyear, hdom]

/-! ### Months on one line -/

/-- The first day of a month, counted in months from the year 0. -/
def firstOfMonth (t : ℤ) : ℤ := dayNumber (t / 12) (t % 12 + 1) 1

/-- The days of a month, counted the same way. -/
def lengthOfMonth (t : ℤ) : ℤ := monthLength (t / 12) (t % 12 + 1)

theorem monthLength_bounds (y m : ℤ) : 28 ≤ monthLength y m ∧ monthLength y m ≤ 31 := by
  unfold monthLength
  split_ifs <;> decide

theorem lengthOfMonth_bounds (t : ℤ) : 28 ≤ lengthOfMonth t ∧ lengthOfMonth t ≤ 31 := monthLength_bounds _ _

theorem yearDays_succ (y : ℤ) : yearDays y = yearDays (y - 1) + (if isLeapYear y then 366 else 365) := by
  unfold yearDays
  by_cases hleap : isLeapYear y = true
  · rw [if_pos hleap]
    simp only [isLeapYear, Bool.and_eq_true, Bool.or_eq_true, decide_eq_true_eq] at hleap
    omega
  · rw [if_neg hleap]
    simp only [isLeapYear, Bool.and_eq_true, Bool.or_eq_true, decide_eq_true_eq] at hleap
    omega

theorem dayNumber_eq (y m d : ℤ) : dayNumber y m d = dayNumber y m 1 + (d - 1) := by
  unfold dayNumber
  ring

/-- The month after starts when the month has run its days. -/
theorem firstOfMonth_succ (t : ℤ) : firstOfMonth (t + 1) = firstOfMonth t + lengthOfMonth t := by
  unfold firstOfMonth lengthOfMonth
  obtain ⟨y, hy⟩ : ∃ y, y = t / 12 := ⟨_, rfl⟩
  obtain ⟨m, hm⟩ : ∃ m, m = t % 12 := ⟨_, rfl⟩
  have hm0 : 0 ≤ m := by omega
  have hm1 : m ≤ 11 := by omega
  rcases hm1.lt_or_eq with hlt | heq
  · have hy' : (t + 1) / 12 = y := by omega
    have hm' : (t + 1) % 12 = m + 1 := by omega
    rw [hy', hm', ← hy, ← hm]
    have hsucc := yearDays_succ y
    unfold dayNumber monthLength
    interval_cases m <;> simp <;> try omega
    rw [hsucc]
    split_ifs <;> omega
  · have hy' : (t + 1) / 12 = y + 1 := by omega
    have hm' : (t + 1) % 12 = 0 := by omega
    rw [hy', hm', ← hy, ← hm, heq]
    simp [dayNumber, monthLength]
    omega

/-- Months follow each other without a gap. -/
theorem firstOfMonth_add_le (t : ℤ) (k : ℕ) : firstOfMonth t + 28 * k ≤ firstOfMonth (t + k) := by
  induction k with
  | zero => simp
  | succ k ih =>
    have hnext := firstOfMonth_succ (t + k)
    have hlength := (lengthOfMonth_bounds (t + k)).1
    push_cast
    rw [← add_assoc]
    omega

theorem firstOfMonth_lt_iff {t u : ℤ} : firstOfMonth t < firstOfMonth u ↔ t < u := by
  have hlt : ∀ {t u : ℤ}, t < u → firstOfMonth t < firstOfMonth u := by
    intro t u h
    obtain ⟨k, hk⟩ := Int.eq_ofNat_of_zero_le (sub_nonneg.mpr h.le)
    have hle := firstOfMonth_add_le t k
    rw [← hk, add_sub_cancel] at hle
    omega
  refine ⟨fun h => ?_, hlt⟩
  by_contra hnot
  rcases (not_lt.mp hnot).lt_or_eq with hgt | rfl
  · exact absurd (hlt hgt) h.not_gt
  · exact lt_irrefl _ h

/-- The month a day falls in. -/
def monthOf (n : ℤ) : ℤ := 12 * (civil n).1 + ((civil n).2.1 - 1)

/-- A day of a month, by its number in the month. -/
theorem civil_firstOfMonth_add {t d : ℤ} (h0 : 1 ≤ d) (h1 : d ≤ lengthOfMonth t) :
    civil (firstOfMonth t + (d - 1)) = (t / 12, t % 12 + 1, d) := by
  unfold firstOfMonth
  rw [← dayNumber_eq]
  exact civil_dayNumber (by omega) (by omega) h0 h1

theorem exists_month (n : ℤ) : ∃ t, firstOfMonth t ≤ n ∧ n < firstOfMonth (t + 1) := by
  induction n using Int.induction_on with
  | zero => exact ⟨12 * 1970, by decide +kernel, by decide +kernel⟩
  | succ n ih =>
    obtain ⟨t, hlow, hhigh⟩ := ih
    rcases (Int.add_one_le_iff.mpr hhigh).lt_or_eq with hlt | heq
    · exact ⟨t, by omega, hlt⟩
    · refine ⟨t + 1, heq.ge, ?_⟩
      rw [heq]
      exact firstOfMonth_lt_iff.mpr (lt_add_one _)
  | pred n ih =>
    obtain ⟨t, hlow, hhigh⟩ := ih
    rcases hlow.lt_or_eq with hlt | heq
    · exact ⟨t, by omega, by omega⟩
    · refine ⟨t - 1, ?_, ?_⟩
      · have := firstOfMonth_lt_iff.mpr (sub_one_lt t)
        omega
      · rw [sub_add_cancel]
        omega

/-- A day as its month and its number in the month. -/
theorem monthOf_spec (n : ℤ) :
    1 ≤ (civil n).2.2 ∧ (civil n).2.2 ≤ lengthOfMonth (monthOf n) ∧
      n = firstOfMonth (monthOf n) + ((civil n).2.2 - 1) ∧
      civil n = (monthOf n / 12, monthOf n % 12 + 1, (civil n).2.2) := by
  obtain ⟨t, hlow, hhigh⟩ := exists_month n
  rw [firstOfMonth_succ] at hhigh
  have hn : n = firstOfMonth t + (n - firstOfMonth t + 1 - 1) := by ring
  have hcivil := civil_firstOfMonth_add (t := t) (d := n - firstOfMonth t + 1) (by omega) (by omega)
  rw [← hn] at hcivil
  have hmonth : monthOf n = t := by
    unfold monthOf
    rw [hcivil]
    simp only
    omega
  rw [hmonth, hcivil]
  simp only
  exact ⟨by omega, by omega, by omega, trivial⟩

theorem monthOf_eq_iff {n t : ℤ} : monthOf n = t ↔ firstOfMonth t ≤ n ∧ n < firstOfMonth (t + 1) := by
  obtain ⟨h0, h1, hn, -⟩ := monthOf_spec n
  have hnext := firstOfMonth_succ (monthOf n)
  constructor
  · rintro rfl
    omega
  · rintro ⟨hlow, hhigh⟩
    have hle : monthOf n < t + 1 := firstOfMonth_lt_iff.mp (by omega)
    have hge : t < monthOf n + 1 := firstOfMonth_lt_iff.mp (by omega)
    omega

theorem monthOf_firstOfMonth_add {t d : ℤ} (h0 : 1 ≤ d) (h1 : d ≤ lengthOfMonth t) :
    monthOf (firstOfMonth t + (d - 1)) = t := by
  rw [monthOf_eq_iff, firstOfMonth_succ]
  constructor <;> omega

/-! ### Dates as text -/

/-- The days `datetime.date` holds. -/
def IsDate (day : ℤ) : Prop := 1 ≤ (civil day).1 ∧ (civil day).1 ≤ 9999

instance (day : ℤ) : Decidable (IsDate day) := inferInstanceAs (Decidable (_ ∧ _))

/-- Days compare as year, month and day of the month do. -/
theorem day_lt_iff (a b : ℤ) :
    a < b ↔ (civil a).1 < (civil b).1 ∨ ((civil a).1 = (civil b).1 ∧
      ((civil a).2.1 < (civil b).2.1 ∨ ((civil a).2.1 = (civil b).2.1 ∧ (civil a).2.2 < (civil b).2.2))) := by
  obtain ⟨ha0, ha1, ha, hcivila⟩ := monthOf_spec a
  obtain ⟨hb0, hb1, hb, hcivilb⟩ := monthOf_spec b
  have hnexta := firstOfMonth_succ (monthOf a)
  have hnextb := firstOfMonth_succ (monthOf b)
  have hle : monthOf a < monthOf b → firstOfMonth (monthOf a + 1) ≤ firstOfMonth (monthOf b) := by
    intro h
    rcases (Int.add_one_le_iff.mpr h).lt_or_eq with hlt | heq
    · exact (firstOfMonth_lt_iff.mpr hlt).le
    · rw [heq]
  have hge : monthOf b < monthOf a → firstOfMonth (monthOf b + 1) ≤ firstOfMonth (monthOf a) := by
    intro h
    rcases (Int.add_one_le_iff.mpr h).lt_or_eq with hlt | heq
    · exact (firstOfMonth_lt_iff.mpr hlt).le
    · rw [heq]
  have hya : (civil a).1 = monthOf a / 12 := congrArg Prod.fst hcivila
  have hma : (civil a).2.1 = monthOf a % 12 + 1 := congrArg (fun c => c.2.1) hcivila
  have hyb : (civil b).1 = monthOf b / 12 := congrArg Prod.fst hcivilb
  have hmb : (civil b).2.1 = monthOf b % 12 + 1 := congrArg (fun c => c.2.1) hcivilb
  rcases lt_trichotomy (monthOf a) (monthOf b) with hlt | heq | hgt
  · have := hle hlt
    omega
  · rw [heq] at ha hya hma
    omega
  · have := hge hgt
    omega

theorem isoformat_toList (day : ℤ) :
    (isoformat day).toList = paddedNumeral 4 (civil day).1.natAbs ++
      '-' :: (paddedNumeral 2 (civil day).2.1.natAbs ++ '-' :: paddedNumeral 2 (civil day).2.2.natAbs) := by
  simp [isoformat, padded, paddedNumeral]

theorem civil_natAbs_lt {day : ℤ} (h : IsDate day) :
    (civil day).1.natAbs < 10 ^ 4 ∧ (civil day).2.1.natAbs < 10 ^ 2 ∧ (civil day).2.2.natAbs < 10 ^ 2 := by
  obtain ⟨h0, h1, -, hcivil⟩ := monthOf_spec day
  have hlength := lengthOfMonth_bounds (monthOf day)
  have hm : (civil day).2.1 = monthOf day % 12 + 1 := congrArg (fun c => c.2.1) hcivil
  unfold IsDate at h
  omega

/-- A text that starts with a date stands before another date's text exactly when its own date is before it. -/
theorem isoformat_append_lt_iff {a b : ℤ} (ha : IsDate a) (hb : IsDate b) (rest : Text) :
    (isoformat a).toList ++ rest < (isoformat b).toList ↔ a < b := by
  obtain ⟨hya, hma, hda⟩ := civil_natAbs_lt ha
  obtain ⟨hyb, hmb, hdb⟩ := civil_natAbs_lt hb
  obtain ⟨ha0, -, -, hcivila⟩ := monthOf_spec a
  obtain ⟨hb0, -, -, hcivilb⟩ := monthOf_spec b
  have hma0 : (civil a).2.1 = monthOf a % 12 + 1 := congrArg (fun c => c.2.1) hcivila
  have hmb0 : (civil b).2.1 = monthOf b % 12 + 1 := congrArg (fun c => c.2.1) hcivilb
  rw [isoformat_toList, isoformat_toList, List.append_assoc, List.cons_append, List.append_assoc, List.cons_append,
    append_lt_append_iff (by rw [paddedNumeral_length (by decide) hya, paddedNumeral_length (by decide) hyb]),
    List.cons_lt_cons_self,
    append_lt_append_iff (by rw [paddedNumeral_length (by decide) hma, paddedNumeral_length (by decide) hmb]),
    List.cons_lt_cons_self, paddedNumeral_lt_iff (by decide) hya hyb, paddedNumeral_inj (by decide) hya hyb,
    paddedNumeral_lt_iff (by decide) hma hmb, paddedNumeral_inj (by decide) hma hmb]
  have hrest := append_lt_append_iff (a := paddedNumeral 2 (civil a).2.2.natAbs)
    (b := paddedNumeral 2 (civil b).2.2.natAbs)
    (by rw [paddedNumeral_length (by decide) hda, paddedNumeral_length (by decide) hdb]) rest []
  rw [List.append_nil] at hrest
  rw [hrest, paddedNumeral_lt_iff (by decide) hda hdb, day_lt_iff]
  simp only [List.not_lt_nil, and_false, or_false]
  unfold IsDate at ha hb
  omega

end Gdx
