import GdxDispatch.Timeclock.Vacation

/-! Vacation years tile the calendar, and each vacation day is counted in one of them. -/

namespace Gdx.Timeclock

open Lib PayPeriods

/-! ### The years of one person -/

theorem countsFromAnniversary_some {policy : Option Text} {hireDate : Option ℤ} {on hired : ℤ}
    (h : countsFromAnniversary policy hireDate on = some hired) :
    vacationYearPolicyOut policy = .hireAnniversary ∧ hireDate = some hired ∧ hired ≤ on := by
  unfold countsFromAnniversary at h
  split at h
  · rename_i hpolicy
    obtain ⟨hhired, hle⟩ := Option.filter_eq_some_iff.mp h
    exact ⟨hpolicy, hhired, by simpa using hle⟩
  · cases h

theorem countsFromAnniversary_of_le {policy : Option Text} {hired on : ℤ}
    (hpolicy : vacationYearPolicyOut policy = .hireAnniversary) (hle : hired ≤ on) :
    countsFromAnniversary policy (some hired) on = some hired := by
  unfold countsFromAnniversary
  rw [if_pos hpolicy]
  simp [Option.filter, hle]

/-- From the hire date on, the year runs from one anniversary to the day before the next. -/
theorem window_hired {policy : Option Text} {hireDate : Option ℤ} {on hired : ℤ}
    (h : countsFromAnniversary policy hireDate on = some hired) :
    ∃ k, yearOf hired ≤ k ∧ anniversary hired k ≤ on ∧ on < anniversary hired (k + 1) ∧
      vacationWindow policy hireDate on = (anniversary hired k, anniversary hired (k + 1) - 1) := by
  obtain ⟨-, -, hle⟩ := countsFromAnniversary_some h
  have hyear := yearOf_eq_iff.mp (rfl : yearOf on = yearOf on)
  have hyears : yearOf hired ≤ yearOf on := by
    have hh := yearOf_eq_iff.mp (rfl : yearOf hired = yearOf hired)
    by_contra hlt
    have hnext := newYear_lt_iff.mpr (not_le.mp hlt)
    rcases (Int.add_one_le_iff.mpr (not_le.mp hlt)).lt_or_eq with h' | h'
    · have := newYear_lt_iff.mpr h'
      omega
    · rw [h'] at hyear
      omega
  have hbounds := anniversary_bounds hired (yearOf on)
  have hnext := anniversary_bounds hired (yearOf on + 1)
  have hself := anniversary_self hired
  unfold vacationWindow vacationYearStart
  simp only [h]
  by_cases hstart : anniversary hired (yearOf on) ≤ on
  · rw [if_pos hstart, yearOf_anniversary]
    exact ⟨yearOf on, hyears, hstart, by omega, rfl⟩
  · rw [if_neg hstart, yearOf_anniversary]
    have hbefore := anniversary_bounds hired (yearOf on - 1)
    rw [sub_add_cancel] at hbefore ⊢
    have hlt : yearOf hired < yearOf on := by
      rcases hyears.lt_or_eq with hlt | heq
      · exact hlt
      · rw [heq] at hself
        omega
    exact ⟨yearOf on - 1, by omega, by omega, by rw [sub_add_cancel]; omega, by rw [sub_add_cancel]⟩

/-- The last day of a year that is not counted from the hire date. -/
def calendarEnd (policy : Option Text) (hireDate : Option ℤ) (year : ℤ) : ℤ :=
  match (if vacationYearPolicyOut policy = .hireAnniversary then hireDate.filter (yearOf · = year) else none) with
  | none => newYear (year + 1) - 1
  | some hired => hired - 1

/-- Before the hire date, the year is the calendar year, up to the day before the hire date. -/
theorem window_calendar {policy : Option Text} {hireDate : Option ℤ} {on : ℤ}
    (h : countsFromAnniversary policy hireDate on = none) :
    vacationWindow policy hireDate on = (newYear (yearOf on), calendarEnd policy hireDate (yearOf on)) := by
  unfold vacationWindow vacationYearStart calendarEnd
  simp only [h, dayNumber_newYear]
  generalize (if vacationYearPolicyOut policy = .hireAnniversary then hireDate.filter (yearOf · = yearOf on) else none) =
    truncated
  cases truncated with
  | none => rw [dayNumber_yearEnd]
  | some hired => rfl

theorem hired_after {policy : Option Text} {hired on : ℤ} (h : countsFromAnniversary policy (some hired) on = none)
    (hpolicy : vacationYearPolicyOut policy = .hireAnniversary) : on < hired := by
  by_contra hle
  rw [countsFromAnniversary_of_le hpolicy (not_lt.mp hle)] at h
  cases h

/-- A calendar year reaches its own end, which is before the hire date. -/
theorem calendarEnd_spec {policy : Option Text} {hireDate : Option ℤ} {on : ℤ}
    (h : countsFromAnniversary policy hireDate on = none) :
    on ≤ calendarEnd policy hireDate (yearOf on) ∧ calendarEnd policy hireDate (yearOf on) < newYear (yearOf on + 1) ∧
      ∀ x, x ≤ calendarEnd policy hireDate (yearOf on) → countsFromAnniversary policy hireDate x = none := by
  have hyear := yearOf_eq_iff.mp (rfl : yearOf on = yearOf on)
  unfold calendarEnd
  by_cases hpolicy : vacationYearPolicyOut policy = .hireAnniversary
  · rw [if_pos hpolicy]
    cases hireDate with
    | none =>
      refine ⟨by simp; omega, by simp, fun x _ => ?_⟩
      unfold countsFromAnniversary
      rw [if_pos hpolicy]
      rfl
    | some hired =>
      have hafter := hired_after h hpolicy
      have hhired := yearOf_eq_iff.mp (rfl : yearOf hired = yearOf hired)
      have hnone : ∀ x, x < hired → countsFromAnniversary policy (some hired) x = none := by
        intro x hx
        unfold countsFromAnniversary
        rw [if_pos hpolicy]
        simp [Option.filter, hx]
      by_cases hsame : yearOf hired = yearOf on
      · rw [hsame] at hhired
        simp only [Option.filter, hsame, decide_true, if_true]
        exact ⟨by omega, by omega, fun x hx => hnone x (by omega)⟩
      · simp only [Option.filter, hsame, decide_false, Bool.false_eq_true, if_false]
        refine ⟨by omega, by omega, fun x hx => hnone x ?_⟩
        have hne : ¬ (newYear (yearOf on) ≤ hired ∧ hired < newYear (yearOf on + 1)) :=
          fun hin => hsame (yearOf_eq_iff.mpr hin)
        omega
  · rw [if_neg hpolicy]
    refine ⟨by simp; omega, by simp, fun x _ => ?_⟩
    unfold countsFromAnniversary
    rw [if_neg hpolicy]

/-- The window of a day holds the day, and is the window of every day it holds. -/
theorem window_spec (policy : Option Text) (hireDate : Option ℤ) (on : ℤ) :
    ((vacationWindow policy hireDate on).1 ≤ on ∧ on ≤ (vacationWindow policy hireDate on).2 ∧
      (vacationWindow policy hireDate on).2 ≤ (vacationWindow policy hireDate on).1 + 365) ∧
      ∀ x, (vacationWindow policy hireDate on).1 ≤ x → x ≤ (vacationWindow policy hireDate on).2 →
        vacationWindow policy hireDate x = vacationWindow policy hireDate on := by
  cases h : countsFromAnniversary policy hireDate on with
  | none =>
    obtain ⟨hlast, hyearEnd, hbefore⟩ := calendarEnd_spec h
    have hyear := yearOf_eq_iff.mp (rfl : yearOf on = yearOf on)
    have hlength := newYear_succ_le (yearOf on)
    rw [window_calendar h]
    refine ⟨⟨hyear.1, hlast, by omega⟩, fun x h0 h1 => ?_⟩
    have hsame : yearOf x = yearOf on := yearOf_eq_iff.mpr ⟨h0, by omega⟩
    rw [window_calendar (hbefore x h1), hsame]
  | some hired =>
    obtain ⟨k, hk, hlow, hhigh, hwindow⟩ := window_hired h
    obtain ⟨hpolicy, hhired, -⟩ := countsFromAnniversary_some h
    have hlength := anniversary_succ_le hired k
    rw [hwindow]
    refine ⟨⟨hlow, by omega, by omega⟩, fun x h0 h1 => ?_⟩
    have hle : hired ≤ anniversary hired k := by
      rcases hk.lt_or_eq with hlt | heq
      · have := anniversary_lt hired hlt
        rw [anniversary_self] at this
        exact this.le
      · rw [← heq, anniversary_self]
    have hx : countsFromAnniversary policy hireDate x = some hired := by
      rw [hhired]
      exact countsFromAnniversary_of_le hpolicy (hle.trans h0)
    obtain ⟨j, -, hlow', hhigh', hwindow'⟩ := window_hired hx
    have hjk : j = k := by
      rcases lt_trichotomy j k with hlt | heq | hgt
      · rcases (Int.add_one_le_iff.mpr hlt).lt_or_eq with h' | h'
        · have := anniversary_lt hired h'
          omega
        · rw [h'] at hhigh'
          omega
      · exact heq
      · rcases (Int.add_one_le_iff.mpr hgt).lt_or_eq with h' | h'
        · have := anniversary_lt hired h'
          omega
        · rw [h'] at h1
          omega
    rw [hwindow', hjk]

/-- The vacation years of a person. -/
def vacationYears (policy : Option Text) (hireDate : Option ℤ) : Tiling where
  first on := (vacationWindow policy hireDate on).1
  last on := (vacationWindow policy hireDate on).2
  first_le on := (window_spec policy hireDate on).1.1
  le_last on := (window_spec policy hireDate on).1.2.1
  same_first h0 h1 := by rw [(window_spec policy hireDate _).2 _ h0 h1]
  same_last h0 h1 := by rw [(window_spec policy hireDate _).2 _ h0 h1]

/-- Vacation years cover every day once and follow each other. -/
def YearsTile (policy : Option Text) (hireDate : Option ℤ) : Prop :=
  ∀ on, ((vacationWindow policy hireDate on).1 ≤ on ∧ on ≤ (vacationWindow policy hireDate on).2) ∧
    (∀ x, (vacationWindow policy hireDate on).1 ≤ x → x ≤ (vacationWindow policy hireDate on).2 →
      vacationWindow policy hireDate x = vacationWindow policy hireDate on) ∧
    (vacationWindow policy hireDate ((vacationWindow policy hireDate on).2 + 1)).1 =
      (vacationWindow policy hireDate on).2 + 1 ∧
    (vacationWindow policy hireDate ((vacationWindow policy hireDate on).1 - 1)).2 =
      (vacationWindow policy hireDate on).1 - 1

/-- A calendar year, cut off before the hire date, or a year from one anniversary of it to the next. -/
def IsVacationYear (policy : Option Text) (hireDate : Option ℤ) (window : ℤ × ℤ) : Prop :=
  (∃ year, window = (newYear year, calendarEnd policy hireDate year)) ∨
    ∃ hired ∈ hireDate, ∃ year, window = (anniversary hired year, anniversary hired (year + 1) - 1)

theorem isVacationYear (policy : Option Text) (hireDate : Option ℤ) (on : ℤ) :
    IsVacationYear policy hireDate (vacationWindow policy hireDate on) := by
  cases h : countsFromAnniversary policy hireDate on with
  | none => exact .inl ⟨_, window_calendar h⟩
  | some hired =>
    obtain ⟨year, -, -, -, hwindow⟩ := window_hired h
    exact .inr ⟨hired, (countsFromAnniversary_some h).2.1, year, hwindow⟩

theorem yearsTile (policy : Option Text) (hireDate : Option ℤ) : YearsTile policy hireDate := by
  intro on
  obtain ⟨⟨hlow, hhigh, -⟩, hsame⟩ := window_spec policy hireDate on
  exact ⟨⟨hlow, hhigh⟩, hsame, (vacationYears policy hireDate).first_succ_last on,
    (vacationYears policy hireDate).last_pred_first on⟩

/-! ### Entries and their years -/

/-- An entry the balances count: live, closed, with minutes and a technician, stamped within a day of the shop's clock. -/
structure Countable (z : ShopZone) (row : VacationRow) (tech : Text) : Prop where
  paid : row.paidVacation = true
  technician : row.technicianId = some tech
  named : tech ≠ []
  near : WrittenNear z row.clockInAt
  stamped : IsDate (row.clockInAt.wall / DAY)

/-- The text filter lets through every entry of the days between, the day of slack on each side spent. -/
theorem between_of_day {z : ShopZone} {row : VacationRow} {tech : Text} (h : Countable z row tech) {lo hi : ℤ}
    (hlo : IsDate lo) (hhi : IsDate hi) (hlow : lo < z.day (asAware row.clockInAt))
    (hhigh : z.day (asAware row.clockInAt) + 1 < hi) :
    row.paidVacationBetween (isoformat lo).toList (isoformat hi).toList = true := by
  obtain ⟨hnear0, hnear1⟩ := h.near.day_near
  have hlotext : ¬ row.clockInAt.text < (isoformat lo).toList := by
    rw [text_lt_iff h.stamped hlo]
    omega
  have hhitext : row.clockInAt.text < (isoformat hi).toList := by
    rw [text_lt_iff h.stamped hhi]
    omega
  unfold VacationRow.paidVacationBetween
  simp [h.paid, hlotext, hhitext]

theorem windowFor_eq {policy : Option Text} {hires : Text → Option ℤ} {ids : List Text} {on : ℤ} {tech : Text}
    (hmem : tech ∈ ids) (hnamed : tech ≠ []) :
    windowFor ((vacationWindows policy hires ids on).filter (·.technicianId ≠ [])) tech =
      some ⟨tech, (vacationWindow policy (hires tech) on).1, (vacationWindow policy (hires tech) on).2⟩ := by
  unfold windowFor
  cases hfind : List.find? _ _ with
  | none =>
    have hno := List.find?_eq_none.mp hfind
      ⟨tech, (vacationWindow policy (hires tech) on).1, (vacationWindow policy (hires tech) on).2⟩
      (List.mem_filter.mpr ⟨List.mem_map_of_mem (List.mem_dedup.mpr hmem), by simpa using hnamed⟩)
    simp at hno
  | some w =>
    have htech := List.find?_some hfind
    obtain ⟨tid, -, rfl⟩ := List.mem_map.mp (List.mem_of_mem_filter (List.mem_of_find?_eq_some hfind))
    simp only [decide_eq_true_eq] at htech
    rw [htech]

/-- An entry is counted in the windows of a day exactly when the person's year then holds its shop day. -/
theorem counted_iff {z : ShopZone} {policy : Option Text} {hires : Text → Option ℤ} {ids : List Text} {on : ℤ}
    {tech : Text} {rows : List VacationRow} {row : VacationRow} (hrow : row ∈ rows) (h : Countable z row tech)
    (hmem : tech ∈ ids)
    (hdates : ∀ w ∈ vacationWindows policy hires ids on, IsDate (w.first - 1) ∧ IsDate (w.last + 2)) :
    row ∈ countedRows z (vacationWindows policy hires ids on) rows tech ↔
      (vacationWindow policy (hires tech) on).1 ≤ z.day (asAware row.clockInAt) ∧
        z.day (asAware row.clockInAt) ≤ (vacationWindow policy (hires tech) on).2 := by
  have hwindow : windowFor ((vacationWindows policy hires ids on).filter (·.technicianId ≠ [])) tech =
      some ⟨tech, (vacationWindow policy (hires tech) on).1, (vacationWindow policy (hires tech) on).2⟩ :=
    windowFor_eq hmem h.named
  have hown := List.mem_of_find?_eq_some hwindow
  unfold countedRows
  simp only
  generalize hws : (vacationWindows policy hires ids on).filter (·.technicianId ≠ []) = ws at hwindow hown
  have hne : ws ≠ [] := List.ne_nil_of_mem hown
  obtain ⟨lo, hlo⟩ : ∃ lo, (ws.map (·.first)).min? = some lo := by
    rw [← Option.isSome_iff_exists, List.isSome_min?_iff]
    simpa using hne
  obtain ⟨hi, hhi⟩ : ∃ hi, (ws.map (·.last)).max? = some hi := by
    rw [← Option.isSome_iff_exists, List.isSome_max?_iff]
    simpa using hne
  have hsub : ∀ w ∈ ws, w ∈ vacationWindows policy hires ids on := by
    intro w hw
    rw [← hws] at hw
    exact List.mem_of_mem_filter hw
  obtain ⟨hlomem, hlole⟩ := List.min?_eq_some_iff.mp hlo
  obtain ⟨hhimem, hhile⟩ := List.max?_eq_some_iff.mp hhi
  obtain ⟨wlo, hwlo, rfl⟩ := List.mem_map.mp hlomem
  obtain ⟨whi, hwhi, rfl⟩ := List.mem_map.mp hhimem
  rw [hlo, hhi]
  simp only [List.mem_filter, hwindow, Bool.and_eq_true, decide_eq_true_eq]
  constructor
  · rintro ⟨-, -, hin⟩
    exact hin
  · intro hin
    refine ⟨hrow, ⟨?_, h.technician⟩, hin⟩
    have hfirst := hlole _ (List.mem_map_of_mem hown)
    have hlast := hhile _ (List.mem_map_of_mem hown)
    simp only at hfirst hlast
    exact between_of_day h (hdates _ (hsub _ hwlo)).1 (hdates _ (hsub _ hwhi)).2 (by omega) (by omega)

/-- A year that contains `on` lies inside the days `vacation_takers` searches, a day of slack on each side spent. -/
theorem window_within_search (policy : Option Text) (hireDate : Option ℤ) (on : ℤ) :
    on - 367 < (vacationWindow policy hireDate on).1 ∧ (vacationWindow policy hireDate on).2 + 1 < on + 368 := by
  obtain ⟨⟨hlow, hhigh, hlength⟩, -⟩ := window_spec policy hireDate on
  omega

theorem mem_takers {z : ShopZone} {policy : Option Text} {hireDate : Option ℤ} {on : ℤ} {tech : Text}
    {rows : List VacationRow} {row : VacationRow} (hrow : row ∈ rows) (h : Countable z row tech)
    (hlo : IsDate (on - 367)) (hhi : IsDate (on + 368))
    (hin : (vacationWindow policy hireDate on).1 ≤ z.day (asAware row.clockInAt) ∧
      z.day (asAware row.clockInAt) ≤ (vacationWindow policy hireDate on).2) : tech ∈ vacationTakers rows on := by
  obtain ⟨hfirst, hlast⟩ := window_within_search policy hireDate on
  unfold vacationTakers
  rw [List.mem_dedup, List.mem_filterMap]
  refine ⟨row, List.mem_filter.mpr ⟨hrow, between_of_day h hlo hhi (by omega) (by omega)⟩, ?_⟩
  rw [h.technician]
  simp [Option.filter, h.named]

/-- Vacation years are calendar or anniversary years and tile the calendar; an entry is counted in the year that holds its shop day and in no other; and whoever
    has an entry in a year that contains `on` is among the takers searched around `on`. -/
theorem vacation_counted_once (policy : Option Text) :
    (∀ hireDate, YearsTile policy hireDate ∧ ∀ on, IsVacationYear policy hireDate (vacationWindow policy hireDate on)) ∧
    (∀ (z : ShopZone) (hires : Text → Option ℤ) (rows : List VacationRow) (tech : Text), ∀ row ∈ rows,
      Countable z row tech → ∃ year, (∃ on, year = vacationWindow policy (hires tech) on) ∧
        ∀ (on : ℤ) (ids : List Text), tech ∈ ids →
          (∀ w ∈ vacationWindows policy hires ids on, IsDate (w.first - 1) ∧ IsDate (w.last + 2)) →
          (row ∈ countedRows z (vacationWindows policy hires ids on) rows tech ↔
            vacationWindow policy (hires tech) on = year)) ∧
    ∀ (z : ShopZone) (hireDate : Option ℤ) (rows : List VacationRow) (tech : Text) (on : ℤ),
      (on - 367 < (vacationWindow policy hireDate on).1 ∧ (vacationWindow policy hireDate on).2 + 1 < on + 368) ∧
      (IsDate (on - 367) → IsDate (on + 368) → ∀ row ∈ rows, Countable z row tech →
        (vacationWindow policy hireDate on).1 ≤ z.day (asAware row.clockInAt) →
        z.day (asAware row.clockInAt) ≤ (vacationWindow policy hireDate on).2 → tech ∈ vacationTakers rows on) := by
  refine ⟨fun hireDate => ⟨yearsTile policy hireDate, isVacationYear policy hireDate⟩, ?_, ?_⟩
  · intro z hires rows tech row hrow h
    refine ⟨_, ⟨z.day (asAware row.clockInAt), rfl⟩, fun on ids hmem hdates => ?_⟩
    rw [counted_iff hrow h hmem hdates]
    obtain ⟨⟨hlow, hhigh, -⟩, -⟩ := window_spec policy (hires tech) (z.day (asAware row.clockInAt))
    constructor
    · rintro ⟨h0, h1⟩
      exact ((window_spec policy (hires tech) on).2 _ h0 h1).symm
    · intro heq
      rw [heq]
      exact ⟨hlow, hhigh⟩
  · intro z hireDate rows tech on
    exact ⟨window_within_search policy hireDate on,
      fun hlo hhi row hrow h h0 h1 => mem_takers hrow h hlo hhi ⟨h0, h1⟩⟩

/-- Vacation on 28 February 2025. -/
def lastOfFebruary : VacationRow where
  technicianId := some "t1".toList
  entryType := VACATION_TYPE
  clockInAt := utcStamp (20147 * DAY)
  clockOutAt := some (utcStamp (20147 * DAY + 480 * MINUTE))
  minutes := some 480
  deletedAt := none

/-- The entry of some vacation years around a day, for a person hired on 29 February 2024. -/
def countedAround (on : ℤ) : List VacationRow :=
  countedRows utcZone (vacationWindows (some "hire_anniversary".toList) (fun _ => some 19782) ["t1".toList] on)
    [lastOfFebruary] "t1".toList

/-- Hired on 29 February 2024, the person starts a year on 28 February 2025: the entry counts in it, not in the year
    before. -/
theorem vacation_counted_leap_hire :
    YearsTile (some "hire_anniversary".toList) (some 19782) ∧ lastOfFebruary ∈ countedAround 20147 ∧
      lastOfFebruary ∉ countedAround 20146 ∧ "t1".toList ∈ vacationTakers [lastOfFebruary] 20147 := by
  have hcountable : Countable utcZone lastOfFebruary "t1".toList :=
    ⟨by decide, rfl, by decide, by change |(0 : ℤ) - 0| < 24 * 60; decide, by decide +kernel⟩
  obtain ⟨htile, hcounted, htakers⟩ := vacation_counted_once (some "hire_anniversary".toList)
  obtain ⟨year, -, hyear⟩ := hcounted utcZone (fun _ => some 19782) [lastOfFebruary] "t1".toList _ List.mem_cons_self
    hcountable
  have hhere : lastOfFebruary ∈ countedAround 20147 := by decide +kernel
  have hown := (hyear 20147 ["t1".toList] List.mem_cons_self (by decide +kernel)).mp hhere
  refine ⟨(htile _).1, hhere, fun hbefore => ?_, ?_⟩
  · have hother := (hyear 20146 ["t1".toList] List.mem_cons_self (by decide +kernel)).mp hbefore
    exact absurd (hother.trans hown.symm) (by decide +kernel)
  · exact (htakers utcZone (some 19782) [lastOfFebruary] "t1".toList 20147).2 (by decide +kernel) (by decide +kernel) _
      List.mem_cons_self hcountable (by decide +kernel) (by decide +kernel)

end Gdx.Timeclock
