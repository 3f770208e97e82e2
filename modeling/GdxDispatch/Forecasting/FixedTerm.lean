import GdxDispatch.Forecasting.Overhead
import Mathlib.Algebra.BigOperators.Finprod

/-! What a fixed term projects in all.

    An obligation of `n` payments is active from its start to `n - 1` steps of whole months after it, and each of these
    months holds its monthly equivalent. The two tables agree for every cadence of a month or more; the cadences below a
    month count a month for each payment and several payments in each month. -/

namespace Gdx.Overhead

variable {ob : OverheadObligation} {start : ℤ} {n : ℕ}

/-- The total over all months, before rounding. -/
noncomputable def overall (ob : OverheadObligation) : ℚ := finsum fun t : ℤ => amountForMonth ob (t / 12) (t % 12 + 1)

theorem monthIndex_of (t : ℤ) : monthIndex (t / 12) (t % 12 + 1) = t := by
  unfold monthIndex
  omega

theorem dayMonth_eq (day : ℤ) : dayMonth day = monthOf day := by
  unfold dayMonth monthIndex monthOf
  ring

theorem addMonths_eq (day k : ℤ) :
    addMonths (civil day).1 (civil day).2.1 k = ((monthOf day + k) / 12, (monthOf day + k) % 12 + 1) := by
  unfold addMonths
  rw [show monthIndex (civil day).1 (civil day).2.1 = monthOf day from dayMonth_eq day]

/-- The first of a month lies in the month. -/
theorem dayMonth_first (t : ℤ) : dayMonth (dayNumber (t / 12) (t % 12 + 1) 1) = t := by
  have hlength := lengthOfMonth_bounds t
  have hfirst := monthOf_firstOfMonth_add (t := t) (d := 1) le_rfl (by omega)
  rw [dayMonth_eq]
  rwa [sub_self, add_zero] at hfirst

/-- A fixed term is active for exactly its months. -/
theorem isActive_fixedTerm (hstart : ob.startDate = some start) (hn : 1 ≤ n) (hterm : ob.termTotalOccurrences = some n)
    (hend : ob.endDate = none) (t : ℤ) :
    isActiveInMonth ob (t / 12) (t % 12 + 1) = true ↔
      monthOf start ≤ t ∧ t ≤ monthOf start + (n - 1) * monthsPerOccurrence ob.cadence := by
  have hne : n ≠ 0 := by omega
  unfold isActiveInMonth effectiveEndDate
  simp only [hstart, hend, hterm, hne, if_false, Option.all_some, decide_eq_true_eq, monthIndex_of, addMonths_eq,
    dayMonth_first]
  rw [dayMonth_eq]

/-- Without changes every active month holds the monthly equivalent of the amount. -/
theorem amountForMonth_fixedTerm (hstart : ob.startDate = some start) (hn : 1 ≤ n)
    (hterm : ob.termTotalOccurrences = some n) (hend : ob.endDate = none) (hchanges : ob.scheduledChanges = []) (t : ℤ) :
    amountForMonth ob (t / 12) (t % 12 + 1) =
      if t ∈ Finset.Icc (monthOf start) (monthOf start + (n - 1) * monthsPerOccurrence ob.cadence) then
        monthlyEquivalent ob.amount ob.cadence
      else 0 := by
  have hbase : scheduledAmount ob (t / 12) (t % 12 + 1) = ob.amount := by
    rw [scheduledAmount, hchanges]
    rfl
  unfold amountForMonth
  rw [hbase]
  by_cases hactive : isActiveInMonth ob (t / 12) (t % 12 + 1) = true
  · rw [if_pos hactive, if_pos (Finset.mem_Icc.mpr ((isActive_fixedTerm hstart hn hterm hend t).mp hactive))]
  · rw [if_neg hactive, if_neg fun hmem =>
      hactive ((isActive_fixedTerm hstart hn hterm hend t).mpr (Finset.mem_Icc.mp hmem))]

theorem monthsPerOccurrence_pos (cadence : StreamCadence) : 1 ≤ monthsPerOccurrence cadence := by
  cases cadence <;> decide

/-- A fixed term projects its monthly equivalent once for each of its months. -/
theorem overall_fixedTerm (hstart : ob.startDate = some start) (hn : 1 ≤ n) (hterm : ob.termTotalOccurrences = some n)
    (hend : ob.endDate = none) (hchanges : ob.scheduledChanges = []) :
    overall ob = (((n : ℚ) - 1) * monthsPerOccurrence ob.cadence + 1) * monthlyEquivalent ob.amount ob.cadence := by
  have hpos := monthsPerOccurrence_pos ob.cadence
  unfold overall
  rw [finsum_eq_sum_of_support_subset _
    (s := Finset.Icc (monthOf start) (monthOf start + (n - 1) * monthsPerOccurrence ob.cadence)) ?_]
  · rw [Finset.sum_congr rfl fun t ht =>
      (amountForMonth_fixedTerm hstart hn hterm hend hchanges t).trans (if_pos ht), Finset.sum_const, Int.card_Icc,
      nsmul_eq_mul]
    congr 1
    have hcount : (0 : ℤ) ≤ (n - 1) * monthsPerOccurrence ob.cadence := mul_nonneg (by omega) (by omega)
    have hnat : ((monthOf start + (n - 1) * monthsPerOccurrence ob.cadence + 1 - monthOf start).toNat : ℤ) =
        (n - 1) * monthsPerOccurrence ob.cadence + 1 := by
      rw [Int.toNat_of_nonneg] <;> omega
    have hcast := congrArg (Int.cast (R := ℚ)) hnat
    push_cast at hcast
    exact hcast
  · intro t ht
    by_contra hout
    rw [Function.mem_support, amountForMonth_fixedTerm hstart hn hterm hend hchanges t,
      if_neg fun hmem => hout (Finset.mem_coe.mpr hmem)] at ht
    exact ht rfl

/-- A fixed term is never over-projected, and a monthly one exactly, where the cadence is a month or more or the amount is
    zero. -/
theorem fixed_term_iff (ob : OverheadObligation) (start : ℤ) (n : ℕ) (hstart : ob.startDate = some start)
    (hamount : 0 ≤ ob.amount) (hn : 1 ≤ n) (hterm : ob.termTotalOccurrences = some n) (hend : ob.endDate = none)
    (hchanges : ob.scheduledChanges = []) :
    (overall ob ≤ n * ob.amount ∧ (ob.cadence = .monthly → overall ob = n * ob.amount)) ↔
      (ob.cadence ≠ .weekly ∧ ob.cadence ≠ .biweekly) ∨ ob.amount = 0 := by
  have hone : (1 : ℚ) ≤ n := by exact_mod_cast hn
  rw [overall_fixedTerm hstart hn hterm hend hchanges]
  unfold monthlyEquivalent
  constructor
  · rintro ⟨hle, -⟩
    by_contra hnot
    obtain ⟨hcadence, hzero⟩ := not_or.mp hnot
    have hpos : 0 < ob.amount := lt_of_le_of_ne hamount (Ne.symm hzero)
    have hshort : ob.cadence = .weekly ∨ ob.cadence = .biweekly := by
      by_contra hlong
      exact hcadence (not_or.mp hlong)
    rcases hshort with h | h
    · rw [h] at hle
      simp only [monthsPerOccurrence, occurrencesPerYear, Int.cast_one] at hle
      nlinarith [mul_pos (lt_of_lt_of_le one_pos hone) hpos]
    · rw [h] at hle
      simp only [monthsPerOccurrence, occurrencesPerYear, Int.cast_one] at hle
      nlinarith [mul_pos (lt_of_lt_of_le one_pos hone) hpos]
  · rintro (⟨hweekly, hbiweekly⟩ | hzero)
    · cases hcadence : ob.cadence with
      | weekly => exact absurd hcadence hweekly
      | biweekly => exact absurd hcadence hbiweekly
      | monthly =>
        simp only [monthsPerOccurrence, occurrencesPerYear, Int.cast_one]
        refine ⟨le_of_eq (by ring), fun _ => by ring⟩
      | quarterly =>
        refine ⟨?_, fun h => by cases h⟩
        simp only [monthsPerOccurrence, occurrencesPerYear]
        push_cast
        nlinarith
      | semiannual =>
        refine ⟨?_, fun h => by cases h⟩
        simp only [monthsPerOccurrence, occurrencesPerYear]
        push_cast
        nlinarith
      | annual =>
        refine ⟨?_, fun h => by cases h⟩
        simp only [monthsPerOccurrence, occurrencesPerYear]
        push_cast
        nlinarith
    · simp [hzero]

/-- A loan of twelve monthly payments projects twelve of them. -/
theorem yearly_loan_exact :
    overall ⟨1, "Loan", "loan", 500, .monthly, some 20454, none, some 12, []⟩ = 12 * 500 :=
  ((fixed_term_iff ⟨1, "Loan", "loan", 500, .monthly, some 20454, none, some 12, []⟩ 20454 12 rfl (by norm_num) (by norm_num)
    rfl rfl rfl).mpr (.inl ⟨by decide, by decide⟩)).2 rfl

/-- A loan of fifty-two weekly payments projects more than four times as many. -/
theorem weekly_loan_over :
    ¬ ∀ (ob : OverheadObligation) (start : ℤ) (n : ℕ), ob.startDate = some start → 0 ≤ ob.amount → 1 ≤ n →
      ob.termTotalOccurrences = some n → ob.endDate = none → ob.scheduledChanges = [] →
      overall ob ≤ n * ob.amount ∧ (ob.cadence = .monthly → overall ob = n * ob.amount) := by
  intro h
  have hle := (h ⟨1, "Loan", "loan", 100, .weekly, some 20454, none, some 52, []⟩ 20454 52 rfl (by norm_num) (by norm_num)
    rfl rfl rfl).1
  have htotal : overall ⟨1, "Loan", "loan", 100, .weekly, some 20454, none, some 52, []⟩ =
      (((52 : ℕ) - 1 : ℚ) * monthsPerOccurrence .weekly + 1) * monthlyEquivalent 100 .weekly :=
    overall_fixedTerm rfl (by norm_num) rfl rfl rfl
  rw [htotal] at hle
  norm_num [monthlyEquivalent, occurrencesPerYear, monthsPerOccurrence] at hle

end Gdx.Overhead
