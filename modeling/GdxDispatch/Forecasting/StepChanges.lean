import GdxDispatch.Forecasting.FixedTerm

/-! Which scheduled change is in force.

    The loop keeps the best month so far and takes a change only when its month is later, so among the changes of the best
    month the one that stands first in the list is taken. The latest one is taken in every order exactly where changes of
    one month carry one amount. -/

namespace Gdx.Overhead

variable {ob : OverheadObligation} {changes changes' : List ScheduledChange} {target : ℤ}

/-- The change is in effect at the end of the month. -/
def InEffect (year month : ℤ) (change : ScheduledChange) (day : ℤ) : Prop :=
  change.effectiveDate = some day ∧ day < firstOfMonth (monthIndex year month + 1)

/-- The amount of the latest change that is in effect at the end of the month, or the base amount when there is none. -/
def LatestAmount (ob : OverheadObligation) (year month : ℤ) (amount : ℚ) : Prop :=
  (∃ change ∈ ob.scheduledChanges, ∃ day, InEffect year month change day ∧ change.amount = amount ∧
    ∀ other ∈ ob.scheduledChanges, ∀ day', InEffect year month other day' → day' ≤ day) ∨
  (∀ change ∈ ob.scheduledChanges, ∀ day, ¬ InEffect year month change day) ∧ amount = ob.amount

/-- A change is in effect when its month is not after the month. -/
theorem inEffect_iff {year month : ℤ} {change : ScheduledChange} {day : ℤ} :
    InEffect year month change day ↔ change.effectiveDate = some day ∧ dayMonth day ≤ monthIndex year month := by
  unfold InEffect
  rw [dayMonth_eq]
  refine and_congr_right fun _ => ?_
  obtain ⟨hlo, hhi⟩ := (monthOf_eq_iff (n := day)).mp rfl
  constructor
  · intro hlt
    by_contra hafter
    rcases (show monthIndex year month + 1 ≤ monthOf day by omega).lt_or_eq with h | h
    · have := firstOfMonth_lt_iff.mpr h
      omega
    · rw [h] at hlt
      omega
  · intro hle
    rcases (show monthOf day + 1 ≤ monthIndex year month + 1 by omega).lt_or_eq with h | h
    · have := firstOfMonth_lt_iff.mpr h
      omega
    · rwa [← h]

/-- What the loop holds after the changes seen: nothing where none is in effect, else the month and the amount of one of
    them, and no seen change in effect is of a later month. -/
structure Best (target : ℤ) (base : ℚ) (seen : List ScheduledChange) (best : Option ℤ × ℚ) : Prop where
  unset : best.1 = none → best.2 = base ∧
    ∀ change ∈ seen, ∀ day, change.effectiveDate = some day → target < dayMonth day
  held : ∀ m, best.1 = some m → m ≤ target ∧
    (∃ change ∈ seen, ∃ day, change.effectiveDate = some day ∧ dayMonth day = m ∧ change.amount = best.2) ∧
    ∀ change ∈ seen, ∀ day, change.effectiveDate = some day → dayMonth day ≤ target → dayMonth day ≤ m

/-- One change keeps what the loop holds true of the changes seen. -/
theorem Best.step {base : ℚ} {seen : List ScheduledChange} {best : Option ℤ × ℚ} (h : Best target base seen best)
    (change : ScheduledChange) : Best target base (seen ++ [change]) (stepChange target best change) := by
  have hkeep : (∀ day, change.effectiveDate = some day → dayMonth day ≤ target → ∃ m, best.1 = some m ∧ dayMonth day ≤ m) →
      Best target base (seen ++ [change]) best := by
    intro hlate
    refine ⟨fun hnone => ⟨(h.unset hnone).1, fun c hc day hday => ?_⟩, fun m hm => ⟨(h.held m hm).1, ?_, ?_⟩⟩
    · rcases List.mem_append.mp hc with hc | hc
      · exact (h.unset hnone).2 c hc day hday
      · rw [List.mem_singleton.mp hc] at hday
        by_contra hin
        obtain ⟨m, hm, -⟩ := hlate day hday (by omega)
        rw [hnone] at hm
        cases hm
    · obtain ⟨c, hc, rest⟩ := (h.held m hm).2.1
      exact ⟨c, List.mem_append_left _ hc, rest⟩
    · intro c hc day hday hin
      rcases List.mem_append.mp hc with hc | hc
      · exact (h.held m hm).2.2 c hc day hday hin
      · rw [List.mem_singleton.mp hc] at hday
        obtain ⟨m', hm', hle⟩ := hlate day hday hin
        rw [hm] at hm'
        cases hm'
        exact hle
  unfold stepChange
  split
  · rename_i hnone
    exact hkeep fun day hday => by
      rw [hnone] at hday
      cases hday
  · rename_i eff heff
    split_ifs with htake
    · obtain ⟨hin, hlater⟩ := htake
      refine ⟨fun hnone => absurd hnone (by simp), fun m hm => ?_⟩
      cases hm
      refine ⟨hin, ⟨change, List.mem_append_right _ List.mem_cons_self, eff, heff, rfl, rfl⟩, fun c hc day hday hday' => ?_⟩
      rcases List.mem_append.mp hc with hc | hc
      · cases hbest : best.1 with
        | none =>
          have := (h.unset hbest).2 c hc day hday
          omega
        | some b =>
          have hle := (h.held b hbest).2.2 c hc day hday hday'
          rw [hbest, Option.all_some, decide_eq_true_eq] at hlater
          omega
      · rw [List.mem_singleton.mp hc, heff] at hday
        cases hday
        exact le_rfl
    · refine hkeep fun day hday hin => ?_
      rw [heff] at hday
      cases hday
      cases hbest : best.1 with
      | none => exact absurd ⟨hin, by rw [hbest]; rfl⟩ htake
      | some b =>
        refine ⟨b, rfl, ?_⟩
        by_contra hlt
        exact htake ⟨hin, by rw [hbest, Option.all_some, decide_eq_true_eq]; omega⟩

theorem Best.foldl {base : ℚ} {seen : List ScheduledChange} {best : Option ℤ × ℚ} (h : Best target base seen best)
    (changes : List ScheduledChange) : Best target base (seen ++ changes) (changes.foldl (stepChange target) best) := by
  induction changes generalizing seen best with
  | nil => rwa [List.append_nil]
  | cons change changes ih =>
    have := ih (h.step change)
    rwa [List.append_assoc] at this

/-- The whole loop. -/
theorem best_foldl (target : ℤ) (base : ℚ) (changes : List ScheduledChange) :
    Best target base changes (changes.foldl (stepChange target) (none, base)) := by
  have hstart : Best target base [] (none, base) := ⟨fun _ => ⟨rfl, by simp⟩, fun _ hm => by cases hm⟩
  exact hstart.foldl changes

/-- A month taken first is kept against changes of the same month. -/
theorem foldl_taken {m : ℤ} {amount : ℚ} (changes : List ScheduledChange) :
    changes.foldl (stepChange m) (some m, amount) = (some m, amount) := by
  induction changes with
  | nil => rfl
  | cons change changes ih =>
    have hstep : stepChange m (some m, amount) change = (some m, amount) := by
      unfold stepChange
      split
      · rfl
      · rename_i eff _
        refine if_neg fun h => ?_
        have hlater := h.2
        rw [Option.all_some, decide_eq_true_eq] at hlater
        omega
    rw [List.foldl_cons, hstep, ih]

/-! ### The latest change wins -/

/-- No two changes are dated the same day. -/
def DistinctDates (changes : List ScheduledChange) : Prop :=
  changes.Pairwise fun a b => a.effectiveDate = none ∨ a.effectiveDate ≠ b.effectiveDate

instance (changes : List ScheduledChange) : Decidable (DistinctDates changes) :=
  inferInstanceAs (Decidable (List.Pairwise _ _))

/-- Changes of one calendar month carry one amount. -/
def MonthsAgree (changes : List ScheduledChange) : Prop :=
  ∀ a ∈ changes, ∀ b ∈ changes, ∀ day day', a.effectiveDate = some day → b.effectiveDate = some day' →
    dayMonth day = dayMonth day' → a.amount = b.amount

/-- In every order of the changes the latest one wins in every month, and no projection reads the order. -/
def LatestWins (ob : OverheadObligation) : Prop :=
  ∀ changes, changes.Perm ob.scheduledChanges →
    (∀ year month, LatestAmount { ob with scheduledChanges := changes } year month
      (scheduledAmount { ob with scheduledChanges := changes } year month)) ∧
    ∀ (before after : List OverheadObligation) (anchorYear anchorMonth : ℤ) (horizonMonths : ℕ),
      project (before ++ { ob with scheduledChanges := changes } :: after) anchorYear anchorMonth horizonMonths =
        project (before ++ ob :: after) anchorYear anchorMonth horizonMonths

theorem DistinctDates.eq_of_day (h : DistinctDates changes) {a b : ScheduledChange} (ha : a ∈ changes) (hb : b ∈ changes)
    {day : ℤ} (hday : a.effectiveDate = some day) (hday' : b.effectiveDate = some day) : a = b := by
  by_contra hne
  have hsymm : Std.Symm fun a b : ScheduledChange => a.effectiveDate = none ∨ a.effectiveDate ≠ b.effectiveDate := by
    refine ⟨fun x y hxy => ?_⟩
    rcases hxy with hnone | hxy
    · rw [hnone]
      cases y.effectiveDate <;> simp
    · exact .inr hxy.symm
  rcases List.Pairwise.forall h ha hb hne with hnone | hdiff
  · rw [hnone] at hday
    cases hday
  · exact hdiff (hday.trans hday'.symm)

/-- The rule reads only which changes there are. -/
theorem latestAmount_perm (h : changes.Perm ob.scheduledChanges) {year month : ℤ} {amount : ℚ} :
    LatestAmount { ob with scheduledChanges := changes } year month amount ↔ LatestAmount ob year month amount := by
  simp only [LatestAmount, h.mem_iff]

/-- There is one latest amount. -/
theorem LatestAmount.unique (hdistinct : DistinctDates ob.scheduledChanges) {year month : ℤ} {x y : ℚ}
    (hx : LatestAmount ob year month x) (hy : LatestAmount ob year month y) : x = y := by
  rcases hx with ⟨a, ha, day, hin, rfl, hlast⟩ | ⟨hnone, rfl⟩
  · rcases hy with ⟨b, hb, day', hin', rfl, hlast'⟩ | ⟨hnone, -⟩
    · have hday : day = day' := le_antisymm (hlast' a ha day hin) (hlast b hb day' hin')
      subst hday
      rw [hdistinct.eq_of_day ha hb hin.1 hin'.1]
    · exact absurd hin (hnone a ha day)
  · rcases hy with ⟨b, hb, day', hin', -, -⟩ | ⟨-, rfl⟩
    · exact absurd hin' (hnone b hb day')
    · rfl

theorem dayMonth_mono {n m : ℤ} (h : n ≤ m) : dayMonth n ≤ dayMonth m := by
  rw [dayMonth_eq, dayMonth_eq]
  have hlo := (monthOf_eq_iff.mp (rfl : monthOf n = monthOf n)).1
  have hhi := (monthOf_eq_iff.mp (rfl : monthOf m = monthOf m)).2
  have hlt : firstOfMonth (monthOf n) < firstOfMonth (monthOf m + 1) := by omega
  have := firstOfMonth_lt_iff.mp hlt
  omega

/-- Of changes in effect one is the last. -/
theorem exists_last {year month : ℤ} {change : ScheduledChange} (hmem : change ∈ changes) {day : ℤ}
    (hin : InEffect year month change day) : ∃ last ∈ changes, ∃ d, InEffect year month last d ∧
      ∀ other ∈ changes, ∀ day', InEffect year month other day' → day' ≤ d := by
  obtain ⟨last, ⟨hlast, d, hd⟩, hmax⟩ := Set.exists_max_image {c | c ∈ changes ∧ ∃ d, InEffect year month c d}
    (fun c => c.effectiveDate.getD 0) (changes.finite_toSet.subset fun c hc => hc.1) ⟨change, hmem, day, hin⟩
  refine ⟨last, hlast, d, hd, fun other hother day' hday' => ?_⟩
  have hle := hmax other ⟨hother, day', hday'⟩
  rwa [hday'.1, hd.1] at hle

/-- Where the changes of a month agree, the loop's amount is the latest one's. -/
theorem scheduledAmount_latest (h : MonthsAgree ob.scheduledChanges) (year month : ℤ) :
    LatestAmount ob year month (scheduledAmount ob year month) := by
  have hbest := best_foldl (monthIndex year month) ob.amount ob.scheduledChanges
  unfold scheduledAmount
  generalize ob.scheduledChanges.foldl (stepChange (monthIndex year month)) (none, ob.amount) = best at hbest
  cases hm : best.1 with
  | none =>
    refine .inr ⟨fun change hmem day hin => ?_, (hbest.unset hm).1⟩
    have hlater := (hbest.unset hm).2 change hmem day hin.1
    have := (inEffect_iff.mp hin).2
    omega
  | some m =>
    obtain ⟨hle, ⟨change, hmem, day, hday, hmonth, hamount⟩, hall⟩ := hbest.held m hm
    have hin : InEffect year month change day := inEffect_iff.mpr ⟨hday, by omega⟩
    obtain ⟨last, hlast, d, hd, hmax⟩ := exists_last hmem hin
    have hsame : dayMonth d = dayMonth day := by
      have hnot := hall last hlast d hd.1 (inEffect_iff.mp hd).2
      have hge := dayMonth_mono (hmax change hmem day hin)
      omega
    exact .inl ⟨last, hlast, d, hd, (h last hlast change hmem d day hd.1 hday hsame).trans hamount, hmax⟩

/-- The projection reads an obligation's changes through its amount of each month. -/
theorem project_congr {ob' : OverheadObligation} (hid : ob'.id = ob.id) (hlabel : ob'.label = ob.label)
    (hcategory : ob'.category = ob.category)
    (hamount : ∀ year month, amountForMonth ob' year month = amountForMonth ob year month)
    (before after : List OverheadObligation) (anchorYear anchorMonth : ℤ) (horizonMonths : ℕ) :
    project (before ++ ob' :: after) anchorYear anchorMonth horizonMonths =
      project (before ++ ob :: after) anchorYear anchorMonth horizonMonths := by
  have hlines : ∀ ym, monthLines (before ++ ob' :: after) ym = monthLines (before ++ ob :: after) ym := by
    intro ym
    simp only [monthLines, List.map_append, List.map_cons, hid, hlabel, hcategory, hamount]
  simp only [project, hlines]

/-- A change put first holds its month. -/
theorem scheduledAmount_first {change : ScheduledChange} {day : ℤ} (hday : change.effectiveDate = some day)
    (rest : List ScheduledChange) :
    scheduledAmount { ob with scheduledChanges := change :: rest } (dayMonth day / 12) (dayMonth day % 12 + 1) =
      change.amount := by
  have hmonth : monthIndex (dayMonth day / 12) (dayMonth day % 12 + 1) = dayMonth day := by
    unfold monthIndex
    omega
  have htake : stepChange (dayMonth day) (none, ob.amount) change = (some (dayMonth day), change.amount) := by
    simp [stepChange, hday]
  simp only [scheduledAmount, hmonth, List.foldl_cons, htake, foldl_taken]

/-- The latest change wins in every order exactly where the changes of a month agree. -/
theorem latestWins_iff (ob : OverheadObligation) (hdistinct : DistinctDates ob.scheduledChanges) :
    LatestWins ob ↔ MonthsAgree ob.scheduledChanges := by
  constructor
  · intro h a ha b hb day day' hday hday' hmonth
    have hfirst : ∀ c ∈ ob.scheduledChanges, ∀ d, c.effectiveDate = some d →
        LatestAmount ob (dayMonth d / 12) (dayMonth d % 12 + 1) c.amount := by
      intro c hc d hd
      have hperm : (c :: ob.scheduledChanges.erase c).Perm ob.scheduledChanges := (List.perm_cons_erase hc).symm
      have hlatest := (h _ hperm).1 (dayMonth d / 12) (dayMonth d % 12 + 1)
      rwa [scheduledAmount_first hd, latestAmount_perm hperm] at hlatest
    refine LatestAmount.unique hdistinct (hfirst a ha day hday) ?_
    rw [hmonth]
    exact hfirst b hb day' hday'
  · intro h changes hperm
    have hagree : MonthsAgree changes := fun a ha b hb => h a (hperm.mem_iff.mp ha) b (hperm.mem_iff.mp hb)
    have hlatest : ∀ year month, LatestAmount { ob with scheduledChanges := changes } year month
        (scheduledAmount { ob with scheduledChanges := changes } year month) := scheduledAmount_latest hagree
    refine ⟨hlatest, project_congr rfl rfl rfl fun year month => ?_⟩
    have hsame : scheduledAmount { ob with scheduledChanges := changes } year month = scheduledAmount ob year month :=
      ((latestAmount_perm hperm).mp (hlatest year month)).unique hdistinct (scheduledAmount_latest h year month)
    unfold amountForMonth
    rw [hsame]
    rfl

/-- A rent that steps up in June of 2026 and again in July. -/
def steppedRent : OverheadObligation :=
  ⟨1, "Rent", "rent", 100, .monthly, some 20454, none, none, [⟨some 20605, 120⟩, ⟨some 20635, 150⟩]⟩

theorem steppedRent_latest : DistinctDates steppedRent.scheduledChanges ∧ LatestWins steppedRent := by
  have hdistinct : DistinctDates steppedRent.scheduledChanges := by decide
  refine ⟨hdistinct, (latestWins_iff steppedRent hdistinct).mpr ?_⟩
  have h1 : dayMonth 20605 = 24317 := by decide +kernel
  have h2 : dayMonth 20635 = 24318 := by decide +kernel
  intro a ha b hb day day' hday hday' hmonth
  simp only [steppedRent, List.mem_cons, List.not_mem_nil, or_false] at ha hb
  rcases ha with rfl | rfl <;> rcases hb with rfl | rfl <;> simp_all

/-- Two changes in one month: the fifth of June takes the month, the twentieth is passed over. -/
theorem later_change_passed_over :
    ¬ ∀ ob : OverheadObligation, DistinctDates ob.scheduledChanges → LatestWins ob := by
  intro h
  have hlatest := ((h ⟨1, "Rent", "rent", 100, .monthly, some 20454, none, none, [⟨some 20609, 120⟩, ⟨some 20624, 150⟩]⟩
    (by decide)) _ (List.Perm.refl _)).1 2026 6
  have hamount : scheduledAmount ⟨1, "Rent", "rent", 100, .monthly, some 20454, none, none,
      [⟨some 20609, 120⟩, ⟨some 20624, 150⟩]⟩ 2026 6 = 120 := by decide +kernel
  have hin : InEffect 2026 6 ⟨some 20624, 150⟩ 20624 := ⟨rfl, by decide +kernel⟩
  rcases hlatest with ⟨c, hc, day, hday, heq, hlast⟩ | ⟨hnone, -⟩
  · have hle := hlast ⟨some 20624, 150⟩ (by simp) 20624 hin
    rw [show scheduledAmount _ 2026 6 = 120 from hamount] at heq
    simp only [List.mem_cons, List.not_mem_nil, or_false] at hc
    rcases hc with rfl | rfl
    · cases hday.1
      omega
    · norm_num at heq
  · exact hnone ⟨some 20624, 150⟩ (by simp) 20624 hin

end Gdx.Overhead
