import Mathlib

/-! The changes of a function of a running total.

    Dated amounts are added up in the order of their dates, and each changes a function of the total by what it is
    after less what it was before. Over any span of dates the changes add up to what the function is at the end of the
    span less what it was at its start. -/

namespace Lib

variable {δ : Type} {f : ℤ → ℤ} {cum : ℤ} {rows : List (δ × ℤ)} {p : δ → Bool}

/-- How each amount changes the function of the running total. -/
def changes (f : ℤ → ℤ) : ℤ → List (δ × ℤ) → List (δ × ℤ)
  | _, [] => []
  | cum, (d, x) :: rows => (d, f (cum + x) - f cum) :: changes f (cum + x) rows

/-- The amounts of the dates that meet a condition. -/
def totalWhere (p : δ → Bool) (rows : List (δ × ℤ)) : ℤ := ((rows.filter fun r => p r.1).map (·.2)).sum

@[simp] theorem totalWhere_nil (p : δ → Bool) : totalWhere p [] = 0 := rfl

theorem totalWhere_cons (p : δ → Bool) (r : δ × ℤ) (rows : List (δ × ℤ)) :
    totalWhere p (r :: rows) = (if p r.1 then r.2 else 0) + totalWhere p rows := by
  unfold totalWhere
  rw [List.filter_cons]
  split <;> simp

theorem totalWhere_eq_zero (h : ∀ r ∈ rows, p r.1 = false) : totalWhere p rows = 0 := by
  have hnil : rows.filter (fun r => p r.1) = [] :=
    List.filter_eq_nil_iff.mpr fun r hr => by rw [h r hr]; exact Bool.false_ne_true
  rw [totalWhere, hnil]
  rfl

theorem mem_changes_date {r : δ × ℤ} (h : r ∈ changes f cum rows) : ∃ q ∈ rows, q.1 = r.1 := by
  induction rows generalizing cum with
  | nil => cases h
  | cons q rows ih =>
    rcases List.mem_cons.mp h with rfl | hrest
    · exact ⟨q, List.mem_cons_self, rfl⟩
    · obtain ⟨q', hq', heq⟩ := ih hrest
      exact ⟨q', List.mem_cons_of_mem _ hq', heq⟩

/-- A change is what the function is at one total less what it is at another. -/
theorem exists_of_mem_changes {r : δ × ℤ} (h : r ∈ changes f cum rows) : ∃ a b, r.2 = f a - f b := by
  induction rows generalizing cum with
  | nil => cases h
  | cons q rows ih =>
    rcases List.mem_cons.mp h with rfl | hrest
    · exact ⟨_, _, rfl⟩
    · exact ih hrest

theorem changes_dates (f : ℤ → ℤ) (cum : ℤ) (rows : List (δ × ℤ)) :
    (changes f cum rows).map (·.1) = rows.map (·.1) := by
  induction rows generalizing cum with
  | nil => rfl
  | cons r rows ih => rw [changes, List.map_cons, List.map_cons, ih]

section Dates
variable [LinearOrder δ] {start stop : δ}

/-- The changes of the dates up to some point add up to the change over all of them. -/
theorem totalWhere_changes (hsorted : rows.Pairwise fun r r' => r.1 ≤ r'.1) (hp : ∀ a b, a ≤ b → p b = true → p a = true) :
    totalWhere p (changes f cum rows) = f (cum + totalWhere p rows) - f cum := by
  induction rows generalizing cum with
  | nil => simp [changes]
  | cons r rows ih =>
    obtain ⟨hfirst, hrest⟩ := List.pairwise_cons.mp hsorted
    rw [changes, totalWhere_cons, totalWhere_cons]
    by_cases hr : p r.1 = true
    · rw [if_pos hr, if_pos hr, ih hrest, add_assoc]
      exact sub_add_sub_cancel' _ _ _
    · have hlater : ∀ q ∈ rows, p q.1 = false := fun q hq =>
        Bool.eq_false_iff.mpr fun h => hr (hp _ _ (hfirst q hq) h)
      have hchanges : totalWhere p (changes f (cum + r.2) rows) = 0 := totalWhere_eq_zero fun c hc => by
        obtain ⟨q, hq, heq⟩ := mem_changes_date hc
        rw [← heq]
        exact hlater q hq
      rw [if_neg hr, if_neg hr, hchanges, totalWhere_eq_zero hlater]
      simp

/-- The span from `start` to `stop`. -/
def inSpan (start stop d : δ) : Bool := decide (start ≤ d) && decide (d ≤ stop)

/-- A span is what lies up to its end without what lies before its start. -/
theorem totalWhere_inSpan (hle : start ≤ stop) (rows : List (δ × ℤ)) :
    totalWhere (inSpan start stop) rows =
      totalWhere (fun d => d ≤ stop) rows - totalWhere (fun d => d < start) rows := by
  induction rows with
  | nil => rfl
  | cons r rows ih =>
    have hlt : r.1 < start → r.1 ≤ stop := fun h => h.le.trans hle
    rw [totalWhere_cons, totalWhere_cons, totalWhere_cons, ih]
    by_cases h1 : r.1 ≤ stop <;> by_cases h2 : r.1 < start
    · simp [inSpan, h1, h2]
    · simp [inSpan, h1, h2, not_lt.mp h2]
      ring
    · exact absurd (hlt h2) h1
    · simp [inSpan, h1, h2]

/-- The changes within a span add up to the change from its start to its end. -/
theorem changes_inSpan (hsorted : rows.Pairwise fun r r' => r.1 ≤ r'.1) (hle : start ≤ stop) :
    totalWhere (inSpan start stop) (changes f cum rows) =
      f (cum + totalWhere (fun d => d ≤ stop) rows) - f (cum + totalWhere (fun d => d < start) rows) := by
  have hstop : ∀ a b : δ, a ≤ b → decide (b ≤ stop) = true → decide (a ≤ stop) = true := by
    intro a b hab hb
    exact decide_eq_true (hab.trans (of_decide_eq_true hb))
  have hstart : ∀ a b : δ, a ≤ b → decide (b < start) = true → decide (a < start) = true := by
    intro a b hab hb
    exact decide_eq_true (hab.trans_lt (of_decide_eq_true hb))
  rw [totalWhere_inSpan hle, totalWhere_changes hsorted hstop, totalWhere_changes hsorted hstart]
  exact sub_sub_sub_cancel_right _ _ _

theorem changes_sorted (hsorted : rows.Pairwise fun r r' => r.1 ≤ r'.1) :
    (changes f cum rows).Pairwise fun r r' => r.1 ≤ r'.1 := by
  have hdates : (rows.map (·.1)).Pairwise (· ≤ ·) := List.pairwise_map.mpr hsorted
  rw [← changes_dates f cum rows] at hdates
  exact List.pairwise_map.mp hdates

end Dates

/-- A span of days is the days up to one of them and the days after it. -/
theorem filter_inSpan_split {rows : List (ℤ × ℤ)} {start mid stop : ℤ}
    (hsorted : rows.Pairwise fun r r' => r.1 ≤ r'.1) (hstart : start ≤ mid) (hstop : mid < stop) :
    rows.filter (fun r => inSpan start stop r.1) =
      rows.filter (fun r => inSpan start mid r.1) ++ rows.filter (fun r => inSpan (mid + 1) stop r.1) := by
  induction rows with
  | nil => rfl
  | cons r rows ih =>
    obtain ⟨hfirst, hrest⟩ := List.pairwise_cons.mp hsorted
    have ih := ih hrest
    by_cases hmid : r.1 ≤ mid
    · have hsame : inSpan start stop r.1 = inSpan start mid r.1 := by
        rw [Bool.eq_iff_iff]
        simp only [inSpan, Bool.and_eq_true, decide_eq_true_eq]
        omega
      have hout : inSpan (mid + 1) stop r.1 = false := by
        simp only [inSpan, Bool.and_eq_false_iff, decide_eq_false_iff_not]
        omega
      rw [List.filter_cons, List.filter_cons, List.filter_cons, hsame, hout, ih]
      split <;> simp
    · -- from here on every day lies after `mid`
      have hnone : ∀ xs : List (ℤ × ℤ), (∀ x ∈ xs, mid < x.1) → xs.filter (fun r => inSpan start mid r.1) = [] ∧
          xs.filter (fun r => inSpan start stop r.1) = xs.filter (fun r => inSpan (mid + 1) stop r.1) := by
        intro xs hxs
        refine ⟨List.filter_eq_nil_iff.mpr fun x hx => ?_, List.filter_congr fun x hx => ?_⟩
        · have := hxs x hx
          simp only [inSpan, Bool.and_eq_true, decide_eq_true_eq]
          omega
        · have := hxs x hx
          rw [Bool.eq_iff_iff]
          simp only [inSpan, Bool.and_eq_true, decide_eq_true_eq]
          omega
      obtain ⟨hnil, heq⟩ := hnone (r :: rows) (by
        intro x hx
        rcases List.mem_cons.mp hx with rfl | hx
        · omega
        · have := hfirst x hx
          omega)
      rw [hnil, heq, List.nil_append]

end Lib
