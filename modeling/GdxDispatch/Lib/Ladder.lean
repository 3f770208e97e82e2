import Mathlib

/-! Ladders of half-open ranges.

    A rung is a range `[lo, hi)`, or `[lo, ∞)` when `hi` is `none`. Rungs that follow one another without overlap have
    at most one that holds a given point. They hold every point from `a` on exactly when the first one starts at `a`,
    each next one starts where the one before ends, and the last one is open. -/

namespace Lib

variable {κ : Type} [LinearOrder κ] {a x : κ} {r : κ × Option κ} {l : List (κ × Option κ)}

/-- The range holds `x`. -/
def RungHolds (x : κ) (r : κ × Option κ) : Prop := r.1 ≤ x ∧ ∀ h ∈ r.2, x < h

instance (x : κ) (r : κ × Option κ) : Decidable (RungHolds x r) := instDecidableAnd

/-- Nonempty ranges in order, none before `a`, none overlapping; only the last one may be open. -/
def ChainedFrom : κ → List (κ × Option κ) → Prop
  | _, [] => True
  | a, (lo, none) :: l => a ≤ lo ∧ l = []
  | a, (lo, some h) :: l => a ≤ lo ∧ lo < h ∧ ChainedFrom h l

/-- Each range starts where the one before ended, the first at `a`, and the last one is open. -/
def CoversFrom : κ → List (κ × Option κ) → Prop
  | _, [] => False
  | a, (lo, none) :: l => lo = a ∧ l = []
  | a, (lo, some h) :: l => lo = a ∧ CoversFrom h l

theorem ChainedFrom.le_lo : ∀ {a : κ} {l : List (κ × Option κ)}, ChainedFrom a l → ∀ r ∈ l, a ≤ r.1
  | _, (lo, none) :: l, h, r, hr => by
    obtain ⟨hlo, rfl⟩ := h
    rw [List.mem_singleton.mp hr]
    exact hlo
  | _, (lo, some hi) :: l, h, r, hr => by
    obtain ⟨hlo, hlt, hl⟩ := h
    rcases List.mem_cons.mp hr with rfl | hr
    · exact hlo
    · exact hlo.trans (hlt.le.trans (hl.le_lo r hr))

/-- A point before the chain is in none of its ranges. -/
theorem ChainedFrom.not_holds (h : ChainedFrom a l) (hx : x < a) : ∀ r ∈ l, ¬ RungHolds x r :=
  fun r hr hholds => absurd hholds.1 (not_le.mpr (hx.trans_le (h.le_lo r hr)))

theorem ChainedFrom.filter_eq_nil (h : ChainedFrom a l) (hx : x < a) :
    l.filter (fun r => decide (RungHolds x r)) = [] := by
  simpa using h.not_holds hx

theorem ChainedFrom.length_filter_le : ∀ {a : κ} {l : List (κ × Option κ)}, ChainedFrom a l →
    (l.filter fun r => decide (RungHolds x r)).length ≤ 1
  | _, [], _ => by simp
  | _, (lo, none) :: l, h => by
    rw [h.2]
    exact List.length_filter_le _ _
  | _, (lo, some hi) :: l, h => by
    rw [List.filter_cons]
    split
    · rename_i hholds
      have hx : x < hi := (of_decide_eq_true hholds).2 hi rfl
      simp [h.2.2.filter_eq_nil hx]
    · exact h.2.2.length_filter_le

theorem CoversFrom.holds : ∀ {a : κ} {l : List (κ × Option κ)}, CoversFrom a l → a ≤ x → ∃ r ∈ l, RungHolds x r
  | _, (lo, none) :: l, h, hx => ⟨_, List.mem_cons_self, h.1 ▸ hx, fun _ => nofun⟩
  | _, (lo, some hi) :: l, h, hx => by
    by_cases hlt : x < hi
    · refine ⟨_, List.mem_cons_self, h.1 ▸ hx, ?_⟩
      rintro _ ⟨⟩
      exact hlt
    · obtain ⟨r, hr, hholds⟩ := h.2.holds (not_lt.mp hlt)
      exact ⟨r, List.mem_cons_of_mem _ hr, hholds⟩

/-- Chained ranges that hold every point from `a` on leave no room between them. -/
theorem ChainedFrom.covers : ∀ {a : κ} {l : List (κ × Option κ)}, ChainedFrom a l →
    (∀ x, a ≤ x → ∃ r ∈ l, RungHolds x r) → CoversFrom a l
  | a, [], _, hall => by
    obtain ⟨r, hr, -⟩ := hall a le_rfl
    exact absurd hr List.not_mem_nil
  | a, (lo, none) :: l, h, hall => by
    obtain ⟨hlo, rfl⟩ := h
    obtain ⟨r, hr, hholds⟩ := hall a le_rfl
    rw [List.mem_singleton.mp hr] at hholds
    exact ⟨le_antisymm hholds.1 hlo, rfl⟩
  | a, (lo, some hi) :: l, h, hall => by
    obtain ⟨hlo, hlt, hl⟩ := h
    -- what holds the first point starts no later, and the ranges that follow start later
    have hfirst : lo = a := by
      obtain ⟨r, hr, hholds⟩ := hall a le_rfl
      rcases List.mem_cons.mp hr with rfl | hr
      · exact le_antisymm hholds.1 hlo
      · exact absurd hholds.1 (not_le.mpr ((hlo.trans_lt hlt).trans_le (hl.le_lo r hr)))
    refine ⟨hfirst, hl.covers fun x hx => ?_⟩
    obtain ⟨r, hr, hholds⟩ := hall x ((hlo.trans_lt hlt).le.trans hx)
    rcases List.mem_cons.mp hr with rfl | hr
    · exact absurd (hholds.2 hi rfl) (not_lt.mpr hx)
    · exact ⟨r, hr, hholds⟩

/-- A ladder without overlaps holds every point from `a` on exactly when it has no gaps, starts at `a` and is open
    at the top. -/
theorem ChainedFrom.covers_iff (h : ChainedFrom a l) : (∀ x, a ≤ x → ∃ r ∈ l, RungHolds x r) ↔ CoversFrom a l :=
  ⟨h.covers, fun hc _ hx => hc.holds hx⟩

end Lib
