import GdxDispatch.Billing.Api

/-! The tax share of a credit: `core/invoice_tax.py`.

    A credit gives back its share of the invoice's tax, rounded half up to the cent and capped at that tax. Every credit
    rounds on its own, so the shares of a split may come to more than the tax, by half a cent for each credit at most. -/

namespace Gdx

/-- `credit_tax_component`, in cents. -/
def creditTaxComponent (total tax amount : ℤ) : ℤ :=
  if total ≤ 0 ∨ tax ≤ 0 ∨ amount ≤ 0 then 0 else min (roundHalfUp (amount * tax / total)) tax

/-- What the credits of an invoice give back of its tax. -/
def creditedTax (total tax : ℤ) (credits : List ℤ) : ℤ := (credits.map (creditTaxComponent total tax)).sum

theorem roundHalfUp_near {x : ℚ} (h : 0 ≤ x) : |(roundHalfUp x : ℚ) - x| ≤ 1 / 2 := by
  unfold roundHalfUp
  rw [if_pos h, abs_le]
  have hle := Int.floor_le (x + 1 / 2)
  have hlt := Int.lt_floor_add_one (x + 1 / 2)
  constructor
  · linarith
  · linarith

theorem roundHalfUp_le {x : ℚ} (h : 0 ≤ x) {n : ℤ} (hn : x ≤ n) : roundHalfUp x ≤ n := by
  unfold roundHalfUp
  rw [if_pos h]
  have hlt : ⌊x + 1 / 2⌋ < n + 1 := by
    rw [Int.floor_lt]
    push_cast
    linarith
  omega

theorem roundHalfUp_nonneg {x : ℚ} (h : 0 ≤ x) : 0 ≤ roundHalfUp x := by
  unfold roundHalfUp
  rw [if_pos h]
  exact Int.floor_nonneg.mpr (by linarith)

theorem roundHalfUp_intCast {n : ℤ} (h : 0 ≤ n) : roundHalfUp (n : ℚ) = n := by
  have hcast : (0 : ℚ) ≤ n := by exact_mod_cast h
  have hle := roundHalfUp_le hcast (n := n) le_rfl
  unfold roundHalfUp at hle ⊢
  rw [if_pos hcast] at hle ⊢
  refine le_antisymm hle (Int.le_floor.mpr ?_)
  linarith

/-- A credit of at most the total gives back between nothing and the whole tax, within half a cent of its exact share. -/
theorem creditTaxComponent_share {total amount : ℤ} (tax : ℤ) (hpos : 0 < amount) (hle : amount ≤ total) :
    0 ≤ creditTaxComponent total tax amount ∧ creditTaxComponent total tax amount ≤ max tax 0 ∧
      |(creditTaxComponent total tax amount : ℚ) - max (tax : ℚ) 0 * amount / total| ≤ 1 / 2 := by
  have htotal : 0 < total := hpos.trans_le hle
  unfold creditTaxComponent
  by_cases htax : tax ≤ 0
  · have hcast : (tax : ℚ) ≤ 0 := by exact_mod_cast htax
    rw [if_pos (Or.inr (Or.inl htax)), max_eq_right htax, max_eq_right hcast]
    norm_num
  · push Not at htax
    have hcast : (0 : ℚ) ≤ tax := by exact_mod_cast htax.le
    have hq : (0 : ℚ) < total := by exact_mod_cast htotal
    have hshare : (0 : ℚ) ≤ amount * tax / total := by positivity
    have hcap : (amount * tax / total : ℚ) ≤ tax := by
      rw [div_le_iff₀ hq, mul_comm]
      exact mul_le_mul_of_nonneg_left (by exact_mod_cast hle) hcast
    rw [if_neg (by omega), min_eq_left (roundHalfUp_le hshare hcap), max_eq_left htax.le, max_eq_left hcast]
    refine ⟨roundHalfUp_nonneg hshare, roundHalfUp_le hshare hcap, ?_⟩
    rw [mul_comm (tax : ℚ)]
    exact roundHalfUp_near hshare

/-- The shares of a split add up to the share of its sum, within half a cent for each credit. -/
theorem creditedTax_near (total tax : ℤ) (credits : List ℤ) (hpos : ∀ a ∈ credits, 0 < a) (hle : ∀ a ∈ credits, a ≤ total) :
    |(creditedTax total tax credits : ℚ) - max (tax : ℚ) 0 * credits.sum / total| ≤ credits.length / 2 := by
  induction credits with
  | nil => simp [creditedTax]
  | cons a rest ih =>
    have hrest := ih (fun b hb => hpos b (List.mem_cons_of_mem _ hb)) (fun b hb => hle b (List.mem_cons_of_mem _ hb))
    have hone := (creditTaxComponent_share tax (hpos a List.mem_cons_self) (hle a List.mem_cons_self)).2.2
    have hsplit : (creditedTax total tax (a :: rest) : ℚ) - max (tax : ℚ) 0 * ((a :: rest).sum : ℤ) / total =
        ((creditTaxComponent total tax a : ℚ) - max (tax : ℚ) 0 * a / total) +
          ((creditedTax total tax rest : ℚ) - max (tax : ℚ) 0 * (rest.sum : ℤ) / total) := by
      simp only [creditedTax, List.map_cons, List.sum_cons]
      push_cast
      ring
    have hlength : ((a :: rest).length : ℚ) / 2 = 1 / 2 + (rest.length : ℚ) / 2 := by
      rw [List.length_cons]
      push_cast
      ring
    rw [hsplit, hlength]
    exact (abs_add_le _ _).trans (add_le_add hone hrest)

/-- The tax credits give back. For any positive credits of at most an invoice's total, each gives back between nothing
    and the whole tax; together they are within half a cent per credit of the tax's share for their sum, so of the tax
    itself when they come to the total; and one credit for the total gives back the tax. -/
theorem credits_give_back_their_share (total tax : ℤ) (credits : List ℤ) (hpos : ∀ a ∈ credits, 0 < a)
    (hsum : credits.sum ≤ total) :
    (∀ a ∈ credits, 0 ≤ creditTaxComponent total tax a ∧ creditTaxComponent total tax a ≤ max tax 0) ∧
      |(creditedTax total tax credits : ℚ) - max (tax : ℚ) 0 * credits.sum / total| ≤ credits.length / 2 ∧
      (creditedTax total tax credits : ℚ) ≤ max (tax : ℚ) 0 + credits.length / 2 ∧
      (credits ≠ [] → credits.sum = total →
        |(creditedTax total tax credits : ℚ) - max (tax : ℚ) 0| ≤ credits.length / 2) ∧
      (0 < total → creditedTax total tax [total] = max tax 0) := by
  have hnonneg : ∀ a ∈ credits, 0 ≤ a := fun a ha => (hpos a ha).le
  have hle : ∀ a ∈ credits, a ≤ total := fun a ha => (List.single_le_sum hnonneg a ha).trans hsum
  have hnear := creditedTax_near total tax credits hpos hle
  have hT : (0 : ℚ) ≤ max (tax : ℚ) 0 := le_max_right _ _
  refine ⟨fun a ha => ?_, hnear, ?_, ?_, ?_⟩
  · obtain ⟨hlow, hhigh, -⟩ := creditTaxComponent_share tax (hpos a ha) (hle a ha)
    exact ⟨hlow, hhigh⟩
  · have hshare : max (tax : ℚ) 0 * credits.sum / total ≤ max (tax : ℚ) 0 := by
      rcases le_or_gt total 0 with hneg | htotal
      · have hcast : (total : ℚ) ≤ 0 := by exact_mod_cast hneg
        have hsum0 : (0 : ℚ) ≤ credits.sum := by exact_mod_cast List.sum_nonneg hnonneg
        exact (div_nonpos_of_nonneg_of_nonpos (mul_nonneg hT hsum0) hcast).trans hT
      · have hq : (0 : ℚ) < total := by exact_mod_cast htotal
        rw [div_le_iff₀ hq]
        exact mul_le_mul_of_nonneg_left (by exact_mod_cast hsum) hT
    linarith [(abs_le.mp hnear).2]
  · intro hne heq
    have htotal : (total : ℚ) ≠ 0 := by
      obtain ⟨a, ha⟩ := List.exists_mem_of_ne_nil credits hne
      have : 0 < total := (hpos a ha).trans_le (hle a ha)
      exact_mod_cast this.ne'
    rwa [heq, mul_div_cancel_right₀ _ htotal] at hnear
  · intro htotal
    have hq : (total : ℚ) ≠ 0 := by exact_mod_cast htotal.ne'
    simp only [creditedTax, List.map_cons, List.map_nil, List.sum_cons, List.sum_nil, add_zero]
    unfold creditTaxComponent
    by_cases htax : tax ≤ 0
    · rw [if_pos (Or.inr (Or.inl htax)), max_eq_right htax]
    · push Not at htax
      rw [if_neg (by omega), mul_comm, mul_div_cancel_right₀ _ hq, roundHalfUp_intCast htax.le, min_self,
        max_eq_left htax.le]

theorem credits_give_back_their_share_thirds :
    (creditedTax 1000 69 [333, 333, 334] : ℚ) ≤ 69 + 3 / 2 ∧ creditedTax 1000 69 [1000] = 69 := by
  obtain ⟨-, -, hbound, -, hwhole⟩ := credits_give_back_their_share 1000 69 [333, 333, 334] (by decide) (by decide)
  exact ⟨by simpa using hbound, by simpa using hwhole (by decide)⟩

/-- A dollar with one cent of tax, credited in two halves: each half gives the cent back. -/
theorem two_halves_credit_tax_twice :
    (∀ a ∈ ([50, 50] : List ℤ), 0 < a) ∧ ([50, 50] : List ℤ).sum = 100 ∧ ¬creditedTax 100 1 [50, 50] ≤ 1 ∧
      creditedTax 100 1 [50, 50] ≠ 1 := by
  decide +kernel

end Gdx
