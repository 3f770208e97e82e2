import Mathlib.Tactic.Linarith

/-! A balance drawn from in order.

    A balance stands above zero or below it. Each draw is on its side and within what is left of it, so whatever part
    of the draws is made, the balance neither grows nor changes sides. -/

namespace Lib

variable {d d' a : ℤ} {as bs : List ℤ}

/-- `x` is on `d`'s side of zero and no further from it. -/
structure Toward (d x : ℤ) : Prop where
  above : 0 ≤ d → 0 ≤ x ∧ x ≤ d
  below : d ≤ 0 → d ≤ x ∧ x ≤ 0

theorem Toward.refl (d : ℤ) : Toward d d := ⟨fun h => ⟨h, le_rfl⟩, fun h => ⟨le_rfl, h⟩⟩

theorem Toward.trans {x : ℤ} (h : Toward d d') (h' : Toward d' x) : Toward d x := by
  obtain ⟨h₁, h₂⟩ := h
  obtain ⟨h₃, h₄⟩ := h'
  exact ⟨fun hd => by have := h₁ hd; have := h₃ this.1; omega, fun hd => by have := h₂ hd; have := h₄ this.2; omega⟩

/-- What is left after a draw is on the same side. -/
theorem Toward.sub (h : Toward d a) : Toward d (d - a) :=
  ⟨fun hd => by have := h.above hd; omega, fun hd => by have := h.below hd; omega⟩

/-- The same draw leaves the larger balance the larger one. -/
theorem Toward.sub_right (h : Toward d d') (ha : Toward d' a) : Toward (d - a) (d' - a) := by
  obtain ⟨h₁, h₂⟩ := h
  obtain ⟨h₃, h₄⟩ := ha
  rcases le_total 0 d with hd | hd
  · have hd' := h₁ hd
    have ha' := h₃ hd'.1
    exact ⟨fun _ => by omega, fun _ => by omega⟩
  · have hd' := h₂ hd
    have ha' := h₄ hd'.2
    exact ⟨fun _ => by omega, fun _ => by omega⟩

/-- Each amount is within what the earlier ones left. -/
inductive Draws : ℤ → List ℤ → Prop
  | nil (d : ℤ) : Draws d []
  | cons {d a : ℤ} {as : List ℤ} : Toward d a → Draws (d - a) as → Draws d (a :: as)

theorem Draws.of_toward (hd : Toward d d') (h : Draws d' as) : Draws d as := by
  induction h generalizing d with
  | nil => exact .nil d
  | cons ha _ ih => exact .cons (hd.trans ha) (ih (hd.sub_right ha))

/-- Draws may be left out. -/
theorem Draws.sublist (h : Draws d as) (hsub : bs.Sublist as) : Draws d bs := by
  induction hsub generalizing d with
  | slnil => exact h
  | cons a _ ih =>
    cases h with
    | cons ha hrest => exact (ih hrest).of_toward ha.sub
  | cons_cons a _ ih =>
    cases h with
    | cons ha hrest => exact .cons ha (ih hrest)

/-- What is left when all is drawn. -/
theorem Draws.left (h : Draws d as) : Toward d (d - as.sum) := by
  induction h with
  | nil d => simpa using Toward.refl d
  | @cons d a as ha _ ih =>
    rw [List.sum_cons, ← Int.sub_sub]
    exact ha.sub.trans ih

end Lib
