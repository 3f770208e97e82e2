import Mathlib

/-! Runs of a step function, and conditions along them.

    A run folds a step over a list of events. `Along` says that each event meets a condition on the state it finds.
    An invariant that holds at the start and that every such event keeps holds at the end; since each prefix of such a
    run is one too, it holds in every state on the way. -/

namespace Lib

variable {σ α : Type} {step : σ → α → σ} {Fit : σ → α → Prop} {s : σ} {a : α} {as bs : List α}

/-- Each event meets the condition in the state it finds. -/
def Along (step : σ → α → σ) (Fit : σ → α → Prop) : σ → List α → Prop
  | _, [] => True
  | s, a :: as => Fit s a ∧ Along step Fit (step s a) as

theorem along_append : Along step Fit s (as ++ bs) ↔
    Along step Fit s as ∧ Along step Fit (as.foldl step s) bs := by
  induction as generalizing s with
  | nil => simp [Along]
  | cons a as ih => rw [List.cons_append, Along, Along, ih, List.foldl_cons, and_assoc]

theorem along_concat : Along step Fit s (as ++ [a]) ↔ Along step Fit s as ∧ Fit (as.foldl step s) a := by
  rw [along_append]
  simp [Along]

/-- The condition event by event. -/
theorem along_iff : Along step Fit s as ↔
    ∀ before a after, as = before ++ a :: after → Fit (before.foldl step s) a := by
  induction as generalizing s with
  | nil => simp [Along]
  | cons b as ih =>
    rw [Along, ih]
    constructor
    · rintro ⟨hb, has⟩ before a after heq
      cases before with
      | nil =>
        obtain ⟨rfl, -⟩ := List.cons.inj heq
        exact hb
      | cons c before =>
        obtain ⟨rfl, hrest⟩ := List.cons.inj heq
        exact has before a after hrest
    · intro h
      refine ⟨h [] b as rfl, fun before a after heq => ?_⟩
      exact h (b :: before) a after (by rw [heq, List.cons_append])

/-- A condition on the events alone joins one on the states. -/
theorem Along.and {P : α → Prop} (h : Along step Fit s as) (hP : ∀ a ∈ as, P a) :
    Along step (fun s a => Fit s a ∧ P a) s as := by
  induction as generalizing s with
  | nil => trivial
  | cons a as ih =>
    exact ⟨⟨h.1, hP a List.mem_cons_self⟩, ih h.2 fun b hb => hP b (List.mem_cons_of_mem _ hb)⟩

/-- What every fitting event keeps holds at the end of the run. -/
theorem Along.keeps {Inv : σ → Prop} (hstep : ∀ s a, Inv s → Fit s a → Inv (step s a)) (h : Along step Fit s as)
    (hs : Inv s) : Inv (as.foldl step s) := by
  induction as generalizing s with
  | nil => exact hs
  | cons a as ih => exact ih h.2 (hstep s a hs h.1)

/-- A run without a condition. -/
theorem foldl_keeps {Inv : σ → Prop} (hstep : ∀ s a, Inv s → Inv (step s a)) (hs : Inv s) : Inv (as.foldl step s) := by
  induction as generalizing s with
  | nil => exact hs
  | cons a as ih => exact ih (hstep s a hs)

end Lib
