import Mathlib

/-! Computations that can raise and keep what they wrote before raising.

    `EStateM ε σ` is the shape of a database session without savepoints: a raised error leaves the
    state as the last write left it. A sequence succeeds exactly when each part does, and a loop
    runs over an appended list as over its parts. -/

namespace Lib

variable {ε σ α β : Type}

theorem bind_apply (x : EStateM ε σ α) (f : α → EStateM ε σ β) (s : σ) :
    (x >>= f) s = match x s with
      | .ok a s' => f a s'
      | .error e s' => .error e s' := rfl

@[simp] theorem pure_apply (a : α) (s : σ) : (pure a : EStateM ε σ α) s = .ok a s := rfl

@[simp] theorem get_apply (s : σ) : (get : EStateM ε σ σ) s = .ok s s := rfl

/-- A sequence returns exactly when both parts do. -/
theorem bind_ok {x : EStateM ε σ α} {f : α → EStateM ε σ β} {s s' : σ} {b : β} :
    (x >>= f) s = .ok b s' ↔ ∃ a s₁, x s = .ok a s₁ ∧ f a s₁ = .ok b s' := by
  rw [bind_apply]
  cases h : x s with
  | ok a s₁ => simp
  | error e s₁ => simp

/-- A sequence raises when its first part does, or when the second does after the first. -/
theorem bind_error {x : EStateM ε σ α} {f : α → EStateM ε σ β} {s s' : σ} {e : ε} :
    (x >>= f) s = .error e s' ↔
      x s = .error e s' ∨ ∃ a s₁, x s = .ok a s₁ ∧ f a s₁ = .error e s' := by
  rw [bind_apply]
  cases h : x s with
  | ok a s₁ => simp
  | error e' s₁ => simp

theorem bind_of_ok {x : EStateM ε σ α} {f : α → EStateM ε σ β} {s s₁ : σ} {a : α}
    (h : x s = .ok a s₁) : (x >>= f) s = f a s₁ := by
  rw [bind_apply, h]

/-- The same for a computation without state. -/
theorem except_bind_ok {x : Except ε α} {f : α → Except ε β} {b : β} :
    (x >>= f) = .ok b ↔ ∃ a, x = .ok a ∧ f a = .ok b := by
  cases x with
  | ok a => simp [bind, Except.bind]
  | error e => simp [bind, Except.bind]

/-- The state a computation leaves, whether it returns or raises. -/
def after (x : EStateM ε σ α) (s : σ) : σ :=
  match x s with
  | .ok _ s' => s'
  | .error _ s' => s'

@[simp] theorem after_ok {x : EStateM ε σ α} {s s' : σ} {a : α} (h : x s = .ok a s') :
    after x s = s' := by rw [after, h]

@[simp] theorem after_error {x : EStateM ε σ α} {s s' : σ} {e : ε} (h : x s = .error e s') :
    after x s = s' := by rw [after, h]

/-- Whether the computation returns this value. -/
def returns [DecidableEq α] (x : EStateM ε σ α) (s : σ) (a : α) : Bool :=
  match x s with
  | .ok b _ => b == a
  | .error _ _ => false

theorem returns_ok [DecidableEq α] {x : EStateM ε σ α} {s : σ} {a : α} (h : returns x s a = true) :
    x s = .ok a (after x s) := by
  unfold returns at h
  unfold after
  cases hx : x s with
  | ok b s' => simp only [hx, beq_iff_eq] at h ⊢; rw [h]
  | error e s' => simp only [hx] at h; cases h

/-- A `for` loop over a list read before the loop starts. -/
def each (f : α → EStateM ε σ Unit) : List α → EStateM ε σ Unit
  | [] => pure ()
  | a :: as => do
    f a
    each f as

/-- A loop over two lists is the loop over the one, then over the other. -/
theorem each_append_ok {f : α → EStateM ε σ Unit} {as bs : List α} {s s' : σ} :
    each f (as ++ bs) s = .ok () s' ↔ ∃ s₁, each f as s = .ok () s₁ ∧ each f bs s₁ = .ok () s' := by
  induction as generalizing s with
  | nil => simp [each]
  | cons a as ih =>
    rw [List.cons_append, each, bind_ok]
    constructor
    · rintro ⟨⟨⟩, s₁, hone, hrest⟩
      obtain ⟨s₂, has, hbs⟩ := ih.mp hrest
      exact ⟨s₂, bind_ok.mpr ⟨(), s₁, hone, has⟩, hbs⟩
    · rintro ⟨s₂, hall, hbs⟩
      obtain ⟨⟨⟩, s₁, hone, has⟩ := bind_ok.mp hall
      exact ⟨(), s₁, hone, ih.mpr ⟨s₂, has, hbs⟩⟩

/-- A loop of loops is one loop over all their items. -/
theorem each_flatMap_ok {f : α → EStateM ε σ Unit} {g : β → List α} {bs : List β} {s s' : σ} :
    each (fun b => each f (g b)) bs s = .ok () s' ↔ each f (bs.flatMap g) s = .ok () s' := by
  induction bs generalizing s with
  | nil => simp [each]
  | cons b bs ih =>
    rw [List.flatMap_cons, each_append_ok, each, bind_ok]
    constructor
    · rintro ⟨⟨⟩, s₁, hone, hrest⟩
      exact ⟨s₁, hone, ih.mp hrest⟩
    · rintro ⟨s₁, hone, hrest⟩
      exact ⟨(), s₁, hone, ih.mpr hrest⟩

/-- Passes that leave the state leave it together. -/
theorem each_unchanged {f : α → EStateM ε σ Unit} {as : List α} {s : σ} (h : ∀ a ∈ as, f a s = .ok () s) :
    each f as s = .ok () s := by
  induction as with
  | nil => rfl
  | cons a as ih =>
    rw [each, bind_of_ok (h a List.mem_cons_self)]
    exact ih fun b hb => h b (List.mem_cons_of_mem _ hb)

end Lib
