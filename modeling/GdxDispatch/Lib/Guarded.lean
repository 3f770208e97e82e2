import GdxDispatch.Lib.Effect

/-! Writes behind a guard, with no rollback.

    A computation appends to a log, one entry for each write, and asks a guard before each of them. A
    refused write raises, and what was written before it stays. `Plan` says which writes a
    computation makes and in which order; a plan composes like the computation does. A run that was
    refused left its log as it was unless its plan was torn: the first write allowed, a later one not. -/

namespace Lib

variable {ε σ τ ω α β : Type}

/-- What is logged, which errors are the guard's, and which writes it allows. -/
structure Guard (ε σ τ ω : Type) where
  log : σ → List τ
  blocked : ε → Bool
  allowed : ω → Prop

/-- The first write goes through and a later one does not. -/
def Guard.Torn (G : Guard ε σ τ ω) (W : List ω) : Prop :=
  (∃ w ∈ W.head?, G.allowed w) ∧ ∃ w ∈ W, ¬ G.allowed w

/-- A single write goes through or not. -/
theorem Guard.not_torn_of_length {G : Guard ε σ τ ω} {W : List ω} (h : W.length ≤ 1) : ¬ G.Torn W := by
  rintro ⟨⟨v, hv, hok⟩, w, hw, hno⟩
  match W, h with
  | [u], _ =>
    rw [List.mem_singleton.mp hw] at hno
    rw [List.head?_cons, Option.mem_def, Option.some.injEq] at hv
    exact hno (hv ▸ hok)

/-- Started in `s`, the computation makes the writes `W` in order, up to the first refused one. -/
def Guard.Plan (G : Guard ε σ τ ω) (x : EStateM ε σ α) (s : σ) (W : List ω) : Prop :=
  match x s with
  | .ok _ s' => (∀ w ∈ W, G.allowed w) ∧ (G.log s').length = (G.log s).length + W.length ∧
      (W = [] → G.log s' = G.log s)
  | .error e s' => G.blocked e = true → ∃ W₁ w W₂, W = W₁ ++ w :: W₂ ∧ (∀ v ∈ W₁, G.allowed v) ∧
      ¬ G.allowed w ∧ (G.log s').length = (G.log s).length + W₁.length ∧ (W₁ = [] → G.log s' = G.log s)

section Plan
variable {G : Guard ε σ τ ω} {x : EStateM ε σ α} {f : α → EStateM ε σ β} {s s' : σ} {W W' : List ω}

theorem Guard.Plan.ok {a : α} (h : G.Plan x s W) (hx : x s = .ok a s') :
    (∀ w ∈ W, G.allowed w) ∧ (G.log s').length = (G.log s).length + W.length ∧ (W = [] → G.log s' = G.log s) := by
  unfold Guard.Plan at h
  rwa [hx] at h

theorem Guard.Plan.error {e : ε} (h : G.Plan x s W) (hx : x s = .error e s') (hb : G.blocked e = true) :
    ∃ W₁ w W₂, W = W₁ ++ w :: W₂ ∧ (∀ v ∈ W₁, G.allowed v) ∧ ¬ G.allowed w ∧
      (G.log s').length = (G.log s).length + W₁.length ∧ (W₁ = [] → G.log s' = G.log s) := by
  unfold Guard.Plan at h
  rw [hx] at h
  exact h hb

theorem Guard.Plan.of_ok {a : α} (hx : x s = .ok a s') (hW : ∀ w ∈ W, G.allowed w)
    (hlen : (G.log s').length = (G.log s).length + W.length) (hnil : W = [] → G.log s' = G.log s) :
    G.Plan x s W := by
  unfold Guard.Plan
  rw [hx]
  exact ⟨hW, hlen, hnil⟩

theorem Guard.Plan.of_error {e : ε} (hx : x s = .error e s') (hb : G.blocked e = false) : G.Plan x s W := by
  unfold Guard.Plan
  rw [hx]
  intro h
  rw [hb] at h
  cases h

theorem Guard.Plan.pure (a : α) (s : σ) : G.Plan (pure a : EStateM ε σ α) s [] :=
  .of_ok (pure_apply a s) (by simp) (by simp) fun _ => rfl

/-- One computation after another makes the writes of both. -/
theorem Guard.Plan.bind (h : G.Plan x s W) (hf : ∀ a s₁, x s = .ok a s₁ → G.Plan (f a) s₁ W') :
    G.Plan (x >>= f) s (W ++ W') := by
  cases hx : x s with
  | ok a s₁ =>
    obtain ⟨hall, hlen, hnil⟩ := h.ok hx
    have hf := hf a s₁ hx
    cases hy : f a s₁ with
    | ok b s₂ =>
      obtain ⟨hall', hlen', hnil'⟩ := hf.ok hy
      refine .of_ok (by rw [bind_of_ok hx, hy]) ?_ ?_ ?_
      · intro w hw
        rcases List.mem_append.mp hw with hw | hw
        · exact hall w hw
        · exact hall' w hw
      · rw [hlen', hlen, List.length_append]; omega
      · intro hnone
        obtain ⟨h1, h2⟩ := List.append_eq_nil_iff.mp hnone
        rw [hnil' h2, hnil h1]
    | error e s₂ =>
      by_cases hb : G.blocked e = true
      · obtain ⟨W₁, w, W₂, rfl, hall', hno, hlen', hnil'⟩ := hf.error hy hb
        unfold Guard.Plan
        rw [bind_of_ok hx, hy]
        refine fun _ => ⟨W ++ W₁, w, W₂, by simp, ?_, hno, ?_, ?_⟩
        · intro v hv
          rcases List.mem_append.mp hv with hv | hv
          · exact hall v hv
          · exact hall' v hv
        · rw [hlen', hlen, List.length_append]; omega
        · intro hnone
          obtain ⟨h1, h2⟩ := List.append_eq_nil_iff.mp hnone
          rw [hnil' h2, hnil h1]
      · exact .of_error (by rw [bind_of_ok hx, hy]) (by simpa using hb)
  | error e s₁ =>
    by_cases hb : G.blocked e = true
    · obtain ⟨W₁, w, W₂, rfl, hall, hno, hlen, hnil⟩ := h.error hx hb
      unfold Guard.Plan
      rw [bind_apply, hx]
      exact fun _ => ⟨W₁, w, W₂ ++ W', by simp, hall, hno, hlen, hnil⟩
    · exact .of_error (by rw [bind_apply, hx]) (by simpa using hb)

/-- A computation that returned had no torn plan. -/
theorem Guard.Plan.not_torn {a : α} (h : G.Plan x s W) (hx : x s = .ok a s') : ¬ G.Torn W := by
  rintro ⟨-, w, hw, hno⟩
  exact hno ((h.ok hx).1 w hw)

/-- A refused computation left the log as it was, unless its plan was torn; then the log grew. -/
theorem Guard.Plan.refused {e : ε} (h : G.Plan x s W) (hx : x s = .error e s') (hb : G.blocked e = true) :
    (¬ G.Torn W ∧ G.log s' = G.log s) ∨ (G.Torn W ∧ (G.log s).length < (G.log s').length) := by
  obtain ⟨W₁, w, W₂, rfl, hall, hno, hlen, hnil⟩ := h.error hx hb
  cases W₁ with
  | nil =>
    refine Or.inl ⟨?_, hnil rfl⟩
    rintro ⟨⟨v, hv, hok⟩, -⟩
    rw [List.nil_append, List.head?_cons, Option.mem_def, Option.some.injEq] at hv
    exact hno (hv ▸ hok)
  | cons v W₁ =>
    refine Or.inr ⟨⟨⟨v, rfl, hall v (List.mem_cons_self ..)⟩, w, by simp, hno⟩, ?_⟩
    rw [hlen, List.length_cons]; omega

end Plan

end Lib
