import Mathlib

/-! Summing amounts under keys, in order of first appearance.

    `tally key rows` is a dictionary built by `setdefault` and `+=`: one slot for each key, holding
    the first row's item and the sum of the amounts. Grouping changes no total: any weight that only
    depends on the key sums to the same over the slots as over the rows, and a slot whose amount is
    zero may be dropped. -/

namespace Lib

variable {α κ : Type} [DecidableEq κ]

/-- Add `x` to the slot of `a`, opening one at the end if there is none. -/
def bump (key : α → κ) (a : α) (x : ℤ) : List (α × ℤ) → List (α × ℤ)
  | [] => [(a, x)]
  | s :: slots => if key s.1 = key a then (s.1, s.2 + x) :: slots else s :: bump key a x slots

def tally (key : α → κ) (rows : List (α × ℤ)) : List (α × ℤ) :=
  rows.foldl (fun slots row => bump key row.1 row.2 slots) []

/-- The amounts weighted by their item. -/
def weighted (w : α → ℤ) (rows : List (α × ℤ)) : ℤ := (rows.map fun r => w r.1 * r.2).sum

@[simp] theorem weighted_nil (w : α → ℤ) : weighted w ([] : List (α × ℤ)) = 0 := rfl

@[simp] theorem weighted_cons (w : α → ℤ) (r : α × ℤ) (rows : List (α × ℤ)) :
    weighted w (r :: rows) = w r.1 * r.2 + weighted w rows := by
  simp [weighted]

theorem weighted_append (w : α → ℤ) (rows rows' : List (α × ℤ)) :
    weighted w (rows ++ rows') = weighted w rows + weighted w rows' := by
  simp [weighted]

theorem mem_bump {key : α → κ} {a : α} {x : ℤ} : ∀ {slots : List (α × ℤ)} {s : α × ℤ},
    s ∈ bump key a x slots → s.1 = a ∨ ∃ s' ∈ slots, s'.1 = s.1
  | [], s, h => by
    rw [bump, List.mem_singleton] at h
    exact Or.inl (by rw [h])
  | t :: slots, s, h => by
    rw [bump] at h
    split_ifs at h with hk
    · rcases List.mem_cons.mp h with rfl | h
      · exact Or.inr ⟨t, List.mem_cons_self .., rfl⟩
      · exact Or.inr ⟨s, List.mem_cons_of_mem _ h, rfl⟩
    · rcases List.mem_cons.mp h with rfl | h
      · exact Or.inr ⟨s, List.mem_cons_self .., rfl⟩
      · rcases mem_bump h with h | ⟨s', hs', h⟩
        · exact Or.inl h
        · exact Or.inr ⟨s', List.mem_cons_of_mem _ hs', h⟩

theorem weighted_bump {key : α → κ} {w : α → ℤ} {a : α} {x : ℤ} : ∀ {slots : List (α × ℤ)},
    (∀ s ∈ slots, key s.1 = key a → w s.1 = w a) →
    weighted w (bump key a x slots) = weighted w slots + w a * x
  | [], _ => by simp [bump, weighted]
  | s :: slots, hw => by
    have ih := weighted_bump (x := x) fun s' hs' => hw s' (List.mem_cons_of_mem _ hs')
    rw [bump]
    split_ifs with hk
    · rw [weighted_cons, weighted_cons, hw s (List.mem_cons_self ..) hk]
      ring
    · rw [weighted_cons, weighted_cons, ih]
      ring

/-- The fold of `tally`, from any slots already open. -/
theorem weighted_foldl_bump {key : α → κ} {w : α → ℤ} : ∀ (rows slots : List (α × ℤ)),
    (∀ r ∈ slots ++ rows, ∀ r' ∈ slots ++ rows, key r.1 = key r'.1 → w r.1 = w r'.1) →
    weighted w (rows.foldl (fun slots row => bump key row.1 row.2 slots) slots) =
      weighted w slots + weighted w rows
  | [], slots, _ => by simp
  | row :: rows, slots, hw => by
    have hin : ∀ s ∈ bump key row.1 row.2 slots ++ rows, ∃ r ∈ slots ++ row :: rows, r.1 = s.1 := by
      intro s hs
      rcases List.mem_append.mp hs with hs | hs
      · rcases mem_bump hs with hs | ⟨s', hs', h⟩
        · exact ⟨row, by simp, hs.symm⟩
        · exact ⟨s', List.mem_append_left _ hs', h⟩
      · exact ⟨s, by simp [hs], rfl⟩
    rw [List.foldl_cons, weighted_foldl_bump rows (bump key row.1 row.2 slots), weighted_bump, weighted_cons]
    · ring
    · intro s hs hk
      exact hw s (List.mem_append_left _ hs) row (by simp) hk
    · intro r hr r' hr' hk
      obtain ⟨q, hq, hqr⟩ := hin r hr
      obtain ⟨q', hq', hqr'⟩ := hin r' hr'
      rw [← hqr, ← hqr'] at hk ⊢
      exact hw q hq q' hq' hk

/-- Grouping keeps every weighted total. -/
theorem weighted_tally {key : α → κ} {w : α → ℤ} {rows : List (α × ℤ)}
    (hw : ∀ r ∈ rows, ∀ r' ∈ rows, key r.1 = key r'.1 → w r.1 = w r'.1) :
    weighted w (tally key rows) = weighted w rows := by
  rw [tally, weighted_foldl_bump rows [] (by simpa using hw), weighted_nil, zero_add]

/-- Zero amounts weigh nothing. -/
theorem weighted_filter_nonzero (w : α → ℤ) : ∀ rows : List (α × ℤ),
    weighted w (rows.filter (·.2 ≠ 0)) = weighted w rows
  | [] => rfl
  | r :: rows => by
    have ih := weighted_filter_nonzero w rows
    by_cases h : r.2 = 0
    · rw [List.filter_cons_of_neg (by simp [h]), ih, weighted_cons, h, mul_zero, zero_add]
    · rw [List.filter_cons_of_pos (by simp [h]), weighted_cons, weighted_cons, ih]

/-- A sum over the rows of one kind is a weighted total. -/
theorem sum_filter_eq_weighted (p : α → Bool) (c : ℤ) : ∀ rows : List (α × ℤ),
    ((rows.filter fun r => p r.1).map fun r => c * r.2).sum = weighted (fun a => if p a then c else 0) rows
  | [] => rfl
  | r :: rows => by
    have ih := sum_filter_eq_weighted p c rows
    rw [List.filter_cons]
    by_cases h : p r.1 = true
    · simp [h, ih]
    · simp [h, ih]

/-! ### Slots that are their own keys -/

/-- `slots.get(k, 0)`. -/
def amountAt (slots : List (κ × ℤ)) (k : κ) : ℤ := ((slots.find? (·.1 = k)).map (·.2)).getD 0

theorem amountAt_bump (k a : κ) (x : ℤ) (slots : List (κ × ℤ)) :
    amountAt (bump id a x slots) k = amountAt slots k + if a = k then x else 0 := by
  induction slots with
  | nil =>
    by_cases h : a = k
    · simp [bump, amountAt, h]
    · simp [bump, amountAt, h]
  | cons s slots ih =>
    by_cases hs : s.1 = a
    · by_cases hk : s.1 = k
      · simp [bump, amountAt, hs, hs.symm.trans hk]
      · have hak : a ≠ k := fun h => hk (hs.trans h)
        simp [bump, amountAt, hs, hak]
    · by_cases hk : s.1 = k
      · have hak : a ≠ k := fun h => hs (hk.trans h.symm)
        simp [bump, amountAt, hk, hak, hk ▸ hs]
      · simpa [bump, amountAt, hs, hk] using ih

/-- A slot holds the sum of the amounts under its key. -/
theorem amountAt_foldl_bump (k : κ) (rows slots : List (κ × ℤ)) :
    amountAt (rows.foldl (fun slots row => bump id row.1 row.2 slots) slots) k =
      amountAt slots k + ((rows.filter (·.1 = k)).map (·.2)).sum := by
  induction rows generalizing slots with
  | nil => simp
  | cons r rows ih =>
    rw [List.foldl_cons, ih, amountAt_bump]
    by_cases h : r.1 = k
    · simp [h, add_assoc]
    · simp [h]

/-- The amounts under each of some keys, and under any of them. -/
theorem sum_under_keys {ks : List κ} {p : κ → Bool} (hks : ks.Nodup) (hp : ∀ k, p k = true ↔ k ∈ ks)
    (rows : List (κ × ℤ)) :
    (ks.map fun k => ((rows.filter (·.1 = k)).map (·.2)).sum).sum = ((rows.filter (p ·.1)).map (·.2)).sum := by
  induction rows with
  | nil => simp
  | cons r rows ih =>
    have hsplit : (fun k => (((r :: rows).filter (·.1 = k)).map (·.2)).sum) =
        fun k => (if r.1 = k then r.2 else 0) + ((rows.filter (·.1 = k)).map (·.2)).sum := by
      funext k
      by_cases hk : r.1 = k
      · simp [hk]
      · simp [hk]
    have hone : (ks.map fun k => if r.1 = k then r.2 else 0).sum = if r.1 ∈ ks then r.2 else 0 := by
      clear hp ih hsplit
      induction ks with
      | nil => simp
      | cons k ks ih =>
        obtain ⟨hk, hks⟩ := List.nodup_cons.mp hks
        rw [List.map_cons, List.sum_cons, ih hks]
        by_cases hr : r.1 = k
        · simp [hr, hk]
        · simp [hr]
    rw [hsplit, List.sum_map_add, ih, hone]
    by_cases hr : r.1 ∈ ks
    · simp [hr, (hp r.1).mpr hr]
    · have hnot : p r.1 = false := Bool.eq_false_iff.mpr fun h => hr ((hp r.1).mp h)
      simp [hr, hnot]

end Lib
