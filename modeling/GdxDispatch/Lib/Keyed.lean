import Mathlib

/-! Tables with a primary key.

    A table is a list of rows whose keys are distinct: a row is read by its key, replaced in place, or added under a
    new key. A total over the table changes by what the written row brings less what the old one had. -/

namespace Lib

variable {ρ κ : Type} [DecidableEq κ] {key : ρ → κ} {rows : List ρ} {k : κ} {r q : ρ}

/-- The row under a key. -/
def rowOf (key : ρ → κ) (rows : List ρ) (k : κ) : Option ρ := rows.find? (key · = k)

/-- The table with the row under `r`'s key replaced by `r`. -/
def putRow (key : ρ → κ) (rows : List ρ) (r : ρ) : List ρ := rows.map fun q => if key q = key r then r else q

theorem mem_of_rowOf (h : rowOf key rows k = some r) : r ∈ rows := List.mem_of_find?_eq_some h

theorem key_of_rowOf (h : rowOf key rows k = some r) : key r = k := by
  simpa using List.find?_some h

theorem rowOf_eq_some_iff (hkeys : (rows.map key).Nodup) : rowOf key rows k = some r ↔ r ∈ rows ∧ key r = k := by
  refine ⟨fun h => ⟨mem_of_rowOf h, key_of_rowOf h⟩, ?_⟩
  rintro ⟨hr, rfl⟩
  cases hfind : rowOf key rows (key r) with
  | none => simpa using List.find?_eq_none.mp hfind r hr
  | some q => rw [List.inj_on_of_nodup_map hkeys (mem_of_rowOf hfind) hr (key_of_rowOf hfind)]

theorem keys_putRow : (putRow key rows r).map key = rows.map key := by
  rw [putRow, List.map_map]
  refine List.map_congr_left fun q _ => ?_
  simp only [Function.comp_apply]
  split
  · rename_i h
    exact h.symm
  · rfl

theorem mem_putRow : q ∈ putRow key rows r ↔
    (q ∈ rows ∧ key q ≠ key r) ∨ (q = r ∧ ∃ o ∈ rows, key o = key r) := by
  simp only [putRow, List.mem_map]
  constructor
  · rintro ⟨o, ho, rfl⟩
    by_cases hk : key o = key r
    · exact .inr ⟨by simp [hk], o, ho, hk⟩
    · exact .inl (by simp [hk, ho])
  · rintro (⟨hq, hk⟩ | ⟨rfl, o, ho, hk⟩)
    · exact ⟨q, hq, by simp [hk]⟩
    · exact ⟨o, ho, by simp [hk]⟩

theorem rowOf_putRow_ne (hk : k ≠ key r) : rowOf key (putRow key rows r) k = rowOf key rows k := by
  induction rows with
  | nil => rfl
  | cons q rows ih =>
    simp only [rowOf, putRow, List.map_cons, List.find?_cons] at ih ⊢
    by_cases hq : key q = key r
    · have hqk : key q ≠ k := fun h => hk (h ▸ hq)
      have hrk : key r ≠ k := fun h => hk h.symm
      simpa [hq, hqk, hrk] using ih
    · by_cases hqk : key q = k
      · simp [hqk, hk]
      · simpa [hq, hqk] using ih

theorem rowOf_putRow_self (h : rowOf key rows (key r) = some q) : rowOf key (putRow key rows r) (key r) = some r := by
  induction rows with
  | nil => cases h
  | cons o rows ih =>
    simp only [rowOf, putRow, List.map_cons, List.find?_cons] at ih h ⊢
    by_cases ho : key o = key r
    · simp [ho]
    · simp only [ho, decide_false, if_false] at h ⊢
      exact ih h

/-- An update of all rows that leaves the keys. -/
theorem rowOf_map {f : ρ → ρ} (hf : ∀ r, key (f r) = key r) : rowOf key (rows.map f) k = (rowOf key rows k).map f := by
  simp [rowOf, List.find?_map, hf]

theorem rowOf_putRow_none (h : rowOf key rows k = none) : rowOf key (putRow key rows r) k = none := by
  rw [rowOf, List.find?_eq_none] at h ⊢
  intro q hq
  rcases mem_putRow.mp hq with ⟨hq, -⟩ | ⟨rfl, o, ho, hk⟩
  · exact h q hq
  · simpa [hk] using h o ho

theorem rowOf_append_ne (hk : k ≠ key r) : rowOf key (rows ++ [r]) k = rowOf key rows k := by
  have hne : key r ≠ k := fun h => hk h.symm
  simp [rowOf, List.find?_append, hne]

theorem rowOf_append_self (h : rowOf key rows (key r) = none) : rowOf key (rows ++ [r]) (key r) = some r := by
  rw [rowOf] at h
  simp [rowOf, List.find?_append, h]

/-- Replacing a row changes a total by what the row brings less what the old one had. -/
theorem sum_putRow (hkeys : (rows.map key).Nodup) (f : ρ → ℤ) (h : rowOf key rows (key r) = some q) :
    ((putRow key rows r).map f).sum = (rows.map f).sum - f q + f r := by
  induction rows with
  | nil => cases h
  | cons o rows ih =>
    obtain ⟨hnew, hkeys⟩ := List.nodup_cons.mp hkeys
    by_cases ho : key o = key r
    · -- the row is the first one, and no other carries its key
      have hoq : o = q := by simpa [rowOf, ho] using h
      have hsame : putRow key rows r = rows := by
        refine (List.map_congr_left fun p hp => ?_).trans (List.map_id rows)
        have hne : key p ≠ key r := fun hpk => hnew (ho ▸ hpk ▸ List.mem_map_of_mem hp)
        simp [hne]
      have hcons : putRow key (o :: rows) r = r :: rows := by
        rw [putRow, List.map_cons, if_pos ho]
        exact congrArg _ hsame
      rw [hcons, hoq, List.map_cons, List.map_cons, List.sum_cons, List.sum_cons]
      ring
    · have hrest : rowOf key rows (key r) = some q := by simpa [rowOf, ho] using h
      have hcons : putRow key (o :: rows) r = o :: putRow key rows r := by
        rw [putRow, List.map_cons, if_neg ho]
        rfl
      rw [hcons, List.map_cons, List.map_cons, List.sum_cons, List.sum_cons, ih hkeys hrest]
      ring

theorem eraseDups_nodup {α : Type} [BEq α] [LawfulBEq α] : ∀ (l : List α), l.eraseDups.Nodup
  | [] => by simp
  | a :: l => by
    rw [List.eraseDups_cons, List.nodup_cons]
    refine ⟨?_, eraseDups_nodup (l.filter fun b => !b == a)⟩
    simp [List.mem_eraseDups]
  termination_by l => l.length
  decreasing_by exact Nat.lt_succ_of_le (List.length_filter_le _ _)

end Lib
