import Mathlib.Data.List.DropRight

/-! Words of a text: the longest runs of the characters one keeps.

    Replacing every run of other characters by one gap and trimming the ends leaves the words joined by gaps, so the
    result says what the words are and nothing else. Words under a narrower choice of characters are the words of the
    words under a wider one. -/

namespace Lib

variable {α : Type} {keep wide blank : α → Bool} {gap : α}

/-- The run a text starts with, and the words after it. -/
def runs (keep : α → Bool) : List α → List α × List (List α)
  | [] => ([], [])
  | c :: cs =>
    let (w, ws) := runs keep cs
    if keep c then (c :: w, ws) else ([], if w.isEmpty then ws else w :: ws)

/-- The words of a text. -/
def words (keep : α → Bool) (t : List α) : List (List α) :=
  if (runs keep t).1.isEmpty then (runs keep t).2 else (runs keep t).1 :: (runs keep t).2

/-- Every run of other characters becomes one gap, and none at all after a gap. -/
def collapse (keep : α → Bool) (gap : α) : Bool → List α → List α
  | _, [] => []
  | after, c :: cs =>
    if keep c then c :: collapse keep gap false cs
    else if after then collapse keep gap true cs
    else gap :: collapse keep gap true cs

/-- Blanks dropped on both ends. -/
def trim (blank : α → Bool) (t : List α) : List α := ((t.dropWhile blank).reverse.dropWhile blank).reverse

/-- Each word behind a gap. -/
def joined (gap : α) (ws : List (List α)) : List α := ws.flatMap (gap :: ·)

/-- The words with one gap between them. -/
def spaced (gap : α) (ws : List (List α)) : List α := (joined gap ws).tail

theorem runs_keep {c : α} {cs : List α} (h : keep c = true) :
    runs keep (c :: cs) = (c :: (runs keep cs).1, (runs keep cs).2) := by
  simp [runs, h]

theorem runs_other {c : α} {cs : List α} (h : keep c = false) : runs keep (c :: cs) = ([], words keep cs) := by
  simp [runs, words, h]

theorem words_keep {c : α} {cs : List α} (h : keep c = true) :
    words keep (c :: cs) = (c :: (runs keep cs).1) :: (runs keep cs).2 := by
  simp [words, runs_keep h]

theorem words_other {c : α} {cs : List α} (h : keep c = false) : words keep (c :: cs) = words keep cs := by
  simp [words, runs_other h]

theorem runs_kept {t : List α} :
    (∀ c ∈ (runs keep t).1, keep c = true) ∧ ∀ w ∈ (runs keep t).2, w ≠ [] ∧ ∀ c ∈ w, keep c = true := by
  induction t with
  | nil => simp [runs]
  | cons c cs ih =>
    cases hc : keep c with
    | true =>
      rw [runs_keep hc]
      refine ⟨?_, ih.2⟩
      intro d hd
      rcases List.mem_cons.mp hd with rfl | hd
      · exact hc
      · exact ih.1 d hd
    | false =>
      rw [runs_other hc]
      refine ⟨by simp, ?_⟩
      intro w hw
      unfold words at hw
      split at hw
      · exact ih.2 w hw
      · rename_i hne
        rcases List.mem_cons.mp hw with rfl | hw
        · exact ⟨by simpa using hne, ih.1⟩
        · exact ih.2 w hw

/-- A word is not empty, and keeps all its characters. -/
theorem words_kept {t w : List α} (hw : w ∈ words keep t) : w ≠ [] ∧ ∀ c ∈ w, keep c = true := by
  have hkept := @runs_kept _ keep t
  unfold words at hw
  split at hw
  · exact hkept.2 w hw
  · rename_i hne
    rcases List.mem_cons.mp hw with rfl | hw
    · exact ⟨by simpa using hne, hkept.1⟩
    · exact hkept.2 w hw

/-! ### What collapsing leaves -/

section Collapse

theorem rdropWhile_cons (p : α → Bool) (a : α) (l : List α) :
    (a :: l).rdropWhile p = if l.rdropWhile p = [] ∧ p a = true then [] else a :: l.rdropWhile p := by
  unfold List.rdropWhile
  rw [List.reverse_cons, List.dropWhile_append]
  by_cases hl : l.reverse.dropWhile p = []
  · cases ha : p a <;> simp [hl, ha]
  · simp [hl]

variable (hgap : blank gap = true) (hkeep : ∀ c, keep c = true → blank c = false)

include hgap hkeep

/-- Without its blanks at the end, a collapsed text is its first run and every further word behind a gap. -/
theorem collapse_rdrop (t : List α) :
    (collapse keep gap true t).rdropWhile blank = spaced gap (words keep t) ∧
      (collapse keep gap false t).rdropWhile blank = (runs keep t).1 ++ joined gap (runs keep t).2 := by
  induction t with
  | nil => exact ⟨rfl, rfl⟩
  | cons c cs ih =>
    obtain ⟨ihafter, ihinside⟩ := ih
    cases hc : keep c with
    | true =>
      have hblank := hkeep c hc
      have hrun : (c :: collapse keep gap false cs).rdropWhile blank =
          (runs keep (c :: cs)).1 ++ joined gap (runs keep (c :: cs)).2 := by
        rw [rdropWhile_cons, if_neg (by simp [hblank]), ihinside, runs_keep hc]
        rfl
      simp only [collapse, hc, if_true]
      refine ⟨?_, hrun⟩
      rw [hrun, words_keep hc, runs_keep hc]
      rfl
    | false =>
      simp only [collapse, hc, Bool.false_eq_true, if_false, if_true]
      refine ⟨by rw [ihafter, words_other hc], ?_⟩
      rw [rdropWhile_cons, ihafter, runs_other hc, List.nil_append]
      cases hw : words keep cs with
      | nil => simp [spaced, joined, hgap]
      | cons w ws =>
        -- The first word is not empty, so the gap before it stays.
        have hne : w ≠ [] := (words_kept (hw ▸ List.mem_cons_self : w ∈ words keep cs)).1
        rw [if_neg]
        · rfl
        · intro h
          exact hne (List.append_eq_nil_iff.mp h.1).1

/-- Dropping the blanks a collapsed text starts with is collapsing after a gap. -/
theorem collapse_dropWhile (t : List α) :
    (collapse keep gap false t).dropWhile blank = collapse keep gap true t := by
  have hafter : ∀ t, (collapse keep gap true t).dropWhile blank = collapse keep gap true t := by
    intro t
    induction t with
    | nil => rfl
    | cons c cs ih =>
      cases hc : keep c with
      | true => simp [collapse, hc, hkeep c hc]
      | false => simpa [collapse, hc] using ih
  cases t with
  | nil => rfl
  | cons c cs =>
    cases hc : keep c with
    | true => simp [collapse, hc, hkeep c hc]
    | false => simpa [collapse, hc, hgap] using hafter cs

/-- A text collapsed and trimmed is its words with one gap between them. -/
theorem trim_collapse (t : List α) : trim blank (collapse keep gap false t) = spaced gap (words keep t) := by
  unfold trim
  rw [collapse_dropWhile hgap hkeep]
  exact (collapse_rdrop hgap hkeep t).1

omit hkeep hgap in
theorem runs_joined {w : List α} {ws : List (List α)} (hsep : keep gap = false) (hw : ∀ c ∈ w, keep c = true)
    (hws : ∀ v ∈ ws, v ≠ [] ∧ ∀ c ∈ v, keep c = true) : runs keep (w ++ joined gap ws) = (w, ws) := by
  induction ws generalizing w with
  | nil =>
    induction w with
    | nil => rfl
    | cons c cs ih =>
      have ih := ih fun d hd => hw d (List.mem_cons_of_mem _ hd)
      rw [List.cons_append, runs_keep (hw c List.mem_cons_self), ih]
  | cons v vs ih =>
    obtain ⟨hne, hv⟩ := hws v List.mem_cons_self
    have hrest := ih hv fun u hu => hws u (List.mem_cons_of_mem _ hu)
    have hjoined : joined gap (v :: vs) = gap :: (v ++ joined gap vs) := rfl
    have hwords : words keep (v ++ joined gap vs) = v :: vs := by
      unfold words
      rw [hrest, if_neg (by simpa using hne)]
    rw [hjoined]
    induction w with
    | nil => rw [List.nil_append, runs_other hsep, hwords]
    | cons c cs ihw =>
      have ihw := ihw fun d hd => hw d (List.mem_cons_of_mem _ hd)
      rw [List.cons_append, runs_keep (hw c List.mem_cons_self), ihw]

omit hkeep hgap in
theorem words_spaced {ws : List (List α)} (hsep : keep gap = false)
    (hws : ∀ v ∈ ws, v ≠ [] ∧ ∀ c ∈ v, keep c = true) : words keep (spaced gap ws) = ws := by
  cases ws with
  | nil => rfl
  | cons v vs =>
    obtain ⟨hne, hv⟩ := hws v List.mem_cons_self
    have hruns : runs keep (spaced gap (v :: vs)) = (v, vs) :=
      runs_joined hsep hv fun u hu => hws u (List.mem_cons_of_mem _ hu)
    unfold words
    rw [hruns, if_neg (by simpa using hne)]

/-- Two texts agree once collapsed and trimmed exactly when they have the same words. -/
theorem trim_collapse_eq_iff (t t' : List α) :
    trim blank (collapse keep gap false t) = trim blank (collapse keep gap false t') ↔ words keep t = words keep t' := by
  have hsep : keep gap = false := by
    cases h : keep gap with
    | false => rfl
    | true => exact absurd hgap (by simp [hkeep gap h])
  rw [trim_collapse hgap hkeep, trim_collapse hgap hkeep]
  constructor
  · intro h
    have := congrArg (words keep) h
    rwa [words_spaced hsep fun _ => words_kept, words_spaced hsep fun _ => words_kept] at this
  · exact congrArg _

end Collapse

/-! ### Words of words -/

/-- The words under a narrower choice are the words of the wider words. -/
theorem words_narrow (h : ∀ c, keep c = true → wide c = true) (t : List α) :
    words keep t = (words wide t).flatMap (words keep) := by
  have hpair : ∀ t : List α, runs keep t =
      ((runs keep (runs wide t).1).1, (runs keep (runs wide t).1).2 ++ (runs wide t).2.flatMap (words keep)) ∧
      words keep t = (words wide t).flatMap (words keep) := by
    intro t
    induction t with
    | nil => exact ⟨rfl, rfl⟩
    | cons c cs ih =>
      obtain ⟨ihruns, ihwords⟩ := ih
      -- What the rest contributes, split at its first wide run.
      have hsplit : words keep cs = words keep (runs wide cs).1 ++ (runs wide cs).2.flatMap (words keep) := by
        rw [ihwords]
        unfold words
        split
        · rename_i hnil
          rw [List.isEmpty_iff.mp hnil]
          rfl
        · rfl
      cases hw : wide c with
      | true =>
        rw [runs_keep hw, words_keep hw]
        cases hc : keep c with
        | true =>
          rw [runs_keep hc, runs_keep hc, words_keep hc, ihruns, List.flatMap_cons, words_keep hc]
          exact ⟨rfl, rfl⟩
        | false =>
          rw [runs_other hc, runs_other hc, words_other hc, List.flatMap_cons, words_other hc, hsplit]
          exact ⟨rfl, rfl⟩
      | false =>
        have hc : keep c = false := by
          cases hc : keep c with
          | false => rfl
          | true => exact absurd (h c hc) (by simp [hw])
        rw [runs_other hw, runs_other hc, words_other hw, words_other hc, ihwords]
        exact ⟨rfl, rfl⟩
  exact (hpair t).2

theorem runs_congr {t : List α} (h : ∀ c ∈ t, keep c = wide c) : runs keep t = runs wide t := by
  induction t with
  | nil => rfl
  | cons c cs ih =>
    have ih := ih fun d hd => h d (List.mem_cons_of_mem _ hd)
    simp only [runs, h c List.mem_cons_self, ih]

theorem words_congr {t : List α} (h : ∀ c ∈ t, keep c = wide c) : words keep t = words wide t := by
  unfold words
  rw [runs_congr h]

end Lib
