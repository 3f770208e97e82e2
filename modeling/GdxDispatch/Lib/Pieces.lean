import Mathlib.Data.List.Basic
import Mathlib.Data.List.Count
import GdxDispatch.Lib.Words

/-! A text of pieces between separators, each trimmed.

    Cutting undoes gluing piece by piece. A text is tidy when gluing undoes cutting, and then one piece that occurs once
    can be taken out: what is left are the other pieces, glued. -/

namespace Lib

variable {α : Type} {blank : α → Bool} {sep pad : α}

/-- The pieces with the gap between them. -/
def glue (gap : List α) : List (List α) → List α
  | [] => []
  | [p] => p
  | p :: ps => p ++ gap ++ glue gap ps

theorem glue_cons {gap : List α} {p : List α} {ps : List (List α)} (h : ps ≠ []) :
    glue gap (p :: ps) = p ++ gap ++ glue gap ps := by
  cases ps with
  | nil => exact absurd rfl h
  | cons q ps => rfl

theorem glue_append {gap : List α} {ps qs : List (List α)} (hps : ps ≠ []) (hqs : qs ≠ []) :
    glue gap (ps ++ qs) = glue gap ps ++ gap ++ glue gap qs := by
  induction ps with
  | nil => exact absurd rfl hps
  | cons p ps ih =>
    by_cases hnil : ps = []
    · rw [hnil]
      exact glue_cons hqs
    · rw [List.cons_append, glue_cons (by simp [hnil]), ih hnil, glue_cons hnil]
      simp only [List.append_assoc]

theorem trim_cons_blank (hpad : blank pad = true) (t : List α) : trim blank (pad :: t) = trim blank t := by
  unfold trim
  rw [List.dropWhile_cons_of_pos hpad]

theorem trim_concat_blank (hpad : blank pad = true) (t : List α) : trim blank (t ++ [pad]) = trim blank t := by
  unfold trim
  congr 1
  rw [List.dropWhile_append]
  split
  · rename_i hnil
    rw [List.isEmpty_iff] at hnil
    rw [hnil, List.dropWhile_cons_of_pos hpad]
    rfl
  · rw [List.reverse_append, List.reverse_singleton, List.singleton_append, List.dropWhile_cons_of_pos hpad]

theorem mem_of_mem_trim {a : α} {t : List α} (h : a ∈ trim blank t) : a ∈ t := by
  unfold trim at h
  rw [List.mem_reverse] at h
  have hmem := (List.dropWhile_suffix blank).subset h
  rw [List.mem_reverse] at hmem
  exact (List.dropWhile_suffix blank).subset hmem

section Cut
variable [DecidableEq α]

/-- The text cut at each separator, and the pieces trimmed. -/
def cut (blank : α → Bool) (sep : α) (t : List α) : List (List α) := (t.splitOn sep).map (trim blank)

/-- The pieces are not empty, and glued again they are the text. -/
structure Tidy (blank : α → Bool) (sep pad : α) (t : List α) : Prop where
  glued : glue [pad, sep, pad] (cut blank sep t) = t
  filled : [] ∉ cut blank sep t

theorem cut_ne_nil (t : List α) : cut blank sep t ≠ [] := by
  unfold cut
  simp

theorem not_mem_of_mem_splitOn {t p : List α} (h : p ∈ t.splitOn sep) : sep ∉ p := by
  induction t generalizing p with
  | nil =>
    rw [List.splitOn_nil, List.mem_singleton] at h
    rw [h]
    exact List.not_mem_nil
  | cons a t ih =>
    rw [List.splitOn_cons_eq_if_modifyHead] at h
    split at h
    · rcases List.mem_cons.mp h with rfl | h
      · exact List.not_mem_nil
      · exact ih h
    · rename_i hne
      cases hsplit : t.splitOn sep with
      | nil =>
        rw [hsplit] at h
        exact absurd h List.not_mem_nil
      | cons q qs =>
        rw [hsplit, List.modifyHead_cons] at h
        rw [hsplit] at ih
        rcases List.mem_cons.mp h with rfl | h
        · intro hmem
          rcases List.mem_cons.mp hmem with rfl | hmem
          · exact hne (beq_self_eq_true _)
          · exact ih List.mem_cons_self hmem
        · exact ih (List.mem_cons_of_mem _ h)

theorem not_mem_of_mem_cut {t p : List α} (h : p ∈ cut blank sep t) : sep ∉ p := by
  obtain ⟨q, hq, rfl⟩ := List.mem_map.mp h
  exact fun hmem => not_mem_of_mem_splitOn hq (mem_of_mem_trim hmem)

theorem cut_of_not_mem {p : List α} (h : sep ∉ p) : cut blank sep p = [trim blank p] := by
  unfold cut
  rw [List.splitOn_eq_singleton h]
  rfl

/-- A character that does not separate goes to the last piece. -/
theorem splitOn_concat {c : α} (hc : c ≠ sep) (t : List α) :
    ∃ ps p, t.splitOn sep = ps ++ [p] ∧ (t ++ [c]).splitOn sep = ps ++ [p ++ [c]] := by
  induction t with
  | nil =>
    refine ⟨[], [], rfl, ?_⟩
    rw [List.nil_append, List.splitOn_eq_singleton (by simpa using hc.symm)]
    rfl
  | cons a t ih =>
    obtain ⟨ps, p, ht, htc⟩ := ih
    rw [List.cons_append, List.splitOn_cons_eq_if_modifyHead, List.splitOn_cons_eq_if_modifyHead, ht, htc]
    split
    · exact ⟨[] :: ps, p, rfl, rfl⟩
    · cases ps with
      | nil => exact ⟨[], a :: p, rfl, rfl⟩
      | cons q ps => exact ⟨(a :: q) :: ps, p, rfl, rfl⟩

end Cut

/-! ### Cutting what was glued -/

section Glue
variable [DecidableEq α] (hpad : blank pad = true) (hne : pad ≠ sep)

include hpad hne

theorem cut_glued (a b : List α) :
    cut blank sep (a ++ [pad, sep, pad] ++ b) = cut blank sep a ++ cut blank sep b := by
  have hsplit : a ++ [pad, sep, pad] ++ b = (a ++ [pad]) ++ sep :: (pad :: b) := by simp
  obtain ⟨ps, p, ha, hac⟩ := splitOn_concat hne a
  unfold cut
  rw [hsplit, List.splitOn_append_cons_self, List.map_append, ha, hac, List.map_append, List.map_append]
  congr 1
  · rw [List.map_singleton, List.map_singleton, trim_concat_blank hpad]
  · rw [List.splitOn_cons_eq_if_modifyHead, if_neg (by simpa using hne)]
    cases hb : b.splitOn sep with
    | nil => rfl
    | cons q qs =>
      rw [List.modifyHead_cons, List.map_cons, List.map_cons, trim_cons_blank hpad]

theorem cut_glue {ps : List (List α)} (h : ps ≠ []) :
    cut blank sep (glue [pad, sep, pad] ps) = ps.flatMap (cut blank sep) := by
  induction ps with
  | nil => exact absurd rfl h
  | cons p ps ih =>
    by_cases hnil : ps = []
    · rw [hnil, List.flatMap_singleton]
      rfl
    · rw [glue_cons hnil, cut_glued hpad hne, ih hnil, List.flatMap_cons]

/-- Cutting twice gives no further pieces. -/
theorem length_cut_glue_cut (t : List α) :
    (cut blank sep (glue [pad, sep, pad] (cut blank sep t))).length = (cut blank sep t).length := by
  rw [cut_glue hpad hne (cut_ne_nil t), List.length_flatMap]
  have hone : ∀ p ∈ cut blank sep t, (cut blank sep p).length = 1 := by
    intro p hp
    rw [cut_of_not_mem (not_mem_of_mem_cut hp)]
    rfl
  rw [List.map_congr_left hone]
  simp

omit hpad in
/-- A glued text has one reading with a given number of pieces in front. -/
theorem glued_inj {a b y z : List α} (hlen : (a.splitOn sep).length = (b.splitOn sep).length)
    (h : a ++ [pad, sep, pad] ++ y = b ++ [pad, sep, pad] ++ z) : a = b ∧ y = z := by
  have hshape : ∀ s t : List α, s ++ [pad, sep, pad] ++ t = (s ++ [pad]) ++ sep :: (pad :: t) := by simp
  have hcount : ∀ s : List α, ((s ++ [pad]).splitOn sep).length = (s.splitOn sep).length := by
    intro s
    obtain ⟨ps, p, hs, hsc⟩ := splitOn_concat hne s
    rw [hs, hsc, List.length_append, List.length_append]
    rfl
  have hsplit := congrArg (List.splitOn sep) h
  rw [hshape, hshape, List.splitOn_append_cons_self, List.splitOn_append_cons_self] at hsplit
  have hfront := (List.append_inj hsplit (by rw [hcount, hcount, hlen])).1
  have heq : a ++ [pad] = b ++ [pad] := by
    have hjoin : [sep].intercalate ((a ++ [pad]).splitOn sep) = a ++ [pad] := List.intercalate_splitOn sep
    rw [← hjoin, hfront, List.intercalate_splitOn]
  obtain rfl := List.append_cancel_right heq
  exact ⟨rfl, List.append_cancel_left h⟩

/-! ### Taking one piece out -/

/-- Where gluing undoes cutting for the whole, it does for each part. -/
theorem glued_each {ps : List (List α)}
    (h : glue [pad, sep, pad] (ps.flatMap (cut blank sep)) = glue [pad, sep, pad] ps) :
    ∀ p ∈ ps, glue [pad, sep, pad] (cut blank sep p) = p := by
  induction ps with
  | nil => exact fun p hp => absurd hp List.not_mem_nil
  | cons p ps ih =>
    by_cases hnil : ps = []
    · intro q hq
      rw [hnil] at h hq
      rw [List.mem_singleton.mp hq]
      rwa [List.flatMap_singleton] at h
    · have hmore : ps.flatMap (cut blank sep) ≠ [] := by
        rw [← cut_glue hpad hne hnil]
        exact cut_ne_nil _
      rw [List.flatMap_cons, glue_append (cut_ne_nil p) hmore, glue_cons hnil] at h
      have hlen : ((glue [pad, sep, pad] (cut blank sep p)).splitOn sep).length = (p.splitOn sep).length := by
        have := length_cut_glue_cut hpad hne p
        unfold cut at this
        rwa [List.length_map, List.length_map] at this
      obtain ⟨hp, hrest⟩ := glued_inj hne hlen h
      intro q hq
      rcases List.mem_cons.mp hq with rfl | hq
      · exact hp
      · exact ih hrest q hq

omit hpad hne in
/-- Parts that gluing gives back can be glued cut or whole. -/
theorem glue_flatMap {gap : List α} {ps : List (List α)} (h : ∀ p ∈ ps, glue gap (cut blank sep p) = p) :
    glue gap (ps.flatMap (cut blank sep)) = glue gap ps := by
  induction ps with
  | nil => rfl
  | cons p ps ih =>
    have hp := h p List.mem_cons_self
    have ih := ih fun q hq => h q (List.mem_cons_of_mem _ hq)
    by_cases hnil : ps = []
    · rw [hnil, List.flatMap_singleton, hp]
      rfl
    · have hmore : ps.flatMap (cut blank sep) ≠ [] := by
        obtain ⟨q, ps', rfl⟩ := List.exists_cons_of_ne_nil hnil
        rw [List.flatMap_cons]
        exact List.append_ne_nil_of_left_ne_nil (cut_ne_nil q) _
      rw [List.flatMap_cons, glue_append (cut_ne_nil p) hmore, glue_cons hnil, hp, ih]

/-- A piece that occurs once in a tidy text is taken out of it, and the rest stays. -/
theorem glue_without {ps qs : List (List α)} {m : List α}
    (htidy : Tidy blank sep pad (glue [pad, sep, pad] (ps ++ m :: qs)))
    (hone : (cut blank sep (glue [pad, sep, pad] (ps ++ m :: qs))).count m = 1) :
    glue [pad, sep, pad] ((cut blank sep (glue [pad, sep, pad] (ps ++ m :: qs))).filter (· ≠ m)) =
      glue [pad, sep, pad] (ps ++ qs) := by
  obtain ⟨hglued, -⟩ := htidy
  rw [cut_glue hpad hne (by simp)] at hglued hone ⊢
  have heach := glued_each hpad hne hglued
  -- Some piece is the part, so the part has no separator and no blanks around it.
  have hmem : m ∈ (ps ++ m :: qs).flatMap (cut blank sep) := List.count_pos_iff.mp (by omega)
  obtain ⟨p, -, hp⟩ := List.mem_flatMap.mp hmem
  have hcut : cut blank sep m = [m] := by
    have htrim : cut blank sep m = [trim blank m] := cut_of_not_mem (not_mem_of_mem_cut hp)
    have hm := heach m (by simp)
    rw [htrim] at hm ⊢
    rw [show trim blank m = m from hm]
  rw [List.flatMap_append, List.flatMap_cons, hcut] at hone ⊢
  rw [List.count_append, List.count_append, List.count_singleton_self] at hone
  have hps : m ∉ ps.flatMap (cut blank sep) := List.count_eq_zero.mp (by omega)
  have hqs : m ∉ qs.flatMap (cut blank sep) := List.count_eq_zero.mp (by omega)
  have hkeep : ∀ l : List (List α), m ∉ l → l.filter (· ≠ m) = l := by
    intro l hl
    refine List.filter_eq_self.mpr fun q hq => ?_
    rw [decide_eq_true_eq]
    rintro rfl
    exact hl hq
  rw [List.filter_append, List.filter_append, hkeep _ hps, hkeep _ hqs]
  simp only [ne_eq, decide_not, List.filter_singleton, decide_true, Bool.not_true, List.nil_append, Bool.cond_false]
  rw [← List.flatMap_append]
  refine glue_flatMap fun q hq => heach q ?_
  rcases List.mem_append.mp hq with hq | hq
  · exact List.mem_append_left _ hq
  · exact List.mem_append_right _ (List.mem_cons_of_mem _ hq)

end Glue

end Lib
