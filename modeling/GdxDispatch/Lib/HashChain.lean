import Mathlib

/-! Lists of entries linked by hash: every entry names the hash of the one before it.

    A linked list is only as good as its hashes: if two entries of it with one hash always name the
    same predecessor, and no entry hashes to the root, then no hash occurs twice and no predecessor is
    named twice. So the list does not fork and has one start. -/

namespace Lib

section HashChain

variable {α H : Type*} (hash prev : α → H)

/-- Every entry names the hash of the entry before it, and the first one names `p`. -/
def Linked : H → List α → Prop
  | _, [] => True
  | p, a :: l => prev a = p ∧ Linked (hash a) l

/-- The hash the next entry has to name. -/
def lastHash (p : H) (l : List α) : H := (l.getLast?.map hash).getD p

@[simp] theorem lastHash_nil (p : H) : lastHash hash p [] = p := rfl

theorem lastHash_cons (p : H) (a : α) (l : List α) :
    lastHash hash p (a :: l) = lastHash hash (hash a) l := by
  cases l with
  | nil => rfl
  | cons b l => simp [lastHash, List.getLast?_eq_some_getLast]

variable {hash prev}

theorem linked_append {p : H} {l l' : List α} :
    Linked hash prev p (l ++ l') ↔
      Linked hash prev p l ∧ Linked hash prev (lastHash hash p l) l' := by
  induction l generalizing p with
  | nil => simp [Linked]
  | cons a l ih => rw [List.cons_append, Linked, Linked, ih, lastHash_cons, and_assoc]

theorem linked_concat {p : H} {l : List α} {a : α} :
    Linked hash prev p (l ++ [a]) ↔ Linked hash prev p l ∧ prev a = lastHash hash p l := by
  rw [linked_append]
  simp [Linked]

/-- The hashes behind the root are the named predecessors and, after them, the last hash. -/
theorem Linked.hashes {p : H} {l : List α} (h : Linked hash prev p l) :
    p :: l.map hash = l.map prev ++ [lastHash hash p l] := by
  induction l generalizing p with
  | nil => rfl
  | cons a l ih =>
    obtain ⟨ha, hl⟩ := h
    rw [List.map_cons, ih hl, List.map_cons, ha, lastHash_cons, List.cons_append]

/-- Every named predecessor is the root or the hash of an entry. -/
theorem Linked.prev_mem {p : H} {l : List α} (h : Linked hash prev p l) {a : α} (ha : a ∈ l) :
    prev a ∈ p :: l.map hash := by
  rw [h.hashes]
  exact List.mem_append_left _ (List.mem_map_of_mem ha)

/-- No hash of a linked list occurs twice. -/
theorem Linked.nodup {root : H} {l : List α} (h : Linked hash prev root l)
    (hroot : ∀ a ∈ l, hash a ≠ root)
    (hsame : ∀ a ∈ l, ∀ b ∈ l, hash a = hash b → prev a = prev b) :
    (root :: l.map hash).Nodup := by
  induction l using List.reverseRecOn with
  | nil => simp
  | append_singleton l a ih =>
    obtain ⟨hl, hlast⟩ := linked_concat.mp h
    have hnodup := ih hl (fun b hb => hroot b (by simp [hb]))
      (fun b hb c hc => hsame b (by simp [hb]) c (by simp [hc]))
    have hprev : lastHash hash root l ∉ l.map prev := by
      have hsplit := hnodup
      rw [hl.hashes, List.nodup_append] at hsplit
      intro hmem
      exact hsplit.2.2 _ hmem _ (by simp) rfl
    have hfresh : hash a ∉ l.map hash := by
      intro hmem
      obtain ⟨b, hb, heq⟩ := List.mem_map.mp hmem
      refine hprev (List.mem_map.mpr ⟨b, hb, ?_⟩)
      rw [hsame b (by simp [hb]) a (by simp) heq, hlast]
    rw [List.map_append, ← List.cons_append]
    refine List.nodup_append.mpr ⟨hnodup, by simp, ?_⟩
    rintro x hx y hy rfl
    obtain rfl : x = hash a := by simpa using hy
    rcases List.mem_cons.mp hx with heq | hmem
    · exact hroot a (by simp) heq
    · exact hfresh hmem

/-- No predecessor of a linked list is named twice. -/
theorem Linked.prev_nodup {root : H} {l : List α} (h : Linked hash prev root l)
    (hroot : ∀ a ∈ l, hash a ≠ root)
    (hsame : ∀ a ∈ l, ∀ b ∈ l, hash a = hash b → prev a = prev b) :
    (l.map prev).Nodup := by
  have hnodup := h.nodup hroot hsame
  rw [h.hashes] at hnodup
  exact (List.nodup_append.mp hnodup).1

end HashChain

end Lib
