import Mathlib.Data.List.Nodup
import Mathlib.Data.List.Perm.Basic
import Mathlib.Logic.Function.Basic
import Mathlib.Tactic.Linarith

/-! First fit on a staircase.

    Each one in turn takes the first thing that suits it and that nobody took. Where the ones and the things stand in an
    order in which suiting is a staircase, no pairing at all serves more: whoever holds the thing taken first can be given
    the thing the taker held instead. -/

namespace Lib

variable {α β : Type} [DecidableEq β]

/-- Each one in turn takes the first thing that suits it of those left. -/
def firstFit (suits : α → β → Bool) : List α → List β → List (α × β)
  | [], _ => []
  | a :: as, bs =>
    match bs.find? (suits a) with
    | none => firstFit suits as bs
    | some b => (a, b) :: firstFit suits as (bs.erase b)

/-- A pairing: everyone holds at most one thing, which suits it, and no thing is held twice. -/
structure Pairing (suits : α → β → Bool) (as : List α) (bs : List β) (m : α → Option β) : Prop where
  suited : ∀ a ∈ as, ∀ b, m a = some b → b ∈ bs ∧ suits a b = true
  injective : ∀ a ∈ as, ∀ a' ∈ as, ∀ b, m a = some b → m a' = some b → a = a'

/-- How many are served. -/
def served (as : List α) (m : α → Option β) : ℕ := as.countP fun a => (m a).isSome

/-- A later one that an earlier thing suits is suited by every later thing that suits an earlier one. -/
def Staircase (suits : α → β → Bool) (as : List α) (bs : List β) : Prop :=
  as.Pairwise fun a a' => bs.Pairwise fun b b' => suits a b' = true → suits a' b = true → suits a' b' = true

variable {suits : α → β → Bool} {as : List α} {bs : List β} {m : α → Option β}

theorem mem_firstFit {a : α} {b : β} (h : (a, b) ∈ firstFit suits as bs) : a ∈ as ∧ b ∈ bs ∧ suits a b = true := by
  induction as generalizing bs with
  | nil => cases h
  | cons first as ih =>
    rw [firstFit] at h
    split at h
    · obtain ⟨ha, hb, hsuits⟩ := ih h
      exact ⟨List.mem_cons_of_mem _ ha, hb, hsuits⟩
    · rename_i b' hfind
      rcases List.mem_cons.mp h with heq | h
      · cases heq
        exact ⟨List.mem_cons_self, List.mem_of_find?_eq_some hfind, List.find?_some hfind⟩
      · obtain ⟨ha, hb, hsuits⟩ := ih h
        exact ⟨List.mem_cons_of_mem _ ha, List.mem_of_mem_erase hb, hsuits⟩

/-- Nobody is served twice. -/
theorem firstFit_fst (as : List α) (bs : List β) : ((firstFit suits as bs).map Prod.fst).Sublist as := by
  induction as generalizing bs with
  | nil => exact List.Sublist.refl _
  | cons first as ih =>
    rw [firstFit]
    split
    · exact (ih bs).cons _
    · exact (ih _).cons_cons _

/-- Nothing is given twice. -/
theorem firstFit_snd (hbs : bs.Nodup) (as : List α) : ((firstFit suits as bs).map Prod.snd).Nodup := by
  induction as generalizing bs with
  | nil => exact List.nodup_nil
  | cons first as ih =>
    rw [firstFit]
    split
    · exact ih hbs
    · rename_i b hfind
      rw [List.map_cons, List.nodup_cons]
      refine ⟨fun hmem => ?_, ih (hbs.erase b)⟩
      obtain ⟨⟨a, b'⟩, hpair, rfl⟩ := List.mem_map.mp hmem
      exact (hbs.mem_erase_iff.mp (mem_firstFit hpair).2.1).1 rfl

omit [DecidableEq β] in
/-- A pairing of a list is one of its tail. -/
theorem Pairing.tail {a : α} (h : Pairing suits (a :: as) bs m) : Pairing suits as bs m where
  suited a' ha' := h.suited a' (List.mem_cons_of_mem _ ha')
  injective a₁ h₁ a₂ h₂ := h.injective a₁ (List.mem_cons_of_mem _ h₁) a₂ (List.mem_cons_of_mem _ h₂)

omit [DecidableEq β] in
/-- The order of a list, and what nobody of it holds, do not matter to a pairing. -/
theorem Pairing.congr {as' : List α} {bs' : List β} {m' : α → Option β} (h : Pairing suits as bs m)
    (has : ∀ a, a ∈ as' → a ∈ as) (hbs : ∀ b, b ∈ bs → b ∈ bs') (hm : ∀ a ∈ as', m' a = m a) : Pairing suits as' bs' m' where
  suited a ha b hb := by
    obtain ⟨hmem, hsuits⟩ := h.suited a (has a ha) b (hm a ha ▸ hb)
    exact ⟨hbs b hmem, hsuits⟩
  injective a ha a' ha' b hb hb' := h.injective a (has a ha) a' (has a' ha') b (hm a ha ▸ hb) (hm a' ha' ▸ hb')

omit [DecidableEq β] in
theorem served_congr {as' : List α} {m' : α → Option β} (hperm : as'.Perm as) (hm : ∀ a ∈ as', m' a = m a) :
    served as' m' = served as m := by
  unfold served
  rw [← hperm.countP_eq]
  exact List.countP_congr fun a ha => by rw [hm a ha]

omit [DecidableEq β] in
/-- Where two pairings differ at one place only, they serve the same others. -/
theorem served_update [DecidableEq α] (has : as.Nodup) {a : α} (ha : a ∈ as) (v : Option β) :
    served as (Function.update m a v) + (if (m a).isSome then 1 else 0) = served as m + (if v.isSome then 1 else 0) := by
  unfold served
  have hperm := List.perm_cons_erase ha
  rw [hperm.countP_eq, hperm.countP_eq, List.countP_cons, List.countP_cons, Function.update_self]
  have hrest : (as.erase a).countP (fun x => (Function.update m a v x).isSome) =
      (as.erase a).countP fun x => (m x).isSome := by
    refine List.countP_congr fun x hx => ?_
    rw [Function.update_of_ne (has.mem_erase_iff.mp hx).1]
  rw [hrest]
  omega

/-- The pairing of the others once the first has taken its thing: at most one fewer is served. -/
theorem exists_rest [DecidableEq α] {a : α} {b : β} (has : (a :: as).Nodup) (hbs : bs.Nodup)
    (hstair : Staircase suits (a :: as) bs) (hfind : bs.find? (suits a) = some b) (hm : Pairing suits (a :: as) bs m) :
    ∃ m', Pairing suits as (bs.erase b) m' ∧ served (a :: as) m ≤ served as m' + 1 := by
  obtain ⟨hnot, hnodup⟩ := List.nodup_cons.mp has
  have hcount : served (a :: as) m = served as m + if (m a).isSome then 1 else 0 := by
    unfold served
    rw [List.countP_cons]
  by_cases htaken : ∃ a' ∈ as, m a' = some b
  · obtain ⟨a', ha', hb⟩ := htaken
    have hne : ∀ x ∈ as, x ≠ a' → m x ≠ some b := by
      intro x hx hxa heq
      exact hxa (hm.injective x (List.mem_cons_of_mem _ hx) a' (List.mem_cons_of_mem _ ha') b heq hb)
    have hupdate := served_update (m := m) hnodup ha' (m a)
    rw [hb] at hupdate
    refine ⟨Function.update m a' (m a), ⟨?_, ?_⟩, ?_⟩
    · intro x hx y hy
      by_cases hxa : x = a'
      · -- the holder of the thing is given what the taker held
        subst hxa
        rw [Function.update_self] at hy
        obtain ⟨hmem, hsuits⟩ := hm.suited a List.mem_cons_self y hy
        have hyb : y ≠ b := by
          rintro rfl
          exact hnot (hm.injective a List.mem_cons_self x (List.mem_cons_of_mem _ hx) y hy hb ▸ hx)
        refine ⟨hbs.mem_erase_iff.mpr ⟨hyb, hmem⟩, ?_⟩
        obtain ⟨-, before, after, rfl, hbefore⟩ := List.find?_eq_some_iff_append.mp hfind
        have hafter : y ∈ after := by
          rcases List.mem_append.mp hmem with hmem | hmem
          · have := hbefore y hmem
            rw [hsuits] at this
            cases this
          · exact (List.mem_cons.mp hmem).resolve_left hyb
        have hpair := (List.pairwise_cons.mp hstair).1 x hx
        have hcross := (List.pairwise_cons.mp (List.pairwise_append.mp hpair).2.1).1 y hafter
        exact hcross hsuits (hm.suited x (List.mem_cons_of_mem _ hx) b hb).2
      · rw [Function.update_of_ne hxa] at hy
        obtain ⟨hmem, hsuits⟩ := hm.suited x (List.mem_cons_of_mem _ hx) y hy
        have hyb : y ≠ b := fun heq => hne x hx hxa (heq ▸ hy)
        exact ⟨hbs.mem_erase_iff.mpr ⟨hyb, hmem⟩, hsuits⟩
    · have hheld : ∀ x ∈ as, ∀ y, Function.update m a' (m a) x = some y → x ≠ a' → m a ≠ some y := by
        intro x hx y hy hxa heq
        rw [Function.update_of_ne hxa] at hy
        exact hnot (hm.injective a List.mem_cons_self x (List.mem_cons_of_mem _ hx) y heq hy ▸ hx)
      intro x hx x' hx' y hy hy'
      by_cases hxa : x = a' <;> by_cases hxa' : x' = a'
      · rw [hxa, hxa']
      · subst hxa
        rw [Function.update_self] at hy
        exact absurd hy (hheld x' hx' y hy' hxa')
      · subst hxa'
        rw [Function.update_self] at hy'
        exact absurd hy' (hheld x hx y hy hxa)
      · rw [Function.update_of_ne hxa] at hy
        rw [Function.update_of_ne hxa'] at hy'
        exact hm.injective x (List.mem_cons_of_mem _ hx) x' (List.mem_cons_of_mem _ hx') y hy hy'
    · rw [hcount]
      simp only [Option.isSome_some, if_true] at hupdate
      omega
  · refine ⟨m, ⟨fun x hx y hy => ?_, hm.tail.injective⟩, ?_⟩
    · obtain ⟨hmem, hsuits⟩ := hm.tail.suited x hx y hy
      have hyb : y ≠ b := fun heq => htaken ⟨x, hx, heq ▸ hy⟩
      exact ⟨hbs.mem_erase_iff.mpr ⟨hyb, hmem⟩, hsuits⟩
    · rw [hcount]
      split <;> omega

/-- On a staircase, no pairing serves more than first fit. -/
theorem served_le_firstFit [DecidableEq α] (has : as.Nodup) (hbs : bs.Nodup) (hstair : Staircase suits as bs)
    (hm : Pairing suits as bs m) : served as m ≤ (firstFit suits as bs).length := by
  induction as generalizing bs m with
  | nil => exact Nat.le_refl _
  | cons a as ih =>
    have hrest := (List.pairwise_cons.mp hstair).2
    rw [firstFit]
    split
    · rename_i hfind
      have hnone : m a = none := by
        by_contra hsome
        obtain ⟨b, hb⟩ := Option.ne_none_iff_exists'.mp hsome
        obtain ⟨hmem, hsuits⟩ := hm.suited a List.mem_cons_self b hb
        exact absurd hsuits (List.find?_eq_none.mp hfind b hmem)
      have hcount : served (a :: as) m = served as m := by
        unfold served
        rw [List.countP_cons, hnone]
        rfl
      rw [hcount]
      exact ih (List.nodup_cons.mp has).2 hbs hrest hm.tail
    · rename_i b hfind
      obtain ⟨m', hm', hle⟩ := exists_rest has hbs hstair hfind hm
      have hstair' : Staircase suits as (bs.erase b) := hrest.imp fun h => h.sublist List.erase_sublist
      have := ih (List.nodup_cons.mp has).2 (hbs.erase b) hstair' hm'
      rw [List.length_cons]
      omega

/-! ### The pairing that first fit leaves -/

section
variable [DecidableEq α]

/-- What someone holds in a list of pairs. -/
def held (pairs : List (α × β)) (a : α) : Option β := (pairs.find? fun p => p.1 = a).map Prod.snd

omit [DecidableEq β] in
theorem held_eq_none {pairs : List (α × β)} {a : α} : held pairs a = none ↔ a ∉ pairs.map Prod.fst := by
  rw [held, Option.map_eq_none_iff, List.find?_eq_none, List.mem_map, not_exists]
  refine forall_congr' fun p => ?_
  rw [decide_eq_true_eq, not_and]

omit [DecidableEq β] in
theorem mem_of_held {pairs : List (α × β)} {a : α} {b : β} (h : held pairs a = some b) : (a, b) ∈ pairs := by
  obtain ⟨p, hfind, rfl⟩ := Option.map_eq_some_iff.mp h
  have ha : p.1 = a := by simpa using List.find?_some hfind
  exact ha ▸ List.mem_of_find?_eq_some hfind

omit [DecidableEq β] in
theorem held_append (pairs more : List (α × β)) (a : α) :
    held (pairs ++ more) a = (held pairs a).or (held more a) := by
  rw [held, List.find?_append, Option.map_or]
  rfl

/-- First fit leaves a pairing. -/
theorem pairing_firstFit (hbs : bs.Nodup) : Pairing suits as bs (held (firstFit suits as bs)) where
  suited _ _ _ h := (mem_firstFit (mem_of_held h)).2
  injective _ _ _ _ _ h h' :=
    congrArg Prod.fst (List.inj_on_of_nodup_map (firstFit_snd hbs as) (mem_of_held h) (mem_of_held h') rfl)

theorem served_firstFit (has : as.Nodup) : served as (held (firstFit suits as bs)) = (firstFit suits as bs).length := by
  have hkeys : ((firstFit suits as bs).map Prod.fst).Sublist as := firstFit_fst as bs
  have hperm : (as.filter fun a => (held (firstFit suits as bs) a).isSome).Perm ((firstFit suits as bs).map Prod.fst) := by
    refine (List.perm_ext_iff_of_nodup (has.filter _) (has.sublist hkeys)).mpr fun a => ?_
    rw [List.mem_filter, ← Option.ne_none_iff_isSome, Ne, held_eq_none, not_not]
    exact ⟨And.right, fun h => ⟨hkeys.subset h, h⟩⟩
  rw [served, List.countP_eq_length_filter, hperm.length_eq, List.length_map]

end

end Lib
