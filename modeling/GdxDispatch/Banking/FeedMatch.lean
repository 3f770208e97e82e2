import GdxDispatch.Lib.Components
import GdxDispatch.Lib.FirstFit

/-! Feed transactions against statement lines: `_solve` of `modules/bank_feeds/feed_match_status.py`.

    The claimants of one account and amount and the lines of it form a graph: an edge where the dates are at most a day
    apart. Each component is solved on its own. Days are day numbers; an id is one row's. -/

namespace Gdx.FeedMatch
open Lib

variable {ι κ : Type} [DecidableEq ι] [DecidableEq κ]

/-- `DATE_WINDOW_DAYS`. -/
def DATE_WINDOW_DAYS : ℤ := 1

/-- The lines at most a day away from a claimant. -/
def edges (claimants : List (ℤ × ι)) (lines : List (ℤ × κ)) (c_id : ι) : List κ :=
  match claimants.find? fun c => c.2 = c_id with
  | none => []
  | some c => (lines.filter fun l => |l.1 - c.1| ≤ DATE_WINDOW_DAYS).map Prod.snd

def lineToClaimants (claimants : List (ℤ × ι)) (lines : List (ℤ × κ)) (l_id : κ) : List ι :=
  (claimants.map Prod.snd).filter fun c_id => l_id ∈ edges claimants lines c_id

omit [DecidableEq κ] in
theorem edges_outside (claimants : List (ℤ × ι)) (lines : List (ℤ × κ)) (c_id : ι)
    (h : c_id ∉ claimants.map Prod.snd) : edges claimants lines c_id = [] := by
  unfold edges
  split
  · rfl
  · rename_i c hfind
    have hid : c.2 = c_id := by simpa using List.find?_some hfind
    exact absurd (List.mem_map.mpr ⟨c, List.mem_of_find?_eq_some hfind, hid⟩) h

theorem mem_lineToClaimants (claimants : List (ℤ × ι)) (lines : List (ℤ × κ)) (c_id : ι) (l_id : κ) :
    c_id ∈ lineToClaimants claimants lines l_id ↔ l_id ∈ edges claimants lines c_id := by
  simp only [lineToClaimants, List.mem_filter, decide_eq_true_eq, and_iff_right_iff_imp]
  intro hmem
  by_contra hout
  rw [edges_outside claimants lines c_id hout] at hmem
  cases hmem

/-- The graph of one account and amount. -/
def graph (claimants : List (ℤ × ι)) (lines : List (ℤ × κ)) : Bipartite ι κ :=
  ⟨claimants.map Prod.snd, edges claimants lines, lineToClaimants claimants lines, edges_outside claimants lines,
    mem_lineToClaimants claimants lines⟩

/-- The lines assigned to claimants, and the claimants found ambiguous. -/
structure Solution (ι κ : Type) where
  assigned : List (ι × κ)
  ambiguous : List ι

/-- The line assigned to a claimant. -/
def Solution.line (s : Solution ι κ) (c_id : ι) : Option κ := held s.assigned c_id

/-- Each claimant in turn takes the first line in reach that is not used; where there is none it is ambiguous. -/
def assign (edges : ι → List κ) : List ι → List κ → Solution ι κ → Solution ι κ
  | [], _, s => s
  | cand :: order, used, s =>
    match (edges cand).find? fun l_id => l_id ∉ used with
    | some l_id => assign edges order (l_id :: used) { s with assigned := s.assigned ++ [(cand, l_id)] }
    | none => assign edges order used { s with ambiguous := s.ambiguous ++ [cand] }

/-- One round of the outer loop: the component of a claimant that was not seen is walked and solved. -/
def solveFrom (claimants : List (ℤ × ι)) (lines : List (ℤ × κ)) (st : List ι × Solution ι κ) (c_id : ι) :
    List ι × Solution ι κ :=
  if c_id ∈ st.1 then st
  else
    let w := (graph claimants lines).walk [c_id] ⟨st.1, [], []⟩
    if w.things = [] then (w.seen, st.2)
    else if w.comp.length > w.things.length then
      (w.seen, { st.2 with ambiguous := st.2.ambiguous ++ w.comp })
    else
      let order := (claimants.map Prod.snd).filter fun c => c ∈ w.comp
      (w.seen, assign (edges claimants lines) order [] st.2)

/-- `_solve`. -/
def solve (claimants : List (ℤ × ι)) (lines : List (ℤ × κ)) : Solution ι κ :=
  ((claimants.map Prod.snd).foldl (solveFrom claimants lines) ([], ⟨[], []⟩)).2

/-! ### Lines in reach -/

section
variable {claimants : List (ℤ × ι)} {lines : List (ℤ × κ)}

omit [DecidableEq ι] in
theorem date_unique {rows : List (ℤ × ι)} (hids : (rows.map Prod.snd).Nodup) {d d' : ℤ} {id : ι} (h : (d, id) ∈ rows)
    (h' : (d', id) ∈ rows) : d = d' :=
  congrArg Prod.fst (List.inj_on_of_nodup_map hids h h' rfl)

omit [DecidableEq κ] in
theorem edges_eq (hids : (claimants.map Prod.snd).Nodup) {d : ℤ} {c : ι} (hc : (d, c) ∈ claimants) :
    edges claimants lines c = (lines.filter fun l => |l.1 - d| ≤ DATE_WINDOW_DAYS).map Prod.snd := by
  unfold edges
  split
  · rename_i hfind
    have := List.find?_eq_none.mp hfind (d, c) hc
    simp at this
  · rename_i found hfind
    have hid : found.2 = c := by simpa using List.find?_some hfind
    have hmem : (found.1, c) ∈ claimants := hid ▸ List.mem_of_find?_eq_some hfind
    rw [date_unique hids hmem hc]

omit [DecidableEq κ] in
/-- A line is in a claimant's reach when their dates are at most a day apart. -/
theorem mem_edges (hids : (claimants.map Prod.snd).Nodup) {c : ι} {l : κ} :
    l ∈ edges claimants lines c ↔
      ∃ d e, (d, c) ∈ claimants ∧ (e, l) ∈ lines ∧ |e - d| ≤ DATE_WINDOW_DAYS := by
  constructor
  · intro hl
    have hc : c ∈ claimants.map Prod.snd := by
      by_contra hout
      rw [edges_outside claimants lines c hout] at hl
      cases hl
    obtain ⟨⟨d, c⟩, hmem, rfl⟩ := List.mem_map.mp hc
    rw [edges_eq hids hmem] at hl
    obtain ⟨⟨e, l⟩, hline, rfl⟩ := List.mem_map.mp hl
    obtain ⟨hline, hnear⟩ := List.mem_filter.mp hline
    exact ⟨d, e, hmem, hline, by simpa using hnear⟩
  · rintro ⟨d, e, hc, hl, hnear⟩
    rw [edges_eq hids hc]
    exact List.mem_map.mpr ⟨(e, l), List.mem_filter.mpr ⟨hl, by simpa using hnear⟩, rfl⟩

/-- The claimant reaches the line. -/
def reaches (edges : ι → List κ) (c : ι) (l : κ) : Bool := l ∈ edges c

/-- The edges of a claimant, as the lines it reaches. -/
theorem edges_filter (hlines : (lines.map Prod.snd).Nodup) (c : ι) :
    edges claimants lines c = (lines.map Prod.snd).filter (reaches (edges claimants lines) c) := by
  by_cases hc : c ∈ claimants.map Prod.snd
  swap
  · unfold reaches
    rw [edges_outside claimants lines c hc]
    simp
  unfold reaches edges
  split
  · simp
  · rename_i found _
    rw [List.filter_map]
    congr 1
    refine List.filter_congr fun l hl => ?_
    simp only [Function.comp_apply, List.mem_map, List.mem_filter, decide_eq_true_eq, decide_eq_decide]
    constructor
    · exact fun hnear => ⟨l, ⟨hl, hnear⟩, rfl⟩
    · rintro ⟨l', ⟨hl', hnear⟩, hid⟩
      rwa [← List.inj_on_of_nodup_map hlines hl' hl hid]

/-- A solution with more pairs, and those of the order that got none as ambiguous. -/
def Solution.withPairs (s : Solution ι κ) (order : List ι) (pairs : List (ι × κ)) : Solution ι κ :=
  ⟨s.assigned ++ pairs, s.ambiguous ++ order.filter (· ∉ pairs.map Prod.fst)⟩

/-- The greedy loop is first fit over the lines that are not used. -/
theorem assign_eq {edges : ι → List κ} {all : List κ} (hall : all.Nodup)
    (hedges : ∀ c, edges c = all.filter (reaches edges c)) (order : List ι) (horder : order.Nodup) (used : List κ)
    (s : Solution ι κ) :
    assign edges order used s = s.withPairs order (firstFit (reaches edges) order (all.filter (· ∉ used))) := by
  induction order generalizing used s with
  | nil => simp [assign, firstFit, Solution.withPairs]
  | cons cand order ih =>
    obtain ⟨hnot, horder⟩ := List.nodup_cons.mp horder
    have hfind : (edges cand).find? (fun l => l ∉ used) =
        (all.filter (· ∉ used)).find? (reaches edges cand) := by
      rw [hedges cand, List.find?_filter, List.find?_filter]
      exact congrArg (fun p => all.find? p) (funext fun l => decide_eq_decide.mpr and_comm)
    have hcand : ∀ bs, cand ∉ (firstFit (reaches edges) order bs).map Prod.fst := fun bs hmem =>
      hnot ((firstFit_fst order bs).subset hmem)
    rw [assign, firstFit, hfind]
    cases hfound : (all.filter (· ∉ used)).find? (reaches edges cand) with
    | none =>
      simp only [ih horder, Solution.withPairs, List.append_assoc, List.singleton_append]
      rw [List.filter_cons, if_pos (decide_eq_true (hcand _))]
    | some l =>
      have herase : (all.filter (· ∉ used)).erase l = all.filter (· ∉ l :: used) := by
        rw [(hall.filter _).erase_eq_filter, List.filter_filter]
        refine List.filter_congr fun b _ => ?_
        by_cases hb : b = l <;> simp [hb]
      have hkeep : ∀ taken : List ι, order.filter (· ∉ cand :: taken) = order.filter (· ∉ taken) := by
        intro taken
        refine List.filter_congr fun c hc => ?_
        have hne : c ≠ cand := fun h => hnot (h ▸ hc)
        simp [hne]
      simp only [ih horder, herase, Solution.withPairs, List.map_cons, List.append_assoc, List.singleton_append]
      rw [List.filter_cons_of_neg (by simp), hkeep]

/-- Dates in order make reaching a staircase. -/
theorem staircase (hids : (claimants.map Prod.snd).Nodup) (hlines : (lines.map Prod.snd).Nodup)
    (hsorted : claimants.Pairwise fun c c' => c.1 ≤ c'.1) (hsorted' : lines.Pairwise fun l l' => l.1 ≤ l'.1) :
    Staircase (reaches (edges claimants lines)) (claimants.map Prod.snd) (lines.map Prod.snd) := by
  unfold Staircase
  rw [List.pairwise_map]
  refine hsorted.imp_of_mem fun {c c'} hc hc' hle => ?_
  rw [List.pairwise_map]
  refine hsorted'.imp_of_mem fun {l l'} hl hl' hle' => ?_
  have hreach : ∀ c ∈ claimants, ∀ l ∈ lines, reaches (edges claimants lines) c.2 l.2 = true ↔ |l.1 - c.1| ≤ 1 := by
    intro c hc l hl
    rw [reaches, decide_eq_true_eq, mem_edges hids]
    constructor
    · rintro ⟨d, e, hd, he, hnear⟩
      rwa [date_unique hids hd hc, date_unique hlines he hl] at hnear
    · exact fun hnear => ⟨c.1, l.1, hc, hl, hnear⟩
  rw [hreach c hc l' hl', hreach c' hc' l hl, hreach c' hc' l' hl', abs_le, abs_le, abs_le]
  omega

end

/-! ### How a component is left -/

section
variable (claimants : List (ℤ × ι)) (lines : List (ℤ × κ))

/-- How a component is left: what its claimants hold is a pairing; whoever has a line in reach is either paired or
    ambiguous; where the claimants outnumber the lines all are ambiguous, else no pairing serves more. -/
structure Settled (comp : List ι) (things : List κ) (s : Solution ι κ) : Prop where
  pairing : Pairing (reaches (edges claimants lines)) comp things s.line
  clash : ∀ c ∈ comp, (s.line c).isSome → c ∉ s.ambiguous
  decided : ∀ c ∈ comp, edges claimants lines c ≠ [] → (s.line c).isSome ∨ c ∈ s.ambiguous
  idle : things = [] → ∀ c ∈ comp, c ∉ s.ambiguous
  outnumbered : things ≠ [] → things.length < comp.length → ∀ c ∈ comp, c ∈ s.ambiguous
  fits : comp.length ≤ things.length → ∀ c ∈ comp, s.line c =
    held (firstFit (reaches (edges claimants lines)) ((claimants.map Prod.snd).filter (· ∈ comp)) (lines.map Prod.snd)) c
  most : comp.length ≤ things.length → ∀ m, Pairing (reaches (edges claimants lines)) comp things m →
    served comp m ≤ served comp s.line

/-- The rounds so far: they saw whole components, and each one of them is settled. -/
structure Solving (st : List ι × Solution ι κ) : Prop where
  inside : ∀ a ∈ st.1, a ∈ claimants.map Prod.snd
  closed : ∀ a ∈ st.1, ∀ a', (graph claimants lines).Linked a a' → a' ∈ st.1
  keys : ∀ c, (st.2.line c).isSome → c ∈ st.1
  flagged : ∀ c ∈ st.2.ambiguous, c ∈ st.1
  settled : ∀ root ∈ st.1, ∀ comp things, (graph claimants lines).Component root comp things →
    Settled claimants lines comp things st.2

variable {claimants lines} {comp comp' : List ι} {things things' : List κ} {s s' : Solution ι κ} {st : List ι × Solution ι κ}

/-- Only what its own claimants were given matters to a component, in whatever order they are listed. -/
theorem Settled.congr (h : Settled claimants lines comp things s) (hperm : comp'.Perm comp) (hthings : things'.Perm things)
    (hagree : ∀ c ∈ comp', s'.line c = s.line c ∧ (c ∈ s'.ambiguous ↔ c ∈ s.ambiguous)) :
    Settled claimants lines comp' things' s' where
  pairing := h.pairing.congr (fun _ => hperm.mem_iff.mp) (fun _ => hthings.mem_iff.mpr) fun c hc => (hagree c hc).1
  clash c hc hsome := by
    rw [(hagree c hc).2]
    exact h.clash c (hperm.mem_iff.mp hc) ((hagree c hc).1 ▸ hsome)
  decided c hc hedges := by
    rw [(hagree c hc).2, (hagree c hc).1]
    exact h.decided c (hperm.mem_iff.mp hc) hedges
  idle hnil c hc := by
    rw [(hagree c hc).2]
    exact h.idle (List.nil_perm.mp (hnil ▸ hthings)) c (hperm.mem_iff.mp hc)
  outnumbered hne hlt c hc := by
    rw [(hagree c hc).2]
    refine h.outnumbered (fun hnil => hne (List.perm_nil.mp (hnil ▸ hthings))) ?_ c (hperm.mem_iff.mp hc)
    rwa [← hperm.length_eq, ← hthings.length_eq]
  fits hle c hc := by
    have hsame : (claimants.map Prod.snd).filter (· ∈ comp') = (claimants.map Prod.snd).filter (· ∈ comp) :=
      List.filter_congr fun a _ => decide_eq_decide.mpr hperm.mem_iff
    rw [hsame, (hagree c hc).1]
    rw [hperm.length_eq, hthings.length_eq] at hle
    exact h.fits hle c (hperm.mem_iff.mp hc)
  most hle m hm := by
    rw [served_congr hperm fun c hc => (hagree c hc).1, served_congr hperm fun _ _ => rfl]
    rw [hperm.length_eq, hthings.length_eq] at hle
    exact h.most hle m (hm.congr (fun _ => hperm.mem_iff.mpr) (fun _ => hthings.mem_iff.mp) fun _ _ => rfl)

/-- A seen component stays seen as a whole. -/
theorem Solving.seen_of_connected (h : Solving claimants lines st) {a a' : ι} (ha : a ∈ st.1)
    (hconn : (graph claimants lines).Connected a a') : a' ∈ st.1 := by
  induction hconn with
  | refl => exact ha
  | tail _ hlink ih => exact h.closed _ ih _ hlink

/-- A walked component that is settled, with the others left as they were. -/
theorem Solving.extend (h : Solving claimants lines st) {c_id : ι} {w : Walk ι κ}
    (hc_id : c_id ∈ claimants.map Prod.snd) (hw : (graph claimants lines).Found st.1 c_id w) (hsettled : Settled claimants lines w.comp w.things s')
    (hagree : ∀ c, c ∉ w.comp → s'.line c = st.2.line c ∧ (c ∈ s'.ambiguous ↔ c ∈ st.2.ambiguous)) :
    Solving claimants lines (w.seen, s') where
  inside a ha := by
    rcases (hw.seen_iff a).mp ha with ha | ha
    · exact h.inside a ha
    · exact ((hw.comp_iff a).mp ha).mem_nodes (G := graph claimants lines) hc_id
  closed a ha a' hlink := by
    rw [hw.seen_iff] at ha ⊢
    rcases ha with ha | ha
    · exact .inl (h.closed a ha a' hlink)
    · exact .inr ((hw.comp_iff a').mpr (((hw.comp_iff a).mp ha).tail hlink))
  keys c hsome := by
    refine (hw.seen_iff c).mpr ?_
    by_cases hc : c ∈ w.comp
    · exact .inr hc
    · exact .inl (h.keys c ((hagree c hc).1 ▸ hsome))
  flagged c hmem := by
    refine (hw.seen_iff c).mpr ?_
    by_cases hc : c ∈ w.comp
    · exact .inr hc
    · exact .inl (h.flagged c ((hagree c hc).2.mp hmem))
  settled root hroot comp things hcomp := by
    by_cases hmem : root ∈ w.comp
    · obtain ⟨hperm, hthings⟩ := hcomp.perm (hw.toComponent.of_mem hmem)
      exact hsettled.congr hperm hthings fun _ _ => ⟨rfl, Iff.rfl⟩
    · have hseen := ((hw.seen_iff root).mp hroot).resolve_right hmem
      refine (h.settled root hseen comp things hcomp).congr (List.Perm.refl _) (List.Perm.refl _) fun c hc => ?_
      refine hagree c fun hwalked => hw.fresh c hwalked ?_
      exact h.seen_of_connected hseen ((hcomp.comp_iff c).mp hc)

/-- A fresh claimant holds nothing and is not ambiguous. -/
theorem Solving.fresh (h : Solving claimants lines st) {c : ι} (hc : c ∉ st.1) :
    st.2.line c = none ∧ c ∉ st.2.ambiguous :=
  ⟨Option.not_isSome_iff_eq_none.mp fun hsome => hc (h.keys c hsome), fun hmem => hc (h.flagged c hmem)⟩

/-- A component without lines is left alone. -/
theorem settled_idle (h : Solving claimants lines st) {c_id : ι} {w : Walk ι κ}
    (hw : (graph claimants lines).Found st.1 c_id w) (hnil : w.things = []) :
    Settled claimants lines w.comp w.things st.2 := by
  have hfresh := fun c hc => h.fresh (hw.fresh c hc)
  refine ⟨⟨fun c hc b hb => ?_, fun c hc _ _ b hb => ?_⟩, fun c hc _ => (hfresh c hc).2, fun c hc hedges => ?_,
    fun _ c hc => (hfresh c hc).2, fun hne => absurd hnil hne, fun hle => absurd hle ?_, fun hle => absurd hle ?_⟩
  · cases (hfresh c hc).1.symm.trans hb
  · cases (hfresh c hc).1.symm.trans hb
  · obtain ⟨b, hb⟩ := List.exists_mem_of_ne_nil _ hedges
    have := (hw.things_iff b).mpr ⟨c, hc, hb⟩
    rw [hnil] at this
    cases this
  all_goals
    have hpos := List.length_pos_of_mem hw.toComponent.root_mem
    rw [hnil, List.length_nil]
    omega

/-- A component with more claimants than lines is ambiguous as a whole. -/
theorem settled_over (h : Solving claimants lines st) {c_id : ι} {w : Walk ι κ}
    (hw : (graph claimants lines).Found st.1 c_id w) (hne : w.things ≠ []) (hover : w.things.length < w.comp.length) :
    Settled claimants lines w.comp w.things { st.2 with ambiguous := st.2.ambiguous ++ w.comp } := by
  have hnone : ∀ c ∈ w.comp, st.2.line c = none := fun c hc => (h.fresh (hw.fresh c hc)).1
  refine ⟨⟨fun c hc b hb => ?_, fun c hc _ _ b hb => ?_⟩, fun c hc hsome => ?_,
    fun c hc _ => .inr (List.mem_append_right _ hc), fun hnil => absurd hnil hne,
    fun _ _ c hc => List.mem_append_right _ hc, fun hle => absurd hle (by omega), fun hle => absurd hle (by omega)⟩
  · cases (hnone c hc).symm.trans hb
  · cases (hnone c hc).symm.trans hb
  · have hisSome : (st.2.line c).isSome := hsome
    rw [hnone c hc] at hisSome
    cases hisSome

omit [DecidableEq κ] in
/-- What a claimant holds after the greedy loop. -/
theorem line_withPairs {s : Solution ι κ} {c : ι} (hnone : s.line c = none) (order : List ι) (pairs : List (ι × κ)) :
    (s.withPairs order pairs).line c = held pairs c := by
  have happend : (s.withPairs order pairs).line c = (s.line c).or (held pairs c) := held_append _ _ c
  rw [happend, hnone, Option.none_or]

/-- In any other component the greedy loop leaves a pairing that none exceeds. -/
theorem settled_fit (hids : (claimants.map Prod.snd).Nodup) (hlines : (lines.map Prod.snd).Nodup)
    (hsorted : claimants.Pairwise fun c c' => c.1 ≤ c'.1) (hsorted' : lines.Pairwise fun l l' => l.1 ≤ l'.1)
    (h : Solving claimants lines st) {c_id : ι} {w : Walk ι κ} (hw : (graph claimants lines).Found st.1 c_id w)
    (hne : w.things ≠ []) (hfit : w.comp.length ≤ w.things.length) {order : List ι}
    (horder : order = (claimants.map Prod.snd).filter (· ∈ w.comp)) (hperm : w.comp.Perm order) :
    Settled claimants lines w.comp w.things
      (st.2.withPairs order (firstFit (reaches (edges claimants lines)) order (lines.map Prod.snd))) := by
  have hsub : order.Sublist (claimants.map Prod.snd) := horder ▸ List.filter_sublist
  have hnodup := hids.sublist hsub
  have hstair : Staircase (reaches (edges claimants lines)) order (lines.map Prod.snd) :=
    (staircase hids hlines hsorted hsorted').sublist hsub
  have hline := fun c hc => line_withPairs (h.fresh (hw.fresh c hc)).1 order
    (firstFit (reaches (edges claimants lines)) order (lines.map Prod.snd))
  have hflag : ∀ c ∈ w.comp, (c ∈ (st.2.withPairs order
      (firstFit (reaches (edges claimants lines)) order (lines.map Prod.snd))).ambiguous ↔
      held (firstFit (reaches (edges claimants lines)) order (lines.map Prod.snd)) c = none) := by
    intro c hc
    rw [Solution.withPairs, List.mem_append, held_eq_none, List.mem_filter, decide_eq_true_eq]
    exact ⟨fun hmem => (hmem.resolve_left (h.fresh (hw.fresh c hc)).2).2, fun hnot => .inr ⟨hperm.mem_iff.mp hc, hnot⟩⟩
  have hinside : ∀ c ∈ w.comp, ∀ b, reaches (edges claimants lines) c b = true → b ∈ w.things := by
    intro c hc b hsuits
    exact (hw.things_iff b).mpr ⟨c, hc, of_decide_eq_true hsuits⟩
  have hpairing : Pairing (reaches (edges claimants lines)) order (lines.map Prod.snd)
      (held (firstFit (reaches (edges claimants lines)) order (lines.map Prod.snd))) := pairing_firstFit hlines
  refine ⟨⟨fun c hc b hb => ?_, ?_⟩, fun c hc hsome => ?_, fun c hc _ => ?_, fun hnil => absurd hnil hne,
    fun _ hover => absurd hover (by omega), fun _ c hc => horder ▸ hline c hc, fun _ m hm => ?_⟩
  · have hsuits := (hpairing.suited c (hperm.mem_iff.mp hc) b (hline c hc ▸ hb)).2
    exact ⟨hinside c hc b hsuits, hsuits⟩
  · exact (hpairing.congr (fun _ => hperm.mem_iff.mp) (fun _ hb => hb) hline).injective
  · rw [hflag c hc, ← hline c hc]
    exact Option.isSome_iff_ne_none.mp hsome
  · rw [hflag c hc, ← hline c hc]
    cases (st.2.withPairs order (firstFit (reaches (edges claimants lines)) order (lines.map Prod.snd))).line c with
    | none => exact .inr rfl
    | some b => exact .inl rfl
  · have hm' : Pairing (reaches (edges claimants lines)) order (lines.map Prod.snd) m := by
      refine hm.congr (fun _ => hperm.mem_iff.mpr) (fun b hb => ?_) fun _ _ => rfl
      obtain ⟨c, -, hedge⟩ := (hw.things_iff b).mp hb
      obtain ⟨d, e, -, hl, -⟩ := (mem_edges hids).mp hedge
      exact List.mem_map.mpr ⟨(e, b), hl, rfl⟩
    rw [served_congr hperm hline, served_congr hperm fun _ _ => rfl, served_firstFit hnodup]
    exact served_le_firstFit hnodup hlines hstair hm'

/-- One round keeps what is settled and settles the claimant's component. -/
theorem Solving.solveFrom (hids : (claimants.map Prod.snd).Nodup) (hlines : (lines.map Prod.snd).Nodup)
    (hsorted : claimants.Pairwise fun c c' => c.1 ≤ c'.1) (hsorted' : lines.Pairwise fun l l' => l.1 ≤ l'.1)
    (h : Solving claimants lines st) {c_id : ι} (hc_id : c_id ∈ claimants.map Prod.snd) :
    Solving claimants lines (solveFrom claimants lines st c_id) ∧ c_id ∈ (FeedMatch.solveFrom claimants lines st c_id).1 ∧
      ∀ a ∈ st.1, a ∈ (FeedMatch.solveFrom claimants lines st c_id).1 := by
  unfold FeedMatch.solveFrom
  by_cases hseen : c_id ∈ st.1
  · rw [if_pos hseen]
    exact ⟨h, hseen, fun _ ha => ha⟩
  rw [if_neg hseen]
  have hw := (graph claimants lines).walk_found hseen h.closed
  generalize (graph claimants lines).walk [c_id] ⟨st.1, [], []⟩ = w at hw ⊢
  have hroot : c_id ∈ w.seen := (hw.seen_iff c_id).mpr (.inr hw.toComponent.root_mem)
  have hkept : ∀ a ∈ st.1, a ∈ w.seen := fun a ha => (hw.seen_iff a).mpr (.inl ha)
  have hinside : ∀ c ∈ w.comp, c ∈ claimants.map Prod.snd := fun c hc =>
    ((hw.comp_iff c).mp hc).mem_nodes (G := graph claimants lines) hc_id
  dsimp only
  by_cases hnil : w.things = []
  · rw [if_pos hnil]
    exact ⟨h.extend hc_id hw (settled_idle h hw hnil) fun _ _ => ⟨rfl, Iff.rfl⟩, hroot, hkept⟩
  · rw [if_neg hnil]
    by_cases hover : w.comp.length > w.things.length
    · rw [if_pos hover]
      refine ⟨h.extend hc_id hw (settled_over h hw hnil hover) fun c hc => ⟨rfl, ?_⟩, hroot, hkept⟩
      rw [List.mem_append]
      exact ⟨fun hmem => hmem.resolve_right hc, .inl⟩
    · rw [if_neg hover]
      have hperm : w.comp.Perm ((claimants.map Prod.snd).filter fun c => c ∈ w.comp) := by
        refine (List.perm_ext_iff_of_nodup hw.comp_nodup (hids.filter _)).mpr fun c => ?_
        rw [List.mem_filter, decide_eq_true_eq]
        exact ⟨fun hc => ⟨hinside c hc, hc⟩, And.right⟩
      rw [assign_eq hlines (edges_filter hlines) _ (hids.filter _)]
      simp only [List.not_mem_nil, not_false_eq_true, decide_true, List.filter_true]
      refine ⟨h.extend hc_id hw (settled_fit hids hlines hsorted hsorted' h hw hnil (by omega) rfl hperm) fun c hc => ?_,
        hroot, hkept⟩
      have hnot : c ∉ (claimants.map Prod.snd).filter fun c => c ∈ w.comp := fun hmem => hc (hperm.mem_iff.mpr hmem)
      constructor
      · have hnone : held (firstFit (reaches (edges claimants lines))
            ((claimants.map Prod.snd).filter fun c => c ∈ w.comp) (lines.map Prod.snd)) c = none :=
          held_eq_none.mpr fun hmem => hnot ((firstFit_fst _ _).subset hmem)
        rw [Solution.withPairs, Solution.line, held_append, hnone, Option.or_none]
        rfl
      · rw [Solution.withPairs, List.mem_append]
        exact ⟨fun hmem => hmem.resolve_right fun hfilter => hnot (List.mem_of_mem_filter hfilter), .inl⟩

/-- The rounds of the outer loop, one after the other. -/
theorem Solving.foldl (hids : (claimants.map Prod.snd).Nodup) (hlines : (lines.map Prod.snd).Nodup)
    (hsorted : claimants.Pairwise fun c c' => c.1 ≤ c'.1) (hsorted' : lines.Pairwise fun l l' => l.1 ≤ l'.1)
    (c_ids : List ι) (hc_ids : c_ids ⊆ claimants.map Prod.snd) (h : Solving claimants lines st) :
    Solving claimants lines (c_ids.foldl (FeedMatch.solveFrom claimants lines) st) ∧
      (∀ a ∈ st.1, a ∈ (c_ids.foldl (FeedMatch.solveFrom claimants lines) st).1) ∧
      ∀ c ∈ c_ids, c ∈ (c_ids.foldl (FeedMatch.solveFrom claimants lines) st).1 := by
  induction c_ids generalizing st with
  | nil => exact ⟨h, fun _ ha => ha, by simp⟩
  | cons c_id c_ids ih =>
    obtain ⟨hstep, hmem, hkept⟩ := h.solveFrom hids hlines hsorted hsorted' (hc_ids List.mem_cons_self)
    obtain ⟨hrun, hkept', hseen⟩ := ih (fun c hc => hc_ids (List.mem_cons_of_mem _ hc)) hstep
    refine ⟨hrun, fun a ha => hkept' a (hkept a ha), fun c hc => ?_⟩
    rcases List.mem_cons.mp hc with rfl | hc
    · exact hkept' _ hmem
    · exact hseen c hc

/-- When the loop is done, every claimant was seen. -/
theorem solving_solve (hids : (claimants.map Prod.snd).Nodup) (hlines : (lines.map Prod.snd).Nodup)
    (hsorted : claimants.Pairwise fun c c' => c.1 ≤ c'.1) (hsorted' : lines.Pairwise fun l l' => l.1 ≤ l'.1) :
    ∃ seen, Solving claimants lines (seen, solve claimants lines) ∧ claimants.map Prod.snd ⊆ seen := by
  have hstart : Solving claimants lines ([], ⟨[], []⟩) := by
    refine ⟨by simp, by simp, fun c hsome => ?_, by simp, by simp⟩
    cases hsome
  obtain ⟨hrun, -, hseen⟩ := Solving.foldl hids hlines hsorted hsorted' _ (List.Subset.refl _) hstart
  exact ⟨_, hrun, hseen⟩

/-- A claimant's component, as the walk finds it. -/
theorem exists_component (claimants : List (ℤ × ι)) (lines : List (ℤ × κ)) (root : ι) : ∃ comp things, (graph claimants lines).Component root comp things := by
  have hw := (graph claimants lines).walk_found (List.not_mem_nil (a := root)) (by simp)
  exact ⟨_, _, hw.toComponent⟩

/-- A claimant without a line in reach is neither paired nor ambiguous. -/
theorem Solving.unreached (h : Solving claimants lines st) {c : ι} (hedges : edges claimants lines c = []) :
    st.2.line c = none ∧ c ∉ st.2.ambiguous := by
  by_cases hseen : c ∈ st.1
  swap
  · exact h.fresh hseen
  obtain ⟨comp, things, hcomp⟩ := exists_component claimants lines c
  have hsettled := h.settled c hseen comp things hcomp
  have halone : ∀ a ∈ comp, a = c := by
    intro a ha
    rcases Relation.ReflTransGen.cases_head ((hcomp.comp_iff a).mp ha) with heq | ⟨_, ⟨b, hb, -⟩, -⟩
    · exact heq.symm
    · have hb' : b ∈ edges claimants lines c := hb
      rw [hedges] at hb'
      cases hb'
  refine ⟨Option.eq_none_iff_forall_ne_some.mpr fun l hline => ?_, hsettled.idle ?_ c hcomp.root_mem⟩
  · have hmem : l ∈ edges claimants lines c := of_decide_eq_true (hsettled.pairing.suited c hcomp.root_mem l hline).2
    rw [hedges] at hmem
    cases hmem
  · refine List.eq_nil_iff_forall_not_mem.mpr fun b hb => ?_
    obtain ⟨a, ha, hedge⟩ := (hcomp.things_iff b).mp hb
    have hedge' : b ∈ edges claimants lines c := halone a ha ▸ hedge
    rw [hedges] at hedge'
    cases hedge'

/-- The chain of a claimant has at least as many lines as claimants, and those of the chain before it leave it that line
    first. -/
def Gets (claimants : List (ℤ × ι)) (lines : List (ℤ × κ)) (c : ι) (l : κ) : Prop :=
  ∃ comp things, (graph claimants lines).Component c comp things ∧ comp.length ≤ things.length ∧
    held (firstFit (reaches (edges claimants lines)) ((claimants.map Prod.snd).filter (· ∈ comp)) (lines.map Prod.snd)) c =
      some l

/-- A claimant with a line in reach holds the line that its chain leaves it, and is ambiguous where there is none. -/
theorem Solving.reached (h : Solving claimants lines st) {c : ι} (hseen : c ∈ st.1) (hedges : edges claimants lines c ≠ []) :
    (∀ l, st.2.line c = some l ↔ Gets claimants lines c l) ∧ (c ∈ st.2.ambiguous ↔ st.2.line c = none) := by
  obtain ⟨comp, things, hcomp⟩ := exists_component claimants lines c
  have hsettled := h.settled c hseen comp things hcomp
  constructor
  · intro l
    constructor
    · intro hline
      have hne : things ≠ [] := by
        obtain ⟨b, hb⟩ := List.exists_mem_of_ne_nil _ hedges
        exact List.ne_nil_of_mem ((hcomp.things_iff b).mpr ⟨c, hcomp.root_mem, hb⟩)
      have hfit : comp.length ≤ things.length := by
        by_contra hover
        exact hsettled.clash c hcomp.root_mem (Option.isSome_of_eq_some hline)
          (hsettled.outnumbered hne (by omega) c hcomp.root_mem)
      exact ⟨comp, things, hcomp, hfit, (hsettled.fits hfit c hcomp.root_mem) ▸ hline⟩
    · rintro ⟨comp', things', hcomp', hfit, hheld⟩
      exact ((h.settled c hseen comp' things' hcomp').fits hfit c hcomp'.root_mem).trans hheld
  · constructor
    · intro hflag
      by_contra hsome
      exact hsettled.clash c hcomp.root_mem (Option.isSome_iff_ne_none.mpr hsome) hflag
    · intro hnone
      refine (hsettled.decided c hcomp.root_mem hedges).resolve_left ?_
      rw [hnone]
      exact Bool.false_ne_true

end

/-! ### The assignment as a whole -/

/-- A line in a claimant's reach: their dates are at most a day apart. -/
def Near (claimants : List (ℤ × ι)) (lines : List (ℤ × κ)) (c_id : ι) (l_id : κ) : Prop :=
  ∃ d e, (d, c_id) ∈ claimants ∧ (e, l_id) ∈ lines ∧ |e - d| ≤ DATE_WINDOW_DAYS

/-- Each claimant is paired with at most one line in its reach and no line twice; a claimant with a line in reach is paired
    or ambiguous and not both; a component that holds a line and more claimants than lines is ambiguous as a whole; in every
    other component no pairing serves more, so that a claimant is ambiguous there only if none covers the component. -/
theorem solve_maximum (claimants : List (ℤ × ι)) (lines : List (ℤ × κ))
    (hsorted : claimants.Pairwise fun c c' => c.1 ≤ c'.1) (hsorted' : lines.Pairwise fun l l' => l.1 ≤ l'.1)
    (hids : (claimants.map Prod.snd).Nodup) (hlines : (lines.map Prod.snd).Nodup) :
    (∀ c l, (solve claimants lines).line c = some l → Near claimants lines c l) ∧
    (∀ c c' l, (solve claimants lines).line c = some l → (solve claimants lines).line c' = some l → c = c') ∧
    (∀ c l, Near claimants lines c l →
      (((solve claimants lines).line c).isSome ↔ c ∉ (solve claimants lines).ambiguous)) ∧
    ∀ root ∈ claimants.map Prod.snd, ∀ comp things, (graph claimants lines).Component root comp things →
      (things ≠ [] → things.length < comp.length → ∀ c ∈ comp, c ∈ (solve claimants lines).ambiguous) ∧
      (comp.length ≤ things.length →
        Pairing (reaches (edges claimants lines)) comp things (solve claimants lines).line ∧
        ∀ m, Pairing (reaches (edges claimants lines)) comp things m →
          served comp m ≤ served comp (solve claimants lines).line ∧
          ((∃ c ∈ comp, c ∈ (solve claimants lines).ambiguous) → ∃ c ∈ comp, m c = none)) := by
  obtain ⟨seen, hsolving, hseen⟩ := solving_solve hids hlines hsorted hsorted'
  have hedge : ∀ c l, (solve claimants lines).line c = some l → l ∈ edges claimants lines c := by
    intro c l hline
    obtain ⟨comp, things, hcomp⟩ := exists_component claimants lines c
    have hsettled := hsolving.settled c (hsolving.keys c (Option.isSome_of_eq_some hline)) comp things hcomp
    exact of_decide_eq_true (hsettled.pairing.suited c hcomp.root_mem l hline).2
  refine ⟨fun c l hline => (mem_edges hids).mp (hedge c l hline), fun c c' l hline hline' => ?_, fun c l hnear => ?_,
    fun root hroot comp things hcomp => ?_⟩
  · obtain ⟨comp, things, hcomp⟩ := exists_component claimants lines c
    have hsettled := hsolving.settled c (hsolving.keys c (Option.isSome_of_eq_some hline)) comp things hcomp
    have hlinked : (graph claimants lines).Linked c c' := ⟨l, hedge c l hline, hedge c' l hline'⟩
    have hmem : c' ∈ comp := (hcomp.comp_iff c').mpr (Relation.ReflTransGen.single hlinked)
    exact hsettled.pairing.injective c hcomp.root_mem c' hmem l hline hline'
  · obtain ⟨comp, things, hcomp⟩ := exists_component claimants lines c
    have hmem : c ∈ claimants.map Prod.snd := by
      obtain ⟨d, _, hc, -, -⟩ := hnear
      exact List.mem_map.mpr ⟨(d, c), hc, rfl⟩
    have hsettled := hsolving.settled c (hseen hmem) comp things hcomp
    refine ⟨hsettled.clash c hcomp.root_mem, fun hnot => ?_⟩
    exact (hsettled.decided c hcomp.root_mem (List.ne_nil_of_mem ((mem_edges hids).mpr hnear))).resolve_right hnot
  · have hsettled := hsolving.settled root (hseen hroot) comp things hcomp
    refine ⟨hsettled.outnumbered, fun hle => ⟨hsettled.pairing, fun m hm => ?_⟩⟩
    have hmost := hsettled.most hle m hm
    refine ⟨hmost, fun ⟨c, hc, hflag⟩ => ?_⟩
    by_contra hcovered
    have hall : served comp m = comp.length := by
      refine List.countP_eq_length.mpr fun a ha => Option.isSome_iff_ne_none.mpr fun hnone => hcovered ⟨a, ha, hnone⟩
    have hserved : served comp (solve claimants lines).line = comp.length :=
      le_antisymm List.countP_le_length (hall ▸ hmost)
    exact hsettled.clash c hc (List.countP_eq_length.mp hserved c hc) hflag

/-- Two equal charges a day apart and two lines: both are paired, as a pairing covers both. -/
theorem both_charges_paired :
    ((solve [(0, 1), (1, 2)] [(1, 10), (2, 11)]).line 1).isSome ∧
      ((solve [(0, 1), (1, 2)] [(1, 10), (2, 11)]).line 2).isSome := by
  obtain ⟨-, -, hdecided, hcomponents⟩ :=
    solve_maximum [(0, 1), (1, 2)] [(1, 10), (2, 11)] (by decide) (by decide) (by decide) (by decide)
  have hcomp : (graph [(0, 1), (1, 2)] [(1, 10), (2, 11)]).Component 1 [1, 2] [10, 11] := by
    refine ⟨by decide, fun a => ⟨fun ha => ?_, fun hconn => hconn.mem_nodes List.mem_cons_self⟩, by decide, fun b => ?_⟩
    · rcases List.mem_cons.mp ha with rfl | ha
      · exact Relation.ReflTransGen.refl
      · rw [List.mem_singleton.mp ha]
        exact Relation.ReflTransGen.single ⟨10, by decide, by decide⟩
    · have hfirst : (graph [(0, 1), (1, 2)] [(1, 10), (2, 11)]).edges 1 = [10] := by decide
      have hsecond : (graph [(0, 1), (1, 2)] [(1, 10), (2, 11)]).edges 2 = [10, 11] := by decide
      simp only [List.mem_cons, List.not_mem_nil, or_false, exists_eq_or_imp, exists_eq_left, hfirst, hsecond]
      tauto
  have hcover : Pairing (reaches (edges [(0, 1), (1, 2)] [(1, 10), (2, 11)])) [1, 2] [10, 11]
      fun c => if c = 1 then some 10 else some 11 := by
    constructor
    · simp only [List.forall_mem_cons, if_pos, Option.some.injEq, forall_eq', OfNat.ofNat_ne_one, if_false]
      decide
    · decide
  have hnone := (((hcomponents 1 List.mem_cons_self _ _ hcomp).2 (by decide)).2 _ hcover).2
  have hclear : ∀ c ∈ [1, 2], c ∉ (solve [(0, 1), (1, 2)] [(1, 10), (2, 11)]).ambiguous := by
    intro c hc hflag
    obtain ⟨a, -, ha⟩ := hnone ⟨c, hc, hflag⟩
    split at ha <;> cases ha
  exact ⟨(hdecided 1 10 ⟨0, 1, by decide, by decide, by decide⟩).mpr (hclear 1 (by decide)),
    (hdecided 2 10 ⟨1, 1, by decide, by decide, by decide⟩).mpr (hclear 2 (by decide))⟩

/-- A charge with no line in reach is a component of its own with more claimants than lines; it is not ambiguous, its
    status is left to the coverage. -/
theorem lonely_charge_not_ambiguous :
    ¬ ∀ (claimants : List (ℤ × ℕ)) (lines : List (ℤ × ℕ)),
      (claimants.Pairwise fun c c' => c.1 ≤ c'.1) → (lines.Pairwise fun l l' => l.1 ≤ l'.1) →
      (claimants.map Prod.snd).Nodup → (lines.map Prod.snd).Nodup →
      ∀ root ∈ claimants.map Prod.snd, ∀ comp things, (graph claimants lines).Component root comp things →
        things.length < comp.length → ∀ c ∈ comp, c ∈ (solve claimants lines).ambiguous := by
  intro h
  have hcomp : (graph [(0, 1)] ([] : List (ℤ × ℕ))).Component 1 [1] [] := by
    refine ⟨by decide, fun a => ⟨fun ha => ?_, fun hconn => hconn.mem_nodes List.mem_cons_self⟩, by decide, fun b => ?_⟩
    · rw [List.mem_singleton.mp ha]
      exact Relation.ReflTransGen.refl
    · have hedges : (graph [(0, 1)] ([] : List (ℤ × ℕ))).edges 1 = [] := by decide
      simp only [List.not_mem_nil, List.mem_singleton, exists_eq_left, hedges]
  obtain ⟨seen, hsolving, hseen⟩ : ∃ seen, Solving [(0, 1)] [] (seen, solve [(0, 1)] ([] : List (ℤ × ℕ))) ∧
      [((0 : ℤ), 1)].map Prod.snd ⊆ seen := solving_solve (by decide) (by decide) (by decide) (by decide)
  have hidle := (hsolving.settled 1 (hseen (by decide)) [1] [] hcomp).idle rfl 1 (by decide)
  exact hidle (h [(0, 1)] [] (by decide) (by decide) (by decide) (by decide) 1 (by decide) [1] [] hcomp (by decide) 1
    (by decide))

end Gdx.FeedMatch
