import Mathlib
import GdxDispatch.Lib.ChainedRun
import GdxDispatch.Core.ShopCalendar

/-! Opening balances from bank statements.

    A bank account's statements are read in the order of their periods. The latest run whose balances chain is the
    evidence, and each month boundary in it is proved by a statement that ends the day before, by one that starts on
    it, or by both. The two proofs agree when they are neighbours; a statement that lies within the two days of the
    boundary can come between them, and then they agree only if it moves nothing. -/

namespace Gdx

open Lib

/-- What the derivation reads of a statement import. Dates are day numbers. -/
structure StatementPeriod where
  periodStart : ℤ
  periodEnd : ℤ
  beginningBalanceCents : ℤ
  endingBalanceCents : ℤ
  deriving DecidableEq, Repr

def MAX_BOUNDARY_GAP_DAYS : ℤ := 3

/-- The next statement begins with the balance the last one ended with, and the dates leave no hole. -/
def Linked (prev imp : StatementPeriod) : Prop :=
  imp.beginningBalanceCents = prev.endingBalanceCents ∧
    0 ≤ imp.periodStart - prev.periodEnd ∧ imp.periodStart - prev.periodEnd ≤ MAX_BOUNDARY_GAP_DAYS

instance : DecidableRel Linked := fun _ _ => inferInstanceAs (Decidable (_ ∧ _))

/-- `_latest_contiguous_run`: the run starts over at a broken link. -/
def latestContiguousRun (imports : List StatementPeriod) : List StatementPeriod := lastRun Linked imports

/-- `date.day`. -/
def dayOfMonth (day : ℤ) : ℤ := (civil day).2.2

/-- The next day, when it is the first of a month. -/
def monthBoundaryAfter (day : ℤ) : Option ℤ := if dayOfMonth (day + 1) = 1 then some (day + 1) else none

/-- A dictionary from boundaries to cents. -/
abbrev Candidates := ℤ → Option ℤ

/-- `candidates[boundary] = cents`. -/
def Candidates.set (candidates : Candidates) (boundary cents : ℤ) : Candidates :=
  Function.update candidates boundary (some cents)

/-- `candidates.setdefault(boundary, cents)`. -/
def Candidates.setdefault (candidates : Candidates) (boundary cents : ℤ) : Candidates :=
  if (candidates boundary).isSome then candidates else candidates.set boundary cents

/-- One pass of the loop of `_boundary_candidates`. -/
def addCandidates (candidates : Candidates) (imp : StatementPeriod) : Candidates :=
  let ended := match monthBoundaryAfter imp.periodEnd with
    | some boundary => candidates.set boundary imp.endingBalanceCents
    | none => candidates
  if dayOfMonth imp.periodStart = 1 then ended.setdefault imp.periodStart imp.beginningBalanceCents else ended

/-- `_boundary_candidates`. -/
def boundaryCandidates (run : List StatementPeriod) : Candidates := run.foldl addCandidates fun _ => none

/-- The statement ends the day before a month boundary. -/
def StatementPeriod.endsBefore (imp : StatementPeriod) (boundary : ℤ) : Prop :=
  monthBoundaryAfter imp.periodEnd = some boundary

/-- The statement starts on a month boundary. -/
def StatementPeriod.startsOn (imp : StatementPeriod) (boundary : ℤ) : Prop :=
  imp.periodStart = boundary ∧ dayOfMonth boundary = 1

instance (imp : StatementPeriod) (boundary : ℤ) : Decidable (imp.endsBefore boundary) :=
  inferInstanceAs (Decidable (_ = _))

instance (imp : StatementPeriod) (boundary : ℤ) : Decidable (imp.startsOn boundary) :=
  inferInstanceAs (Decidable (_ ∧ _))

/-- The run is the longest chained suffix; two statements that prove one boundary, by ending before it and by starting
    on it, prove the same cents; and these are what is kept of the boundary, in whatever order the run is read. -/
def EvidenceConsistent (imports : List StatementPeriod) : Prop :=
  let run := latestContiguousRun imports
  run <:+ imports ∧ run.IsChain Linked ∧ (∀ ys, ys <:+ imports → ys.IsChain Linked → ys.length ≤ run.length) ∧
    ∀ boundary, ∀ e ∈ run, ∀ s ∈ run, e.endsBefore boundary → s.startsOn boundary →
      e.endingBalanceCents = s.beginningBalanceCents ∧
        ∀ order : List StatementPeriod, order.Perm run → boundaryCandidates order boundary = some e.endingBalanceCents

/-- Where a chained suffix proves a boundary by one statement's end and by a later one's start, the statements between
    the two move no money. -/
def StillAtBoundaries (imports : List StatementPeriod) : Prop :=
  ∀ before e between s after, imports = before ++ e :: (between ++ s :: after) →
    (e :: (between ++ s :: after)).IsChain Linked → monthBoundaryAfter e.periodEnd = some s.periodStart →
    ∀ k ∈ between, k.endingBalanceCents = k.beginningBalanceCents

variable {imports run xs : List StatementPeriod} {e s k : StatementPeriod} {boundary cents : ℤ} {c : Candidates}

theorem endsBefore_iff : e.endsBefore boundary ↔ e.periodEnd + 1 = boundary ∧ dayOfMonth boundary = 1 := by
  unfold StatementPeriod.endsBefore monthBoundaryAfter
  constructor
  · intro h
    split at h
    · cases h
      exact ⟨rfl, ‹_›⟩
    · cases h
  · rintro ⟨rfl, hday⟩
    rw [if_pos hday]

/-! ### The order of a run -/

/-- A later statement starts when the earlier one has ended. -/
def Later (a b : StatementPeriod) : Prop := a.periodEnd ≤ b.periodStart ∧ b.periodStart ≤ b.periodEnd

instance : Trans Later Later Later where
  trans h h' := ⟨h.1.trans (h.2.trans h'.1), h'.2⟩

theorem later_pairwise (hchain : run.IsChain Linked) (hperiod : ∀ imp ∈ run, imp.periodStart ≤ imp.periodEnd) :
    run.Pairwise Later := by
  have hlater : run.IsChain Later := by
    induction run with
    | nil => exact .nil
    | cons a run ih =>
      have hrest := ih (List.isChain_cons.mp hchain).2 fun imp h => hperiod imp (List.mem_cons_of_mem _ h)
      refine List.isChain_cons.mpr ⟨fun b hb => ⟨?_, ?_⟩, hrest⟩
      · have hgap := ((List.isChain_cons.mp hchain).1 b hb).2.1
        omega
      · exact hperiod b (List.mem_cons_of_mem _ (List.mem_of_mem_head? hb))
  exact List.isChain_iff_pairwise.mp hlater

/-- Statements that move nothing carry the balance through. -/
theorem balance_carried (hchain : (e :: (xs ++ [s])).IsChain Linked)
    (hstill : ∀ k ∈ xs, k.endingBalanceCents = k.beginningBalanceCents) :
    s.beginningBalanceCents = e.endingBalanceCents := by
  induction xs generalizing e with
  | nil => exact ((List.isChain_cons_cons.mp hchain).1).1
  | cons k xs ih =>
    obtain ⟨hlink, hrest⟩ := List.isChain_cons_cons.mp hchain
    rw [ih hrest fun j hj => hstill j (List.mem_cons_of_mem _ hj), hstill k List.mem_cons_self, hlink.1]

/-! ### What is kept of a boundary -/

/-- Every proof of the boundary in the list proves these cents. -/
def Proves (imp : StatementPeriod) (boundary cents : ℤ) : Prop :=
  (imp.endsBefore boundary → imp.endingBalanceCents = cents) ∧
    (imp.startsOn boundary → imp.beginningBalanceCents = cents)

theorem set_apply (boundary' : ℤ) :
    c.set boundary' cents boundary = if boundary = boundary' then some cents else c boundary := by
  simp [Candidates.set, Function.update_apply]

theorem setdefault_apply (boundary' : ℤ) :
    c.setdefault boundary' cents boundary =
      if boundary = boundary' ∧ c boundary = none then some cents else c boundary := by
  unfold Candidates.setdefault
  by_cases hb : boundary = boundary'
  · subst hb
    cases hc : c boundary <;> simp [set_apply, hc]
  · split <;> simp [set_apply, hb]

/-- A statement whose proofs of the boundary are of these cents leaves these cents or what was there. -/
theorem addCandidates_apply (hk : Proves k boundary cents) (hc : c boundary = none ∨ c boundary = some cents) :
    addCandidates c k boundary =
      if k.endsBefore boundary ∨ k.startsOn boundary then some cents else c boundary := by
  -- what the statement's end writes
  have hended : (match monthBoundaryAfter k.periodEnd with
      | some b => c.set b k.endingBalanceCents
      | none => c) boundary = if k.endsBefore boundary then some cents else c boundary := by
    by_cases hend : k.endsBefore boundary
    · have hcents := hk.1 hend
      rw [if_pos hend]
      rw [StatementPeriod.endsBefore] at hend
      rw [hend]
      simp [set_apply, hcents]
    · rw [if_neg hend]
      rw [StatementPeriod.endsBefore] at hend
      cases hb : monthBoundaryAfter k.periodEnd with
      | none => rfl
      | some b =>
        have hne : boundary ≠ b := fun h => hend (by rw [hb, h])
        simp [set_apply, hne]
  unfold addCandidates
  by_cases hday : dayOfMonth k.periodStart = 1
  · rw [if_pos hday, setdefault_apply, hended]
    by_cases hstart : k.startsOn boundary
    · have hcents := hk.2 hstart
      obtain ⟨rfl, -⟩ := hstart
      rcases hc with hc | hc <;> by_cases hend : k.endsBefore k.periodStart <;>
        simp [hend, hc, hcents, StatementPeriod.startsOn, hday]
    · have hne : boundary ≠ k.periodStart := fun h => hstart ⟨h.symm, h ▸ hday⟩
      simp [hne, hstart]
  · have hstart : ¬ k.startsOn boundary := fun h => hday (h.1 ▸ h.2)
    rw [if_neg hday, hended]
    simp [hstart]

/-- When all proofs of a boundary are of these cents, these are kept once one of them is read. -/
theorem candidate_eq (hall : ∀ k ∈ run, Proves k boundary cents) (hc : c boundary = none ∨ c boundary = some cents) :
    run.foldl addCandidates c boundary =
      if ∃ k ∈ run, k.endsBefore boundary ∨ k.startsOn boundary then some cents else c boundary := by
  induction run generalizing c with
  | nil => simp
  | cons k run ih =>
    have hk := addCandidates_apply (hall k List.mem_cons_self) hc
    have hnext : addCandidates c k boundary = none ∨ addCandidates c k boundary = some cents := by
      rw [hk]
      split
      · exact .inr rfl
      · exact hc
    rw [List.foldl_cons, ih (fun j hj => hall j (List.mem_cons_of_mem _ hj)) hnext, hk]
    by_cases hhere : k.endsBefore boundary ∨ k.startsOn boundary
    · simp [hhere]
    · simp [hhere]

/-! ### Where two proofs agree -/

/-- A proof by ending comes before a proof by starting. -/
theorem exists_between (hchain : run.IsChain Linked) (hperiod : ∀ imp ∈ run, imp.periodStart ≤ imp.periodEnd)
    (he : e ∈ run) (hs : s ∈ run) (hends : e.endsBefore boundary) (hstarts : s.startsOn boundary) :
    ∃ before between after, run = before ++ e :: (between ++ s :: after) := by
  obtain ⟨before, rest, rfl⟩ := List.append_of_mem he
  have hlt : e.periodEnd + 1 = s.periodStart := (endsBefore_iff.mp hends).1.trans hstarts.1.symm
  have hsorted := List.pairwise_append.mp (later_pairwise hchain hperiod)
  rcases List.mem_append.mp hs with hbefore | hmem
  · have hle := (hsorted.2.2 s hbefore e List.mem_cons_self).1
    have hse := hperiod s (List.mem_append_left _ hbefore)
    have hee := hperiod e he
    omega
  · rcases List.mem_cons.mp hmem with rfl | hrest
    · have hee := hperiod s he
      omega
    · obtain ⟨between, after, rfl⟩ := List.append_of_mem hrest
      exact ⟨before, between, after, rfl⟩

theorem run_suffix (imports : List StatementPeriod) : latestContiguousRun imports <:+ imports := lastRun_suffix imports

theorem run_isChain (imports : List StatementPeriod) : (latestContiguousRun imports).IsChain Linked :=
  lastRun_isChain imports

theorem mixed_agree (hperiod : ∀ imp ∈ imports, imp.periodStart ≤ imp.periodEnd) (hstill : StillAtBoundaries imports)
    (he : e ∈ latestContiguousRun imports) (hs : s ∈ latestContiguousRun imports) (hends : e.endsBefore boundary)
    (hstarts : s.startsOn boundary) : e.endingBalanceCents = s.beginningBalanceCents := by
  obtain ⟨front, hfront⟩ := run_suffix imports
  have hchain := run_isChain imports
  have hrunPeriod : ∀ imp ∈ latestContiguousRun imports, imp.periodStart ≤ imp.periodEnd :=
    fun imp h => hperiod imp ((run_suffix imports).subset h)
  obtain ⟨before, between, after, hrun⟩ := exists_between hchain hrunPeriod he hs hends hstarts
  rw [hrun] at hchain hfront
  have hsegment := (List.isChain_append.mp hchain).2.1
  have hnear : (e :: (between ++ [s])).IsChain Linked :=
    hsegment.prefix ⟨after, by simp⟩
  have hmoved := hstill (front ++ before) e between s after (by rw [List.append_assoc, hfront]) hsegment
    (by rw [hends, hstarts.1])
  exact (balance_carried hnear hmoved).symm

/-- The statements next to one that lies between two others. -/
theorem exists_neighbours {left right after : List StatementPeriod}
    (hchain : (e :: (left ++ k :: (right ++ s :: after))).IsChain Linked) :
    ∃ prev next, (prev = e ∨ prev ∈ left) ∧ (next = s ∨ next ∈ right) ∧ Linked prev k ∧ Linked k next := by
  rw [← List.cons_append] at hchain
  obtain ⟨-, hrest, hprev⟩ := List.isChain_append.mp hchain
  have hnext := (List.isChain_cons.mp hrest).1
  have hlast : (e :: left).getLast? = some ((e :: left).getLast (List.cons_ne_nil _ _)) :=
    List.getLast?_eq_some_getLast _
  refine ⟨_, (right ++ [s]).head (by simp), ?_, ?_, hprev _ hlast k rfl, hnext _ ?_⟩
  · exact List.mem_cons.mp (List.getLast_mem _)
  · have hmem := List.head_mem (l := right ++ [s]) (by simp)
    rcases List.mem_append.mp hmem with h | h
    · exact .inr h
    · exact .inl (List.mem_singleton.mp h)
  · cases right <;> simp

theorem still_of_agree (hperiod : ∀ imp ∈ imports, imp.periodStart ≤ imp.periodEnd)
    (hagree : ∀ boundary, ∀ e ∈ latestContiguousRun imports, ∀ s ∈ latestContiguousRun imports,
      e.endsBefore boundary → s.startsOn boundary → e.endingBalanceCents = s.beginningBalanceCents) :
    StillAtBoundaries imports := by
  intro before e between s after himports hchain hboundary k hk
  have hsuffix : (e :: (between ++ s :: after)) <:+ latestContiguousRun imports :=
    suffix_lastRun ⟨before, himports.symm⟩ hchain
  have hmem : ∀ j ∈ e :: (between ++ s :: after), j ∈ latestContiguousRun imports := fun j hj => hsuffix.subset hj
  have hsorted : (e :: (between ++ s :: after)).Pairwise Later :=
    later_pairwise hchain fun imp h => hperiod imp ((run_suffix imports).subset (hmem imp h))
  obtain ⟨left, right, rfl⟩ := List.append_of_mem hk
  rw [List.append_assoc, List.cons_append] at hchain hsorted hmem
  obtain ⟨prev, next, hprev, hnext, hlinkPrev, hlinkNext⟩ := exists_neighbours hchain
  obtain ⟨hafter, hinner⟩ := List.pairwise_cons.mp hsorted
  obtain ⟨-, hright, hcross⟩ := List.pairwise_append.mp hinner
  obtain ⟨hfromK, htail⟩ := List.pairwise_cons.mp hright
  obtain ⟨hday, hends⟩ : dayOfMonth s.periodStart = 1 ∧ e.periodEnd + 1 = s.periodStart :=
    (endsBefore_iff.mp hboundary).symm
  have hk_s : Later k s := hfromK s (by simp)
  have hprevMem : prev ∈ latestContiguousRun imports := hmem prev (by rcases hprev with rfl | h <;> simp [*])
  have hnextMem : next ∈ latestContiguousRun imports := hmem next (by rcases hnext with rfl | h <;> simp [*])
  have hkMem : k ∈ latestContiguousRun imports := hmem k (by simp)
  have heMem : e ∈ latestContiguousRun imports := hmem e (by simp)
  have hsMem : s ∈ latestContiguousRun imports := hmem s (by simp)
  -- everything between the two proofs lies on the two days of the boundary
  have hprevDay : e.periodEnd ≤ prev.periodEnd ∧ prev.periodEnd ≤ k.periodStart := by
    rcases hprev with rfl | h
    · exact ⟨le_rfl, (hafter k (by simp)).1⟩
    · have hlater := hafter prev (by simp [h])
      exact ⟨hlater.1.trans hlater.2, (hcross prev h k (by simp)).1⟩
  have hnextDay : k.periodEnd ≤ next.periodStart ∧ next.periodStart ≤ s.periodStart := by
    rcases hnext with rfl | h
    · exact ⟨hk_s.1, le_rfl⟩
    · have hbefore := (List.pairwise_append.mp htail).2.2 next h s (by simp)
      exact ⟨(hfromK next (by simp [h])).1, (hfromK next (by simp [h])).2.trans hbefore.1⟩
  have hkDay := (hafter k (by simp)).2
  have hendsOf : ∀ j : StatementPeriod, j.periodEnd = e.periodEnd → j.endsBefore s.periodStart :=
    fun j hj => endsBefore_iff.mpr ⟨by rw [hj, hends], hday⟩
  have hstartsOf : ∀ j : StatementPeriod, j.periodStart = s.periodStart → j.startsOn s.periodStart :=
    fun j hj => ⟨hj, hday⟩
  have hes := hagree _ e heMem s hsMem (hendsOf e rfl) (hstartsOf s rfl)
  by_cases hkEnds : k.periodEnd = e.periodEnd
  · have hks := hagree _ k hkMem s hsMem (hendsOf k hkEnds) (hstartsOf s rfl)
    have hps := hagree _ prev hprevMem s hsMem (hendsOf prev (by omega)) (hstartsOf s rfl)
    rw [hlinkPrev.1, hks, hps]
  · have hen := hagree _ e heMem next hnextMem (hendsOf e rfl) (hstartsOf next (by omega))
    by_cases hkStarts : k.periodStart = s.periodStart
    · have hek := hagree _ e heMem k hkMem (hendsOf e rfl) (hstartsOf k hkStarts)
      rw [← hlinkNext.1, ← hen, hek]
    · have hps := hagree _ prev hprevMem s hsMem (hendsOf prev (by omega)) (hstartsOf s rfl)
      rw [hlinkPrev.1, hps, ← hlinkNext.1, ← hen, hes]

/-- Opening evidence is consistent exactly when the statements between two proofs of a boundary move no money. -/
theorem opening_evidence_consistent_iff (imports : List StatementPeriod)
    (hperiod : ∀ imp ∈ imports, imp.periodStart ≤ imp.periodEnd) :
    EvidenceConsistent imports ↔ StillAtBoundaries imports := by
  constructor
  · rintro ⟨-, -, -, hproofs⟩
    exact still_of_agree hperiod fun boundary e he s hs hends hstarts => (hproofs boundary e he s hs hends hstarts).1
  · intro hstill
    refine ⟨run_suffix imports, run_isChain imports, fun ys hys hchain => (suffix_lastRun hys hchain).length_le, ?_⟩
    intro boundary e he s hs hends hstarts
    have hes := mixed_agree hperiod hstill he hs hends hstarts
    refine ⟨hes, fun order hperm => ?_⟩
    have hall : ∀ k ∈ order, Proves k boundary e.endingBalanceCents := by
      intro k hk
      have hkRun := hperm.mem_iff.mp hk
      refine ⟨fun hkEnds => ?_, fun hkStarts => ?_⟩
      · rw [mixed_agree hperiod hstill hkRun hs hkEnds hstarts, hes]
      · exact (mixed_agree hperiod hstill he hkRun hends hkStarts).symm
    rw [boundaryCandidates, candidate_eq hall (.inl rfl), if_pos ⟨e, hperm.mem_iff.mpr he, .inl hends⟩]

/-- January, and February after it. -/
def januaryFebruary : List StatementPeriod := [⟨0, 30, 0, 10000⟩, ⟨31, 58, 10000, 25000⟩]

theorem opening_evidence_consistent_januaryFebruary : EvidenceConsistent januaryFebruary := by
  refine (opening_evidence_consistent_iff januaryFebruary (by decide)).mpr ?_
  intro before e between s after himports _ _ k hk
  have hlen := congrArg List.length himports
  have hpos := List.length_pos_of_mem hk
  simp only [januaryFebruary, List.length_cons, List.length_nil, List.length_append] at hlen
  omega

/-- A statement of the last day of January alone lies between the two. -/
def lastDayApart : List StatementPeriod := [⟨0, 30, 0, 10000⟩, ⟨30, 30, 10000, 15000⟩, ⟨31, 58, 15000, 25000⟩]

/-- January proves 100.00 for the first of February, February proves 150.00. -/
theorem opening_evidence_inconsistent :
    ¬ ∀ imports : List StatementPeriod, (∀ imp ∈ imports, imp.periodStart ≤ imp.periodEnd) →
      imports.Pairwise (fun a b => a.periodStart ≤ b.periodStart) → EvidenceConsistent imports := by
  intro h
  obtain ⟨-, -, -, hproofs⟩ := h lastDayApart (by decide) (by decide)
  have hcents := (hproofs 31 ⟨0, 30, 0, 10000⟩ (by decide) ⟨31, 58, 15000, 25000⟩ (by decide) (by decide) (by decide)).1
  exact absurd hcents (by decide)

end Gdx
