import GdxDispatch.Plugins.Boot

/-! Metadata and code on the plugin volume.

    The metadata of a release tells the truth where each top-level name that only its distribution claims holds its
    code. A pip straight into the volume keeps this where it finds none of these names occupied by other code, a staged
    replace where it brings no dependency in a second version, and taking metadata away where the names that become
    another distribution's own hold that one's code. -/

namespace Gdx

variable {D V N : Type} [DecidableEq D] [LinearOrder V] [DecidableEq N]
variable {tops : Release D V → List N} {rank : N ⊕ Release D V → ℕ}

namespace CodeVolume

/-- A name that no metadata of a distribution other than `d` claims. -/
def Sole (tops : Release D V → List N) (infos : List (Release D V)) (d : D) (n : N) : Prop :=
  ∀ j ∈ infos, n ∈ tops j → j.dist = d

/-- The metadata tells the truth about the code. -/
def Truthful (tops : Release D V → List N) (vol : CodeVolume D V N) : Prop :=
  ∀ i ∈ vol.infos, ∀ n ∈ tops i, Sole tops vol.infos i.dist n → vol.files n = some i

/-- What wheels installed straight into the volume find under the names that will be their own: nothing, or their
    own code. -/
def Fits (tops : Release D V → List N) (vol : CodeVolume D V N) (wheels : List (Release D V)) : Prop :=
  ∀ w ∈ wheels, ∀ n ∈ tops w, Sole tops (vol.infos ++ wheels) w.dist n → vol.files n = none ∨ vol.files n = some w

/-- A dependency that comes with a release is not installed in another version. -/
def Companions (vol : CodeVolume D V N) (d : D) (wheels : List (Release D V)) : Prop :=
  ∀ w ∈ wheels, w.dist ≠ d → ∀ i ∈ vol.infos, i.dist = w.dist → i = w

/-- A name that a distribution shares with one other holds the other's code. -/
def LeavesClean (tops : Release D V → List N) (vol : CodeVolume D V N) (d : D) : Prop :=
  ∀ i ∈ vol.infos, i.dist ≠ d → ∀ n ∈ tops i, (∃ j ∈ vol.infos, j.dist = d ∧ n ∈ tops j) →
    (∀ j ∈ vol.infos, n ∈ tops j → j.dist = d ∨ j.dist = i.dist) → vol.files n = some i

omit [DecidableEq D] [LinearOrder V] [DecidableEq N] in
theorem Sole.mono {infos infos' : List (Release D V)} {d : D} {n : N} (h : Sole tops infos' d n)
    (hsub : ∀ i ∈ infos, i ∈ infos') : Sole tops infos d n :=
  fun j hj hn => h j (hsub j hj) hn

omit [DecidableEq D] [LinearOrder V] [DecidableEq N] in
/-! ### Taking away -/

theorem run_drops (tops : Release D V → List N) (items : List (N ⊕ Release D V)) : ∀ vol : CodeVolume D V N,
    (∀ n, .inl n ∈ items → (vol.run tops (items.map (Sum.elim .drop .dropInfo))).files n = none) ∧
      (∀ n, .inl n ∉ items → (vol.run tops (items.map (Sum.elim .drop .dropInfo))).files n = vol.files n) ∧
      ∀ i, i ∈ (vol.run tops (items.map (Sum.elim .drop .dropInfo))).infos ↔ i ∈ vol.infos ∧ .inr i ∉ items := by
  induction items with
  | nil =>
    exact fun vol => ⟨fun n h => absurd h List.not_mem_nil, fun n _ => rfl,
      fun i => ⟨fun h => ⟨h, List.not_mem_nil⟩, fun h => h.1⟩⟩
  | cons item items ih =>
    intro vol
    cases item with
    | inl m =>
      obtain ⟨hgone, hstay, hinfos⟩ := ih (vol.apply tops (.drop m))
      refine ⟨fun n hn => ?_, fun n hn => ?_, fun i => (hinfos i).trans (by simp [apply])⟩
      · by_cases hin : .inl n ∈ items
        · exact hgone n hin
        · obtain rfl : n = m := by simpa [hin] using hn
          exact (hstay n hin).trans (by simp [apply])
      · simp only [List.mem_cons, Sum.inl.injEq, not_or] at hn
        exact (hstay n hn.2).trans (by simp [apply, hn.1])
    | inr j =>
      obtain ⟨hgone, hstay, hinfos⟩ := ih (vol.apply tops (.dropInfo j))
      refine ⟨fun n hn => hgone n (by simpa using hn), fun n hn => hstay n (by simpa using hn),
        fun i => (hinfos i).trans ?_⟩
      simp only [apply, List.mem_filter, decide_eq_true_eq, List.mem_cons, Sum.inr.injEq, not_or, ne_eq, and_assoc]

/-- Metadata of a distribution that shares no name uncleanly can be taken away. -/
theorem Truthful.dropInfos {vol : CodeVolume D V N} {d : D} (h : vol.Truthful tops) (hclean : vol.LeavesClean tops d)
    (gone : List (Release D V)) (hgone : ∀ i ∈ gone, i.dist = d) :
    (vol.run tops (gone.map .dropInfo)).Truthful tops := by
  obtain ⟨-, hfiles, hinfos⟩ := run_drops tops (gone.map .inr) vol
  rw [List.map_map] at hfiles hinfos
  intro i hi n hn hsole
  obtain ⟨hold, -⟩ := (hinfos i).mp hi
  refine (hfiles n (by simp)).trans ?_
  by_cases hshared : ∃ j ∈ vol.infos, j.dist = d ∧ n ∈ tops j ∧ j.dist ≠ i.dist
  · obtain ⟨j, hj, hjd, hjn, hne⟩ := hshared
    refine hclean i hold (fun hid => hne (hjd.trans hid.symm)) n hn ⟨j, hj, hjd, hjn⟩ fun k hk hkn => ?_
    by_cases hkgone : k ∈ gone
    · exact .inl (hgone k hkgone)
    · exact .inr (hsole k ((hinfos k).mpr ⟨hk, by simpa using hkgone⟩) hkn)
  · refine h i hold n hn fun k hk hkn => ?_
    by_cases hkgone : k ∈ gone
    · by_contra hne
      exact hshared ⟨k, hk, hgone k hkgone, hkn, hne⟩
    · exact hsole k ((hinfos k).mpr ⟨hk, by simpa using hkgone⟩) hkn

omit [LinearOrder V] [DecidableEq N] in
theorem mem_infosOf {vol : CodeVolume D V N} {d : D} {i : Release D V} :
    i ∈ vol.infosOf d ↔ i ∈ vol.infos ∧ i.dist = d := by
  simp [infosOf]

omit [LinearOrder V] in
theorem claimedByOther_iff {vol : CodeVolume D V N} {d : D} {n : N} :
    vol.claimedByOther tops d n = true ↔ ∃ i ∈ vol.infos, i.dist ≠ d ∧ n ∈ tops i := by
  simp [claimedByOther]

/-- A cleared distribution leaves no metadata, and no name that others claim goes. -/
theorem run_clearOps (tops : Release D V → List N) (rank : N ⊕ Release D V → ℕ) (vol : CodeVolume D V N) (d : D) :
    (∀ n, (∃ i ∈ vol.infos, i.dist ≠ d ∧ n ∈ tops i) →
        (vol.run tops (vol.clearOps tops rank d)).files n = vol.files n) ∧
      ∀ i, i ∈ (vol.run tops (vol.clearOps tops rank d)).infos ↔ i ∈ vol.infos ∧ i.dist ≠ d := by
  unfold clearOps
  dsimp only
  obtain ⟨-, hstay, hinfos⟩ := run_drops tops (List.insertionSort (rank · ≤ rank ·)
    ((((vol.infosOf d).flatMap tops).dedup.filter (!vol.claimedByOther tops d ·)).map .inl ++
      (vol.infosOf d).map .inr)) vol
  refine ⟨fun n hn => hstay n ?_, fun i => (hinfos i).trans ?_⟩
  · rw [(List.perm_insertionSort _ _).mem_iff]
    simp [claimedByOther_iff.mpr hn]
  · rw [(List.perm_insertionSort _ _).mem_iff]
    simp only [List.mem_append, List.mem_map, Sum.inr.injEq, exists_eq_right, reduceCtorEq, and_false, exists_false,
      false_or, mem_infosOf, not_and, ne_eq]
    exact and_congr_right fun hi => ⟨fun h => h hi, fun h _ => h⟩

theorem Truthful.clear {vol : CodeVolume D V N} {d : D} (h : vol.Truthful tops) (hclean : vol.LeavesClean tops d)
    (rank : N ⊕ Release D V → ℕ) : (vol.run tops (vol.clearOps tops rank d)).Truthful tops := by
  obtain ⟨hfiles, hinfos⟩ := run_clearOps tops rank vol d
  intro i hi n hn hsole
  obtain ⟨hold, hne⟩ := (hinfos i).mp hi
  rw [hfiles n ⟨i, hold, hne, hn⟩]
  by_cases hshared : ∃ j ∈ vol.infos, j.dist = d ∧ n ∈ tops j
  · refine hclean i hold hne n hn hshared fun k hk hkn => ?_
    by_cases hkd : k.dist = d
    · exact .inl hkd
    · exact .inr (hsole k ((hinfos k).mpr ⟨hk, hkd⟩) hkn)
  · refine h i hold n hn fun k hk hkn => hsole k ((hinfos k).mpr ⟨hk, fun hkd => ?_⟩) hkn
    exact hshared ⟨k, hk, hkd, hkn⟩

/-! ### Bringing in -/

omit [DecidableEq D] [LinearOrder V] in
/-- A name that only one distribution of the wheels has is staged with that wheel's code. -/
theorem staged_eq {p : PipInstall D V} {w : Release D V} {n : N} (hw : w ∈ p.wheels) (hn : n ∈ tops w)
    (hsole : Sole tops p.wheels w.dist n) : staged tops p.wheels n = some w := by
  unfold staged
  cases hfind : p.wheels.find? fun w => decide (n ∈ tops w) with
  | none =>
    have hnone := List.find?_eq_none.mp hfind w hw
    exact absurd (decide_eq_true hn) hnone
  | some w' =>
    have hw' := List.mem_of_find?_eq_some hfind
    have hfound := List.find?_some hfind
    have hn' : n ∈ tops w' := of_decide_eq_true hfound
    rw [p.single w' hw' w hw (hsole w' hw' hn')]

theorem mem_infos_pip {vol : CodeVolume D V N} {wheels : List (Release D V)} {i : Release D V} :
    i ∈ (vol.apply tops (.pip wheels)).infos ↔ i ∈ vol.infos ∨ i ∈ wheels := by
  simp only [apply, List.mem_append, List.mem_filter, decide_eq_true_eq]
  by_cases hi : i ∈ vol.infos <;> simp [hi]

/-- A pip straight into the volume tells the truth where the names that will be the wheels' own are free. -/
theorem Truthful.pip {vol : CodeVolume D V N} {p : PipInstall D V} (h : vol.Truthful tops)
    (hfits : vol.Fits tops p.wheels) : (vol.apply tops (.pip p.wheels)).Truthful tops := by
  intro i hi n hn hsole
  have hall : Sole tops (vol.infos ++ p.wheels) i.dist n :=
    hsole.mono fun j hj => mem_infos_pip.mpr (List.mem_append.mp hj)
  show (vol.files n).or (staged tops p.wheels n) = some i
  rcases mem_infos_pip.mp hi with hold | hw
  · rw [h i hold n hn (hall.mono fun j hj => List.mem_append_left _ hj), Option.some_or]
  · rcases hfits i hw n hn hall with hfree | hown
    · rw [hfree, Option.none_or, staged_eq hw hn (hall.mono fun j hj => List.mem_append_right _ hj)]
    · rw [hown, Option.some_or]

/-- The moves of code out of the staging folder: a name that others claim and that is there stays. -/
theorem run_moves (tops : Release D V → List N) (keep : N → Bool) (wheels : List (Release D V)) (names : List N) :
    ∀ vol : CodeVolume D V N,
      let last := vol.run tops (names.flatMap fun n =>
        if keep n then [] else VolumeOp.drop n :: (staged tops wheels n).toList.map (VolumeOp.put n))
      (∀ n, last.files n = if n ∈ names ∧ keep n = false then staged tops wheels n else vol.files n) ∧
        last.infos = vol.infos := by
  induction names with
  | nil => exact fun vol => ⟨fun n => by simp [run], rfl⟩
  | cons m names ih =>
    intro vol
    dsimp only
    rw [List.flatMap_cons, run, List.foldl_append]
    obtain ⟨hfiles, hinfos⟩ := ih (List.foldl (apply tops) vol
      (if keep m then [] else VolumeOp.drop m :: (staged tops wheels m).toList.map (VolumeOp.put m)))
    have hstep : (∀ n, (List.foldl (apply tops) vol (if keep m then []
          else VolumeOp.drop m :: (staged tops wheels m).toList.map (VolumeOp.put m))).files n =
          if n = m ∧ keep m = false then staged tops wheels m else vol.files n) ∧
        (List.foldl (apply tops) vol (if keep m then []
          else VolumeOp.drop m :: (staged tops wheels m).toList.map (VolumeOp.put m))).infos = vol.infos := by
      cases hkeep : keep m with
      | true => simp
      | false =>
        cases hstaged : staged tops wheels m with
        | none => exact ⟨fun n => by by_cases hn : n = m <;> simp [apply, hn], by simp [apply]⟩
        | some w => exact ⟨fun n => by by_cases hn : n = m <;> simp [apply, hn], by simp [apply]⟩
    refine ⟨fun n => (hfiles n).trans ?_, hinfos.trans hstep.2⟩
    rw [hstep.1 n]
    by_cases hn : n = m
    · subst hn
      by_cases hin : n ∈ names <;> cases hkeep : keep n <;> simp [hin]
    · simp [hn]

theorem run_records (tops : Release D V → List N) (new : List (Release D V)) : ∀ vol : CodeVolume D V N,
    (vol.run tops (new.map .record)).files = vol.files ∧
      ∀ i, i ∈ (vol.run tops (new.map .record)).infos ↔ i ∈ vol.infos ∨ i ∈ new := by
  induction new with
  | nil => exact fun vol => ⟨rfl, fun i => by simp [run]⟩
  | cons j new ih =>
    intro vol
    obtain ⟨hfiles, hinfos⟩ := ih (vol.apply tops (.record j))
    refine ⟨hfiles, fun i => (hinfos i).trans ?_⟩
    simp only [apply, List.mem_append, List.mem_filter, decide_eq_true_eq, List.mem_cons]
    by_cases hij : i = j <;> simp [hij]

theorem run_append (tops : Release D V → List N) (vol : CodeVolume D V N) (ops ops' : List (VolumeOp D V N)) :
    vol.run tops (ops ++ ops') = (vol.run tops ops).run tops ops' :=
  List.foldl_append

/-- Once the distribution is cleared, the moves bring the staged release in truthfully. -/
theorem Truthful.move {before vol : CodeVolume D V N} {d : D} {p : PipInstall D V} (h : vol.Truthful tops)
    (hcleared : ∀ i, i ∈ vol.infos ↔ i ∈ before.infos ∧ i.dist ≠ d) (hwith : vol.Companions d p.wheels) :
    (vol.run tops (moveOps tops before vol d p.wheels)).Truthful tops ∧
      ∀ i, i ∈ (vol.run tops (moveOps tops before vol d p.wheels)).infos ↔ i ∈ vol.infos ∨ i ∈ p.wheels := by
  have hshared : ∀ n, before.claimedByOther tops d n = true ↔ ∃ i ∈ vol.infos, n ∈ tops i := by
    intro n
    rw [claimedByOther_iff]
    exact ⟨fun ⟨i, hi, hne, hn⟩ => ⟨i, (hcleared i).mpr ⟨hi, hne⟩, hn⟩,
      fun ⟨i, hi, hn⟩ => ⟨i, ((hcleared i).mp hi).1, ((hcleared i).mp hi).2, hn⟩⟩
  unfold moveOps
  rw [run_append]
  obtain ⟨hfiles, hmid⟩ := run_moves tops (fun n => before.claimedByOther tops d n && (vol.files n).isSome) p.wheels
    (p.wheels.flatMap tops).dedup vol
  obtain ⟨hlast, hinfos⟩ := run_records tops (p.wheels.filter (· ∉ vol.infos)) (vol.run tops
    ((p.wheels.flatMap tops).dedup.flatMap fun n =>
      if before.claimedByOther tops d n && (vol.files n).isSome then []
      else VolumeOp.drop n :: (staged tops p.wheels n).toList.map (VolumeOp.put n)))
  have hall : ∀ i, i ∈ ((vol.run tops ((p.wheels.flatMap tops).dedup.flatMap fun n =>
      if before.claimedByOther tops d n && (vol.files n).isSome then []
      else VolumeOp.drop n :: (staged tops p.wheels n).toList.map (VolumeOp.put n))).run tops
        ((p.wheels.filter (· ∉ vol.infos)).map .record)).infos ↔ i ∈ vol.infos ∨ i ∈ p.wheels := by
    intro i
    rw [hinfos, hmid, List.mem_filter, decide_eq_true_eq]
    by_cases hi : i ∈ vol.infos <;> simp [hi]
  refine ⟨?_, hall⟩
  intro i hi n hn hsole
  rw [hlast, hfiles n]
  have hsole' : Sole tops (vol.infos ++ p.wheels) i.dist n :=
    hsole.mono fun j hj => (hall j).mpr (List.mem_append.mp hj)
  by_cases hold : i ∈ vol.infos
  · -- What was truthful stays: the name is claimed and there, so that it is kept.
    have hthere := h i hold n hn (hsole'.mono fun j hj => List.mem_append_left _ hj)
    rw [if_neg, hthere]
    simp [(hshared n).mpr ⟨i, hold, hn⟩, hthere]
  · have hw : i ∈ p.wheels := ((hall i).mp hi).resolve_left hold
    have hfree : before.claimedByOther tops d n = false := by
      rw [Bool.eq_false_iff]
      intro hclaimed
      obtain ⟨j, hj, hjn⟩ := (hshared n).mp hclaimed
      have hdist := hsole' j (List.mem_append_left _ hj) hjn
      have hne : i.dist ≠ d := hdist ▸ ((hcleared j).mp hj).2
      exact hold (hwith i hw hne j hj hdist ▸ hj)
    rw [if_pos]
    · exact staged_eq hw hn (hsole'.mono fun j hj => List.mem_append_right _ hj)
    · exact ⟨List.mem_dedup.mpr (List.mem_flatMap.mpr ⟨i, hw, hn⟩), by simp [hfree]⟩

omit [DecidableEq N] in
/-- Where the only metadata of a distribution is of the release itself there is nothing to prune. -/
theorem pruneOps_eq_nil {vol : CodeVolume D V N} {r : Release D V} (h : ∀ i ∈ vol.infos, i.dist = r.dist → i = r) :
    vol.pruneOps r = [] := by
  have hnone : (vol.infosOf r.dist).filter (·.version ≠ r.version) = [] := by
    refine List.filter_eq_nil_iff.mpr fun i hi hne => ?_
    obtain ⟨hmem, hdist⟩ := mem_infosOf.mp hi
    rw [h i hmem hdist] at hne
    simp at hne
  unfold pruneOps
  rw [hnone]
  rfl

theorem Truthful.prune {vol : CodeVolume D V N} {r : Release D V} (h : vol.Truthful tops)
    (hclean : vol.LeavesClean tops r.dist) : (vol.run tops (vol.pruneOps r)).Truthful tops :=
  h.dropInfos hclean _ fun _ hi => (mem_infosOf.mp (List.mem_filter.mp hi).1).2

/-- Pruning keeps the release itself. -/
theorem mem_prune {vol : CodeVolume D V N} {r : Release D V} (h : r ∈ vol.infos) :
    r ∈ (vol.run tops (vol.pruneOps r)).infos := by
  have hinfos := (run_drops tops (((vol.infosOf r.dist).filter (·.version ≠ r.version)).map .inr) vol).2.2 r
  rw [List.map_map] at hinfos
  exact hinfos.mpr ⟨h, by simp⟩

/-- A staged replace, start to end. -/
theorem Truthful.replace {vol : CodeVolume D V N} {r : Release D V} {p : PipInstall D V} (h : vol.Truthful tops)
    (hclean : vol.LeavesClean tops r.dist) (hwith : vol.Companions r.dist p.wheels) (hr : r ∈ p.wheels)
    (rank : N ⊕ Release D V → ℕ) :
    (vol.run tops (vol.replaceOps tops rank r p.wheels)).Truthful tops ∧
      r ∈ (vol.run tops (vol.replaceOps tops rank r p.wheels)).infos := by
  obtain ⟨-, hcleared⟩ := run_clearOps tops rank vol r.dist
  have hwith' : (vol.run tops (vol.clearOps tops rank r.dist)).Companions r.dist p.wheels :=
    fun w hw hne i hi => hwith w hw hne i ((hcleared i).mp hi).1
  obtain ⟨hmoved, hinfos⟩ := (h.clear hclean rank).move hcleared hwith'
  unfold replaceOps
  dsimp only
  have hnone : (vol.run tops (vol.clearOps tops rank r.dist ++
      moveOps tops vol (vol.run tops (vol.clearOps tops rank r.dist)) r.dist p.wheels)).pruneOps r = [] := by
    refine pruneOps_eq_nil fun i hi hdist => ?_
    rw [run_append] at hi
    rcases (hinfos i).mp hi with hi | hi
    · exact absurd hdist ((hcleared i).mp hi).2
    · exact p.single i hi r hr hdist
  rw [hnone, List.append_nil, run_append]
  exact ⟨hmoved, (hinfos r).mpr (.inr hr)⟩

/-! ### Actions -/

omit [DecidableEq N] in
theorem mem_of_isInstalled {vol : CodeVolume D V N} {r : Release D V} (h : vol.isInstalled r = true) :
    r ∈ vol.infos := by
  have hmax : vol.effective r.dist = some r.version := of_decide_eq_true h
  obtain ⟨i, hi, hversion⟩ := List.mem_map.mp (List.max?_mem hmax)
  obtain ⟨hmem, hdist⟩ := mem_infosOf.mp hi
  have heq : i = r := by
    cases i
    cases r
    simp_all
  exact heq ▸ hmem

omit [DecidableEq N] in
theorem not_mem_of_effective_none {vol : CodeVolume D V N} {d : D} (h : vol.effective d = none) :
    ∀ i ∈ vol.infos, i.dist ≠ d := by
  intro i hi hdist
  have hnil : (vol.infosOf d).map (·.version) = [] := List.max?_eq_none_iff.mp h
  have hmem := List.mem_map_of_mem (f := (·.version)) (mem_infosOf.mpr ⟨hi, hdist⟩)
  rw [hnil] at hmem
  exact List.not_mem_nil hmem

end CodeVolume

/-- A successful pip brings the release it was asked for. -/
def HostAction.PipBrings : HostAction D V → Prop
  | .ensure r (some p) => r ∈ p.wheels
  | _ => True

/-- What an action needs of the volume it finds. -/
def HostAction.Fit (tops : Release D V → List N) (vol : CodeVolume D V N) : HostAction D V → Prop
  | .find r => vol.LeavesClean tops r.dist
  | .ensure r pip => vol.LeavesClean tops r.dist ∧ ∀ p, pip = some p →
      (vol.effective r.dist = none → vol.Fits tops p.wheels) ∧
        (vol.effective r.dist ≠ none → vol.isInstalled r = false → vol.Companions r.dist p.wheels)
  | .latest _ pip => ∀ p, pip = some p → vol.Fits tops p.wheels
  | .remove d => vol.LeavesClean tops d

/-- The distribution that an action may take metadata from. -/
def HostAction.target : HostAction D V → D
  | .find r => r.dist
  | .ensure r _ => r.dist
  | .latest d _ => d
  | .remove d => d

def VolumeOp.takesMetadata : VolumeOp D V N → Bool
  | .dropInfo _ => true
  | _ => false

namespace CodeVolume

/-- What an action can do: nothing, prune beside a release it found, install, replace, or clear. -/
inductive Acts (tops : Release D V → List N) (rank : N ⊕ Release D V → ℕ) (vol : CodeVolume D V N) :
    HostAction D V → List (VolumeOp D V N) × Option (Release D V) → Prop
  | quiet (a : HostAction D V) : Acts tops rank vol a ([], none)
  | found {a : HostAction D V} {r : Release D V} (hin : vol.isInstalled r = true)
      (ha : a = .find r ∨ ∃ pip, a = .ensure r pip) : Acts tops rank vol a (vol.pruneOps r, some r)
  | install {r : Release D V} {p : PipInstall D V} (hnone : vol.effective r.dist = none) :
      Acts tops rank vol (.ensure r (some p)) (vol.installOps tops r p.wheels, some r)
  | replace {r : Release D V} {p : PipInstall D V} (hin : vol.isInstalled r = false)
      (hsome : vol.effective r.dist ≠ none) :
      Acts tops rank vol (.ensure r (some p)) (vol.replaceOps tops rank r p.wheels, some r)
  | latest {d : D} {p : PipInstall D V} :
      Acts tops rank vol (.latest d (some p)) ([.pip p.wheels], p.wheels.find? (·.dist = d))
  | remove {d : D} : Acts tops rank vol (.remove d) (vol.clearOps tops rank d, none)

theorem actionOps_acts (tops : Release D V → List N) (rank : N ⊕ Release D V → ℕ) (vol : CodeVolume D V N)
    (a : HostAction D V) : Acts tops rank vol a (vol.actionOps tops rank a) := by
  cases a with
  | find r =>
    simp only [actionOps]
    split
    · exact .found ‹_› (.inl rfl)
    · exact .quiet _
  | ensure r pip =>
    simp only [actionOps]
    split
    · exact .found ‹_› (.inr ⟨pip, rfl⟩)
    · rename_i hin
      cases pip with
      | none => exact .quiet _
      | some p =>
        dsimp only
        split
        · rename_i hpresent
          split
          · exact .quiet _
          · exact .replace (Bool.eq_false_iff.mpr hin) (Option.isSome_iff_ne_none.mp hpresent)
        · rename_i hpresent
          exact .install (Option.not_isSome_iff_eq_none.mp hpresent)
  | latest d pip =>
    cases pip with
    | none => exact .quiet _
    | some p => exact .latest
  | remove d => exact .remove

/-- An action that fits keeps the metadata truthful, and what it reports is among the metadata. -/
theorem Truthful.action {vol : CodeVolume D V N} {a : HostAction D V} (h : vol.Truthful tops) (hpip : a.PipBrings)
    (hfit : a.Fit tops vol) {out : List (VolumeOp D V N) × Option (Release D V)} (hacts : Acts tops rank vol a out) :
    (vol.run tops out.1).Truthful tops ∧ ∀ r, out.2 = some r → r ∈ (vol.run tops out.1).infos := by
  cases hacts with
  | quiet => exact ⟨h, fun r hr => by cases hr⟩
  | @found _ r hin ha =>
    have hclean : vol.LeavesClean tops r.dist := by
      obtain rfl | ⟨pip, rfl⟩ := ha
      · exact hfit
      · exact hfit.1
    refine ⟨h.prune hclean, ?_⟩
    rintro _ ⟨⟩
    exact mem_prune (mem_of_isInstalled hin)
  | @install r p hnone =>
    have hprune : (vol.run tops [.pip p.wheels]).pruneOps r = [] := by
      refine pruneOps_eq_nil fun i hi hdist => ?_
      rcases mem_infos_pip.mp hi with hi | hi
      · exact absurd hdist (not_mem_of_effective_none hnone i hi)
      · exact p.single i hi r hpip hdist
    rw [installOps, hprune]
    refine ⟨h.pip ((hfit.2 p rfl).1 hnone), ?_⟩
    rintro _ ⟨⟩
    exact mem_infos_pip.mpr (.inr hpip)
  | @replace r p hin hsome =>
    obtain ⟨htrue, hmem⟩ := h.replace hfit.1 ((hfit.2 p rfl).2 hsome hin) hpip rank
    refine ⟨htrue, ?_⟩
    rintro _ ⟨⟩
    exact hmem
  | @latest d p =>
    exact ⟨h.pip (hfit p rfl), fun r hr => mem_infos_pip.mpr (.inr (List.mem_of_find?_eq_some hr))⟩
  | remove => exact ⟨h.clear hfit rank, fun r hr => by cases hr⟩

/-! ### A boot that dies -/

omit [DecidableEq N] in
theorem dist_of_mem_pruneOps {vol : CodeVolume D V N} {r i : Release D V} (h : .dropInfo i ∈ vol.pruneOps r) :
    i.dist = r.dist := by
  obtain ⟨j, hj, heq⟩ := List.mem_map.mp h
  obtain rfl := VolumeOp.dropInfo.inj heq
  exact (mem_infosOf.mp (List.mem_filter.mp hj).1).2

omit [LinearOrder V] in
theorem dist_of_mem_clearOps {vol : CodeVolume D V N} {d : D} {i : Release D V}
    (h : .dropInfo i ∈ vol.clearOps tops rank d) : i.dist = d := by
  obtain ⟨item, hitem, heq⟩ := List.mem_map.mp h
  rw [(List.perm_insertionSort _ _).mem_iff] at hitem
  cases item with
  | inl n => cases heq
  | inr j =>
    obtain rfl := VolumeOp.dropInfo.inj heq
    simp only [List.mem_append, List.mem_map, Sum.inr.injEq, exists_eq_right, reduceCtorEq, and_false, exists_false,
      false_or] at hitem
    exact (mem_infosOf.mp hitem).2

theorem not_mem_moveOps {before vol : CodeVolume D V N} {d : D} {wheels : List (Release D V)} {i : Release D V} :
    .dropInfo i ∉ moveOps tops before vol d wheels := by
  intro h
  rcases List.mem_append.mp h with h | h
  · obtain ⟨n, -, hn⟩ := List.mem_flatMap.mp h
    split_ifs at hn
    · exact List.not_mem_nil hn
    · simp at hn
  · simp at h

/-- An action takes away metadata of its own distribution only, and where it fits it may. -/
theorem Acts.dropInfo {vol : CodeVolume D V N} {a : HostAction D V} {i : Release D V}
    {out : List (VolumeOp D V N) × Option (Release D V)} (hacts : Acts tops rank vol a out) (hfit : a.Fit tops vol)
    (h : .dropInfo i ∈ out.1) : i.dist = a.target ∧ vol.LeavesClean tops a.target := by
  cases hacts with
  | quiet => exact absurd h List.not_mem_nil
  | found hin ha =>
    obtain rfl | ⟨pip, rfl⟩ := ha
    · exact ⟨dist_of_mem_pruneOps h, hfit⟩
    · exact ⟨dist_of_mem_pruneOps h, hfit.1⟩
  | install hnone =>
    rcases List.mem_cons.mp h with h | h
    · cases h
    · exact ⟨dist_of_mem_pruneOps h, hfit.1⟩
  | replace hin hsome =>
    rcases List.mem_append.mp h with h | h
    · rcases List.mem_append.mp h with h | h
      · exact ⟨dist_of_mem_clearOps h, hfit.1⟩
      · exact absurd h not_mem_moveOps
    · exact ⟨dist_of_mem_pruneOps h, hfit.1⟩
  | latest => simp at h
  | remove => exact ⟨dist_of_mem_clearOps h, hfit⟩

omit [DecidableEq D] [LinearOrder V] [DecidableEq N] in
theorem eq_map_dropInfo (ops : List (VolumeOp D V N)) (h : ∀ op ∈ ops, op.takesMetadata = true) :
    ∃ gone : List (Release D V), ops = gone.map .dropInfo := by
  induction ops with
  | nil => exact ⟨[], rfl⟩
  | cons op ops ih =>
    obtain ⟨gone, rfl⟩ := ih fun o ho => h o (List.mem_cons_of_mem _ ho)
    have hop := h op List.mem_cons_self
    cases op with
    | dropInfo i => exact ⟨i :: gone, rfl⟩
    | drop n => cases hop
    | put n code => cases hop
    | record i => cases hop
    | pip wheels => cases hop

/-- A boot that dies having taken away nothing but metadata leaves the rest truthful. -/
theorem Truthful.dies {vol : CodeVolume D V N} {a : HostAction D V} (h : vol.Truthful tops) (hfit : a.Fit tops vol)
    {out : List (VolumeOp D V N) × Option (Release D V)} (hacts : Acts tops rank vol a out) (n : ℕ)
    (honly : ∀ op ∈ out.1.take n, op.takesMetadata = true) : (vol.run tops (out.1.take n)).Truthful tops := by
  obtain ⟨gone, hgone⟩ := eq_map_dropInfo _ honly
  have hmem : ∀ i ∈ gone, i.dist = a.target ∧ vol.LeavesClean tops a.target := by
    intro i hi
    refine hacts.dropInfo hfit (List.mem_of_mem_take (i := n) ?_)
    rw [hgone]
    exact List.mem_map_of_mem hi
  rw [hgone]
  cases gone with
  | nil => exact h
  | cons i gone => exact h.dropInfos (hmem i List.mem_cons_self).2 _ fun j hj => (hmem j hj).1

/-! ### Boots -/

/-- Each action of a boot fits the volume it finds, and a boot that dies in an action has by then taken away nothing but
    metadata. -/
def BootFits (tops : Release D V → List N) (rank : N ⊕ Release D V → ℕ) :
    Option ℕ → CodeVolume D V N → List (HostAction D V) → Prop
  | _, _, [] => True
  | dies, vol, a :: actions =>
    a.Fit tops vol ∧
      if dies.any (· < (vol.actionOps tops rank a).1.length) then
        ∀ op ∈ (vol.actionOps tops rank a).1.take (dies.getD 0), op.takesMetadata = true
      else
        BootFits tops rank (dies.map (· - (vol.actionOps tops rank a).1.length))
          (vol.run tops (vol.actionOps tops rank a).1) actions

/-- What a report says: each top-level name of the release that no other distribution claims holds its code. -/
def TellsTruth (tops : Release D V → List N) (report : InstallReport D V N) : Prop :=
  ∀ n ∈ tops report.release, Sole tops report.volume.infos report.release.dist n →
    report.volume.files n = some report.release

/-- A boot that fits keeps the metadata truthful and reports nothing untrue. -/
theorem Truthful.boot (rank : N ⊕ Release D V → ℕ) (actions : List (HostAction D V)) :
    ∀ {vol : CodeVolume D V N} (dies : Option ℕ), vol.Truthful tops → (∀ a ∈ actions, a.PipBrings) →
      BootFits tops rank dies vol actions →
      (vol.runActions tops rank dies actions).1.Truthful tops ∧
        ∀ report ∈ (vol.runActions tops rank dies actions).2, TellsTruth tops report := by
  induction actions with
  | nil => exact fun dies h _ _ => ⟨h, fun _ hr => absurd hr List.not_mem_nil⟩
  | cons a actions ih =>
    intro vol dies h hpip hfits
    obtain ⟨hfit, hrest⟩ := hfits
    have hacts := actionOps_acts tops rank vol a
    simp only [runActions]
    split_ifs at hrest ⊢
    · exact ⟨h.dies hfit hacts _ hrest, fun _ hr => absurd hr List.not_mem_nil⟩
    · obtain ⟨htrue, hmem⟩ := h.action (hpip a List.mem_cons_self) hfit hacts
      obtain ⟨hlast, hreports⟩ := ih _ htrue (fun b hb => hpip b (List.mem_cons_of_mem _ hb)) hrest
      refine ⟨hlast, fun report hr => ?_⟩
      rcases List.mem_append.mp hr with hr | hr
      · obtain ⟨r, hsome, rfl⟩ := List.mem_map.mp hr
        exact fun n hn hsole => htrue r (hmem r (Option.mem_toList.mp hsome)) n hn hsole
      · exact hreports report hr

end CodeVolume

/-- The volumes that boots lead to, with all that was reported, where pip brings what it is asked for and each boot is
    fit for the volume it finds. -/
inductive HostReached (tops : Release D V → List N) (rank : N ⊕ Release D V → ℕ)
    (fit : CodeVolume D V N → HostBoot D V → Prop) : CodeVolume D V N → List (InstallReport D V N) → Prop
  | start : HostReached tops rank fit emptyVolume []
  | boot {vol : CodeVolume D V N} {reports : List (InstallReport D V N)} (b : HostBoot D V)
      (hreached : HostReached tops rank fit vol reports) (hpip : ∀ a ∈ b.actions, a.PipBrings) (hfit : fit vol b) :
      HostReached tops rank fit (vol.reconcile tops rank b).1 (reports ++ (vol.reconcile tops rank b).2)

/-- **Installed metadata never lies about the code**, whatever the boots, as long as each fits the volume it finds:
    whenever a release is reported as installed, or skipped as installed already, each top-level name of it that no
    other distribution claims holds its code. -/
theorem installed_metadata_tells_truth (tops : Release D V → List N) (rank : N ⊕ Release D V → ℕ)
    (vol : CodeVolume D V N) (reports : List (InstallReport D V N))
    (h : HostReached tops rank (fun vol b => vol.BootFits tops rank b.dies b.actions) vol reports) :
    ∀ report ∈ reports, CodeVolume.TellsTruth tops report := by
  have hall : vol.Truthful tops ∧ ∀ report ∈ reports, CodeVolume.TellsTruth tops report := by
    induction h with
    | start => exact ⟨fun i hi => absurd hi List.not_mem_nil, fun _ hr => absurd hr List.not_mem_nil⟩
    | boot b _ hpip hfit ih =>
      obtain ⟨htrue, hreports⟩ := ih
      obtain ⟨hlast, hnew⟩ := htrue.boot rank b.actions b.dies hpip hfit
      refine ⟨hlast, fun report hr => ?_⟩
      rcases List.mem_append.mp hr with hr | hr
      · exact hreports report hr
      · exact hnew report hr
  exact hall.2

/-! ### One package in two versions -/

/-- Every release of the shop installs the one name `foo`. -/
def fooTops : Release String ℕ → List String := fun _ => ["foo"]

def fooRank : String ⊕ Release String ℕ → ℕ
  | .inl _ => 0
  | .inr r => r.version + 1

/-- What pip brings: `foo` at a version. -/
def fooPip (version : ℕ) : PipInstall String ℕ where
  wheels := [⟨"foo", version⟩]
  single _ hw _ hw' _ := (List.mem_singleton.mp hw).trans (List.mem_singleton.mp hw').symm

def fooBoot (row : PackageRow String ℕ) : HostBoot String ℕ := ⟨[row], [], [], none⟩

def fooStep (vol : CodeVolume String ℕ String) (row : PackageRow String ℕ) :
    CodeVolume String ℕ String × List (InstallReport String ℕ String) :=
  vol.reconcile fooTops fooRank (fooBoot row)

/-- `foo` at any version, first when the index has 1, then when it has 2, then pinned at 2. -/
def fooDrift : CodeVolume String ℕ String × List (InstallReport String ℕ String) :=
  fooStep (fooStep (fooStep emptyVolume (.unpinned "foo" (some (fooPip 1)))).1 (.unpinned "foo" (some (fooPip 2)))).1
    (.pinned ⟨"foo", 2⟩ none)

theorem fooDrift_reports : fooDrift.2.map (fun report => (report.release, report.volume.files "foo",
    report.volume.infos.all (·.dist = "foo"))) = [(⟨"foo", 2⟩, some ⟨"foo", 1⟩, true)] := by
  decide +kernel

/-- `foo` pinned at 1, then at 2. -/
def fooPinned : CodeVolume String ℕ String × List (InstallReport String ℕ String) :=
  fooStep (fooStep emptyVolume (.pinned ⟨"foo", 1⟩ (some (fooPip 1)))).1 (.pinned ⟨"foo", 2⟩ (some (fooPip 2)))

theorem fooPinned_reports : fooPinned.2.map (fun report => (report.release, report.volume.files "foo")) =
    [(⟨"foo", 2⟩, some ⟨"foo", 2⟩)] := by
  decide +kernel

theorem fooBoot_actions (row : PackageRow String ℕ) : (fooBoot row).actions = [row.action] := rfl

theorem fooBoot_pip (row : PackageRow String ℕ) (h : row.action.PipBrings) :
    ∀ a ∈ (fooBoot row).actions, a.PipBrings := by
  intro a ha
  rw [fooBoot_actions] at ha
  rw [List.mem_singleton.mp ha]
  exact h

/-- The volume once `foo` 1 is installed. -/
def fooFirst : CodeVolume String ℕ String := (fooStep emptyVolume (.pinned ⟨"foo", 1⟩ (some (fooPip 1)))).1

theorem fooFirst_infos : fooFirst.infos = [⟨"foo", 1⟩] := by decide +kernel

theorem fooFirst_fits : CodeVolume.BootFits fooTops fooRank none emptyVolume
    (fooBoot (.pinned ⟨"foo", 1⟩ (some (fooPip 1)))).actions := by
  refine ⟨⟨fun i hi => absurd hi List.not_mem_nil, ?_⟩, trivial⟩
  rintro _ ⟨⟩
  exact ⟨fun _ _ _ _ _ _ => .inl rfl, fun h => absurd rfl h⟩

theorem fooSecond_fits : CodeVolume.BootFits fooTops fooRank none fooFirst
    (fooBoot (.pinned ⟨"foo", 2⟩ (some (fooPip 2)))).actions := by
  have hdist : ∀ i ∈ fooFirst.infos, i.dist = "foo" := by
    rw [fooFirst_infos]
    simp
  refine ⟨⟨fun i hi hne => absurd (hdist i hi) hne, ?_⟩, trivial⟩
  rintro _ ⟨⟩
  refine ⟨fun h => absurd h (by decide +kernel), fun _ _ w hw hne => ?_⟩
  rw [List.mem_singleton.mp hw] at hne
  exact absurd rfl hne

/-- A pinned package that moves from 1 to 2 is reported at 2 with the code of 2 in place. -/
theorem installed_metadata_tells_truth_pinned :
    fooPinned.2.map (fun report => (report.release, report.volume.files "foo")) =
        [(⟨"foo", 2⟩, some ⟨"foo", 2⟩)] ∧
      ∀ report ∈ fooPinned.2, CodeVolume.TellsTruth fooTops report := by
  refine ⟨fooPinned_reports, fun report hr => ?_⟩
  have hfirst : HostReached fooTops fooRank (fun vol b => vol.BootFits fooTops fooRank b.dies b.actions) _ _ :=
    .boot _ .start (fooBoot_pip (.pinned ⟨"foo", 1⟩ (some (fooPip 1))) (List.mem_singleton.mpr rfl)) fooFirst_fits
  have hsecond := HostReached.boot _ hfirst
    (fooBoot_pip (.pinned ⟨"foo", 2⟩ (some (fooPip 2))) (List.mem_singleton.mpr rfl)) fooSecond_fits
  exact installed_metadata_tells_truth fooTops fooRank _ _ hsecond report (List.mem_append_right _ hr)

/-- A package without a version meets a newer release on the index: its metadata is written, its code is skipped, and
    the boot after that skips version 2 as installed with the code of version 1 in place. -/
theorem installed_metadata_lies :
    ¬ ∀ (tops : Release String ℕ → List String) (rank : String ⊕ Release String ℕ → ℕ)
      (vol : CodeVolume String ℕ String) (reports : List (InstallReport String ℕ String)),
      HostReached tops rank (fun _ _ => True) vol reports → ∀ report ∈ reports, CodeVolume.TellsTruth tops report := by
  intro h
  have hfirst : HostReached fooTops fooRank (fun _ _ => True) _ _ :=
    .boot _ .start (fooBoot_pip (.unpinned "foo" (some (fooPip 1))) trivial) trivial
  have hsecond := HostReached.boot _ hfirst (fooBoot_pip (.unpinned "foo" (some (fooPip 2))) trivial) trivial
  have hthird := HostReached.boot _ hsecond (fooBoot_pip (.pinned ⟨"foo", 2⟩ none) trivial) trivial
  have hall : ∀ report ∈ fooDrift.2, CodeVolume.TellsTruth fooTops report :=
    fun report hr => h fooTops fooRank _ _ hthird report (List.mem_append_right _ hr)
  have hmem : (⟨"foo", 2⟩, some ⟨"foo", 1⟩, true) ∈ fooDrift.2.map (fun report => (report.release,
      report.volume.files "foo", report.volume.infos.all (·.dist = "foo"))) := by
    rw [fooDrift_reports]
    exact List.mem_singleton.mpr rfl
  obtain ⟨report, hr, heq⟩ := List.mem_map.mp hmem
  simp only [Prod.mk.injEq, List.all_eq_true, decide_eq_true_eq] at heq
  obtain ⟨hrelease, hfile, hinfos⟩ := heq
  have htruth := hall report hr "foo" (List.mem_singleton.mpr rfl) fun j hj _ => by rw [hinfos j hj, hrelease]
  rw [hfile, hrelease] at htruth
  cases htruth

end Gdx
