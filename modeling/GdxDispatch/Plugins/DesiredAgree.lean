import GdxDispatch.Plugins.Reconcile
import GdxDispatch.Plugins.RemovalHarmless

/-! Whether the reconciled volume holds what the staleness check wants.

    The last artifact of a distribution is the last assignment of its desired version, and installing it leaves nothing else.
    Of a distribution without artifacts the dict keeps the last version a row pins, but a row that pins none still has pip
    bring what is newest, and what runs is the highest. So the two agree exactly where no such row, after the last pinned
    one, brings a version above it. -/

namespace Gdx
namespace HostRuntime
open Lib

variable {V : Type} [LinearOrder V] {rt : HostRuntime V} {vol : List DistInfo} {pip : Pip} {K : Text}

/-! ### Versions -/

theorem versionsEqual_of_parse {a b : Text} {x : V} (h : rt.parse a = some x) :
    rt.versionsEqual a b = true ↔ rt.parse b = some x := by
  unfold versionsEqual
  cases hb : rt.parse b with
  | none =>
    rw [h]
    simp only [decide_eq_true_eq, reduceCtorEq, iff_false]
    rintro rfl
    rw [h] at hb
    cases hb
  | some y =>
    rw [h]
    simp only [decide_eq_true_eq, Option.some.injEq]
    exact eq_comm

theorem versionsEqual_of_none {a b : Text} (h : rt.parse a = none) : rt.versionsEqual a b = true ↔ a = b := by
  unfold versionsEqual
  rw [h]
  exact decide_eq_true_iff

theorem versionsEqual_refl (a : Text) : rt.versionsEqual a a = true := by
  cases h : rt.parse a with
  | none => exact (versionsEqual_of_none h).mpr rfl
  | some x => exact (versionsEqual_of_parse h).mpr h

theorem versionsEqual_symm {a b : Text} (h : rt.versionsEqual a b = true) : rt.versionsEqual b a = true := by
  cases ha : rt.parse a with
  | none =>
    obtain rfl := (versionsEqual_of_none ha).mp h
    exact versionsEqual_refl a
  | some x => exact (versionsEqual_of_parse ((versionsEqual_of_parse ha).mp h)).mpr ha

theorem parse_congr {a b : Text} (h : rt.versionsEqual a b = true) : rt.parse a = rt.parse b := by
  cases ha : rt.parse a with
  | none => rw [← (versionsEqual_of_none ha).mp h, ha]
  | some x => rw [(versionsEqual_of_parse ha).mp h]

theorem versionsEqual_trans {a b c : Text} (h : rt.versionsEqual a b = true) (h' : rt.versionsEqual b c = true) :
    rt.versionsEqual a c = true := by
  cases ha : rt.parse a with
  | none => rwa [(versionsEqual_of_none ha).mp h]
  | some x =>
    rw [versionsEqual_of_parse ha, ← parse_congr h', ← parse_congr h, ha]

/-! ### The highest version -/

/-- The first of the greatest is as great as any, by what the comparison compares. -/
theorem maxBy_greatest {α β : Type} [LinearOrder β] {score : α → β} {lt : α → α → Bool} {P : α → Prop}
    (hlt : ∀ a b, P a → P b → lt a b = decide (score a < score b)) {xs : List α} (hxs : ∀ x ∈ xs, P x) {m : α}
    (h : maxBy lt xs = some m) : ∀ x ∈ xs, score x ≤ score m := by
  cases xs with
  | nil => cases h
  | cons x xs =>
    obtain rfl := Option.some.inj h
    have hfold : ∀ (ys : List α) (b : α), P b → (∀ y ∈ ys, P y) →
        score b ≤ score (ys.foldl (fun best y => if lt best y then y else best) b) ∧
          ∀ y ∈ ys, score y ≤ score (ys.foldl (fun best y => if lt best y then y else best) b) := by
      intro ys
      induction ys with
      | nil => exact fun b _ _ => ⟨le_rfl, by simp⟩
      | cons y ys ih =>
        intro b hb hys
        have hy := hys y List.mem_cons_self
        have hrest : ∀ z ∈ ys, P z := fun z hz => hys z (List.mem_cons_of_mem _ hz)
        rw [List.foldl_cons, hlt b y hb hy]
        by_cases hby : score b < score y
        · simp only [hby, decide_true, if_true]
          obtain ⟨hbest, hall⟩ := ih y hy hrest
          exact ⟨hby.le.trans hbest, fun z hz => (List.mem_cons.mp hz).elim (fun heq => heq ▸ hbest) (hall z)⟩
        · simp only [hby, decide_false, Bool.false_eq_true, if_false]
          obtain ⟨hbest, hall⟩ := ih b hb hrest
          refine ⟨hbest, fun z hz => ?_⟩
          rcases List.mem_cons.mp hz with rfl | hz
          · exact (not_lt.mp hby).trans hbest
          · exact hall z hz
    obtain ⟨hbest, hall⟩ := hfold xs x (hxs x List.mem_cons_self) fun z hz => hxs z (List.mem_cons_of_mem _ hz)
    intro y hy
    rcases List.mem_cons.mp hy with rfl | hy
    · exact hbest
    · exact hall y hy

theorem maxBy_isSome {α : Type} {lt : α → α → Bool} {xs : List α} (h : xs ≠ []) : ∃ m, maxBy lt xs = some m := by
  cases xs with
  | nil => exact absurd rfl h
  | cons x xs => exact ⟨_, rfl⟩

theorem highest_mem {versions : List Text} {top : Text} (h : rt.highest versions = some top) : top ∈ versions := by
  unfold highest at h
  split_ifs at h <;> exact maxBy_mem h

theorem highest_isSome {versions : List Text} (h : versions ≠ []) : ∃ top, rt.highest versions = some top := by
  unfold highest
  split_ifs <;> exact maxBy_isSome h

/-- Where all are one version, so is the highest. -/
theorem highest_uniform {versions : List Text} {want : Text} (hne : versions ≠ [])
    (hall : ∀ v ∈ versions, rt.versionsEqual v want = true) :
    ∃ top, rt.highest versions = some top ∧ rt.versionsEqual top want = true := by
  obtain ⟨top, htop⟩ : ∃ top, rt.highest versions = some top := highest_isSome hne
  exact ⟨top, htop, hall top (highest_mem htop)⟩

/-- The version that a plugin whose versions all parse runs. -/
def parsed (rt : HostRuntime V) (v : Text) : WithBot V := (rt.parse v).elim ⊥ (↑)

omit [LinearOrder V] in
theorem parsed_some {v : Text} {x : V} (h : rt.parse v = some x) : rt.parsed v = x := by
  rw [parsed, h]
  rfl

/-- The highest version is the wanted one. -/
def Tops (rt : HostRuntime V) (versions : List Text) (want : Text) : Prop :=
  ∃ top, rt.highest versions = some top ∧ rt.versionsEqual top want = true

theorem tops_parsed {versions : List Text} (h : ∀ v ∈ versions, (rt.parse v).isSome = true) {want : Text} :
    rt.Tops versions want ↔
      ∃ top ∈ versions, rt.versionsEqual top want = true ∧ ∀ v ∈ versions, rt.parsed v ≤ rt.parsed top := by
  have hgreatest : ∀ top, rt.highest versions = some top → ∀ v ∈ versions, rt.parsed v ≤ rt.parsed top := by
    intro top htop
    rw [highest, if_pos (List.all_eq_true.mpr h)] at htop
    refine maxBy_greatest (fun a b ha hb => ?_) h htop
    obtain ⟨x, hx⟩ := Option.isSome_iff_exists.mp ha
    obtain ⟨y, hy⟩ := Option.isSome_iff_exists.mp hb
    rw [parsed_some hx, parsed_some hy, hx, hy]
    simp
  constructor
  · rintro ⟨top, htop, hwant⟩
    exact ⟨top, highest_mem htop, hwant, hgreatest top htop⟩
  · rintro ⟨v, hv, hwant, hall⟩
    obtain ⟨top, htop⟩ : ∃ top, rt.highest versions = some top := highest_isSome (List.ne_nil_of_mem hv)
    refine ⟨top, htop, versionsEqual_trans ?_ hwant⟩
    have hsame : rt.parsed top = rt.parsed v :=
      le_antisymm (hall top (highest_mem htop)) (hgreatest top htop v hv)
    obtain ⟨x, hx⟩ := Option.isSome_iff_exists.mp (h v hv)
    obtain ⟨y, hy⟩ := Option.isSome_iff_exists.mp (h top (highest_mem htop))
    rw [parsed_some hx, parsed_some hy, WithBot.coe_inj] at hsame
    rw [versionsEqual_of_parse hy, hx, hsame]

theorem tops_unparsed {versions : List Text} {v : Text} (hv : v ∈ versions) (hnone : rt.parse v = none) {want : Text} :
    rt.Tops versions want ↔ ∃ top ∈ versions, rt.versionsEqual top want = true ∧ ∀ v ∈ versions, v ≤ top := by
  have hnot : ¬ (versions.all fun v => (rt.parse v).isSome) = true := by
    rw [List.all_eq_true]
    intro hall
    have := hall v hv
    rw [hnone] at this
    cases this
  have hgreatest : ∀ top, rt.highest versions = some top → ∀ v ∈ versions, v ≤ top := by
    intro top htop
    rw [highest, if_neg hnot] at htop
    exact maxBy_greatest (P := fun _ => True) (by intro a b _ _; exact decide_eq_decide.mpr Iff.rfl)
      (fun _ _ => trivial) htop
  constructor
  · rintro ⟨top, htop, hwant⟩
    exact ⟨top, highest_mem htop, hwant, hgreatest top htop⟩
  · rintro ⟨w, hw, hwant, hall⟩
    obtain ⟨top, htop⟩ : ∃ top, rt.highest versions = some top := highest_isSome (List.ne_nil_of_mem hw)
    rw [le_antisymm (hall top (highest_mem htop)) (hgreatest top htop w hw)] at htop
    exact ⟨w, htop, hwant⟩

/-- Copies of one version in front of versions that parse count as that version once. -/
theorem tops_congr {copies others : List Text} {v want : Text} (hne : copies ≠ [])
    (hcopies : ∀ c ∈ copies, rt.versionsEqual c v = true) (hothers : ∀ w ∈ others, (rt.parse w).isSome = true) :
    rt.Tops (copies ++ others) want ↔ rt.Tops (v :: others) want := by
  obtain ⟨c, hc⟩ := List.exists_mem_of_ne_nil copies hne
  cases hv : rt.parse v with
  | none =>
    -- The copies are then the version's own text.
    have hsame : ∀ c ∈ copies, c = v := fun c hc => ((versionsEqual_of_none hv).mp (versionsEqual_symm (hcopies c hc))).symm
    have hmem : ∀ w, w ∈ copies ++ others ↔ w ∈ v :: others := by
      intro w
      rw [List.mem_append, List.mem_cons]
      refine or_congr_left ⟨hsame w, fun h => ?_⟩
      rw [h, ← hsame c hc]
      exact hc
    rw [tops_unparsed ((hmem v).mpr List.mem_cons_self) hv, tops_unparsed List.mem_cons_self hv]
    simp only [hmem]
  | some x =>
    have hparse : ∀ c ∈ copies, rt.parse c = some x := fun c hc => (parse_congr (hcopies c hc)).trans hv
    have hparsed : ∀ c ∈ copies, rt.parsed c = rt.parsed v := fun c hc => by rw [parsed, parsed, hparse c hc, hv]
    have hleft : ∀ w ∈ copies ++ others, (rt.parse w).isSome = true := by
      intro w hw
      rcases List.mem_append.mp hw with hw | hw
      · rw [hparse w hw]
        rfl
      · exact hothers w hw
    have hright : ∀ w ∈ v :: others, (rt.parse w).isSome = true := by
      intro w hw
      rcases List.mem_cons.mp hw with rfl | hw
      · rw [hv]
        rfl
      · exact hothers w hw
    rw [tops_parsed hleft, tops_parsed hright]
    have hbound : ∀ top, (∀ w ∈ copies ++ others, rt.parsed w ≤ top) ↔ ∀ w ∈ v :: others, rt.parsed w ≤ top := by
      intro top
      rw [List.forall_mem_append, List.forall_mem_cons]
      refine and_congr_left fun _ => ⟨fun h => hparsed c hc ▸ h c hc, fun h w hw => (hparsed w hw).symm ▸ h⟩
    simp only [hbound]
    constructor
    · rintro ⟨top, htop, hwant, hall⟩
      rcases List.mem_append.mp htop with hmem | hmem
      · refine ⟨v, List.mem_cons_self, versionsEqual_trans (versionsEqual_symm (hcopies top hmem)) hwant, ?_⟩
        rwa [← hparsed top hmem]
      · exact ⟨top, List.mem_cons_of_mem _ hmem, hwant, hall⟩
    · rintro ⟨top, htop, hwant, hall⟩
      rcases List.mem_cons.mp htop with rfl | hmem
      · refine ⟨c, List.mem_append_left _ hc, versionsEqual_trans (hcopies c hc) hwant, ?_⟩
        rwa [hparsed c hc]
      · exact ⟨top, List.mem_append_right _ hmem, hwant, hall⟩

/-! ### One distribution of the volume -/

omit [LinearOrder V] in
theorem versionsAt_append (vol : List DistInfo) (info : DistInfo) (K : Text) :
    rt.versionsAt (vol ++ [info]) K = rt.versionsAt vol K ++ if rt.canon info.1 = K then [info.2] else [] := by
  unfold versionsAt
  rw [List.filter_append, List.map_append]
  by_cases h : rt.canon info.1 = K <;> simp [h]

omit [LinearOrder V] in
theorem versionsAt_filter {p : DistInfo → Bool} {K : Text} (h : ∀ info, rt.canon info.1 = K → p info = true)
    (vol : List DistInfo) : rt.versionsAt (vol.filter p) K = rt.versionsAt vol K := by
  unfold versionsAt
  rw [List.filter_filter]
  congr 1
  refine List.filter_congr fun info _ => ?_
  by_cases hK : rt.canon info.1 = K <;> simp [hK, h info]

theorem versionsAt_prune (vol : List DistInfo) (distribution keep K : Text) :
    rt.versionsAt (rt.pruneOtherVersions vol distribution keep) K =
      if rt.canon distribution = K then (rt.versionsAt vol K).filter (rt.versionsEqual · keep) else rt.versionsAt vol K := by
  split_ifs with h
  · unfold versionsAt pruneOtherVersions
    rw [List.filter_filter, List.filter_map, List.filter_filter]
    congr 1
    refine List.filter_congr fun info _ => ?_
    by_cases hK : rt.canon info.1 = K
    · simp [hK, h]
    · simp [hK]
  · exact versionsAt_filter (fun info hK => by simp [hK, Ne.symm h]) vol

omit [LinearOrder V] in
theorem versionsAt_others (vol : List DistInfo) (distribution K : Text) :
    rt.versionsAt (vol.filter fun info => rt.canon info.1 ≠ rt.canon distribution) K =
      if rt.canon distribution = K then [] else rt.versionsAt vol K := by
  split_ifs with h
  · unfold versionsAt
    rw [List.filter_filter, List.map_eq_nil_iff, List.filter_eq_nil_iff]
    intro info _
    rw [h]
    simp
  · exact versionsAt_filter (fun info hK => by simp [hK, Ne.symm h]) vol

/-- All there is of a distribution is one version. -/
def Only (rt : HostRuntime V) (vol : List DistInfo) (K version : Text) : Prop :=
  rt.versionsAt vol K ≠ [] ∧ ∀ v ∈ rt.versionsAt vol K, rt.versionsEqual v version = true

/-- Pruning where the version is there leaves nothing else. -/
theorem only_prune {distribution version : Text}
    (h : ∃ v ∈ rt.versionsAt vol (rt.canon distribution), rt.versionsEqual v version = true) :
    rt.Only (rt.pruneOtherVersions vol distribution version) (rt.canon distribution) version := by
  unfold Only
  rw [versionsAt_prune, if_pos rfl]
  obtain ⟨v, hv, heq⟩ := h
  exact ⟨List.ne_nil_of_mem (List.mem_filter.mpr ⟨hv, heq⟩), fun w hw => (List.mem_filter.mp hw).2⟩

/-- A version that landed is alone, whatever was there. -/
theorem landVersion_only {distribution version : Text} {brought : DistInfo}
    (hname : rt.canon brought.1 = rt.canon distribution) (hversion : rt.versionsEqual brought.2 version = true) :
    rt.Only (rt.landVersion vol distribution version brought) (rt.canon distribution) version := by
  have hinstalled : rt.Only (rt.pruneOtherVersions (vol ++ [brought]) distribution version) (rt.canon distribution) version := by
    refine only_prune ⟨brought.2, ?_, hversion⟩
    rw [versionsAt_append, if_pos hname]
    exact List.mem_append_right _ List.mem_cons_self
  have hreplaced : rt.Only (rt.installReplacing vol distribution version brought) (rt.canon distribution) version := by
    refine only_prune ⟨brought.2, ?_, hversion⟩
    rw [versionsAt_append, if_pos hname]
    exact List.mem_append_right _ List.mem_cons_self
  unfold landVersion
  split_ifs with hthere
  · obtain ⟨running, hrunning, heq⟩ := (Option.any_eq_true _ _).mp hthere
    exact only_prune ⟨running, highest_mem hrunning, heq⟩
  · split
    · split_ifs
      · exact hreplaced
      · exact hinstalled
    · exact hinstalled

theorem landVersion_other {distribution version : Text} {brought : DistInfo}
    (hname : rt.canon brought.1 = rt.canon distribution) (h : rt.canon distribution ≠ K) :
    rt.versionsAt (rt.landVersion vol distribution version brought) K = rt.versionsAt vol K := by
  have hbrought : ¬ rt.canon brought.1 = K := hname ▸ h
  have hinstalled : rt.versionsAt (rt.pruneOtherVersions (vol ++ [brought]) distribution version) K = rt.versionsAt vol K := by
    rw [versionsAt_prune, if_neg h, versionsAt_append, if_neg hbrought, List.append_nil]
  have hreplaced : rt.versionsAt (rt.installReplacing vol distribution version brought) K = rt.versionsAt vol K := by
    rw [installReplacing, versionsAt_prune, if_neg h, versionsAt_append, if_neg hbrought, List.append_nil, versionsAt_others,
      if_neg h]
  unfold landVersion
  split_ifs
  · rw [versionsAt_prune, if_neg h]
  · split
    · split_ifs
      · exact hreplaced
      · exact hinstalled
    · exact hinstalled

/-! ### Rows and pip -/

/-- A bare package name: no file and no specification. -/
def BareName (rt : HostRuntime V) (package : Text) : Prop :=
  rt.looksLikeArtifactFilename package = false ∧ rt.specDistribution package = some package

instance (rt : HostRuntime V) (package : Text) : Decidable (rt.BareName package) := inferInstanceAs (Decidable (_ ∧ _))

/-- Every pip call brings the distribution and the version it was given; what it chooses by itself has a version that
    parses. A file that names no distribution stands for one called like the file. -/
structure Exact (rt : HostRuntime V) (pip : Pip) : Prop where
  package_named : ∀ package version, rt.canon (pip.package package version).1 = rt.canon package
  package_version : ∀ package version, rt.versionsEqual (pip.package package (some version)).2 version = true
  package_parses : ∀ package, (rt.parse (pip.package package none).2).isSome = true
  artifact_named : ∀ filename, rt.canon (pip.artifact filename).1 = rt.artifactCanon filename
  artifact_version : ∀ filename dist version, rt.artifactNameVersion filename = some (dist, version) →
    rt.versionsEqual (pip.artifact filename).2 version = true
  artifact_parses : ∀ filename, rt.artifactNameVersion filename = none →
    (rt.parse (pip.artifact filename).2).isSome = true

/-- The rows of one distribution. -/
def rowsOf (rt : HostRuntime V) (rows : List RegistryRow) (K : Text) : List RegistryRow :=
  rows.filter fun row => rt.canon row.package = K

/-- The version that the last of the rows with one pins. -/
def lastPinned (rows : List RegistryRow) : Option Text := (rows.filterMap RegistryRow.pinned).getLast?

/-- What pip brings for the rows without a version after it. -/
def broughtAfter (pip : Pip) (rows : List RegistryRow) : List Text :=
  ((rows.reverse.takeWhile fun row => row.pinned.isNone).reverse).map fun row => (pip.package row.package none).2

theorem lastPinned_concat (rows : List RegistryRow) (row : RegistryRow) :
    lastPinned (rows ++ [row]) = row.pinned.or (lastPinned rows) := by
  unfold lastPinned
  rw [List.filterMap_append, List.filterMap_cons]
  cases row.pinned with
  | none => simp
  | some version => simp

theorem broughtAfter_concat (rows : List RegistryRow) (row : RegistryRow) :
    broughtAfter pip (rows ++ [row]) =
      if row.pinned = none then broughtAfter pip rows ++ [(pip.package row.package none).2] else [] := by
  unfold broughtAfter
  rw [List.reverse_append]
  cases h : row.pinned with
  | none => simp [h]
  | some version => simp [h]

/-- What the rows leave of a distribution: the last pinned version, or what was there, and what pip brings after it. -/
structure RowsLeave (rt : HostRuntime V) (pip : Pip) (vol : List DistInfo) (rows : List RegistryRow) (K : Text)
    (left : List Text) : Prop where
  unpinned : lastPinned (rt.rowsOf rows K) = none → left = rt.versionsAt vol K ++ broughtAfter pip (rt.rowsOf rows K)
  pinned : ∀ version, lastPinned (rt.rowsOf rows K) = some version → ∃ copies, copies ≠ [] ∧
    (∀ c ∈ copies, rt.versionsEqual c version = true) ∧ left = copies ++ broughtAfter pip (rt.rowsOf rows K)

/-- One row keeps that, of every distribution. -/
theorem RowsLeave.step {rows : List RegistryRow} {now : List DistInfo} (hpip : rt.Exact pip)
    (h : rt.RowsLeave pip vol rows K (rt.versionsAt now K)) {row : RegistryRow} (hbare : rt.BareName row.package) :
    rt.RowsLeave pip vol (rows ++ [row]) K (rt.versionsAt (rt.reconcileRow pip now row) K) := by
  have hnone : row.pinned = none → rt.reconcileRow pip now row = now ++ [pip.package row.package none] := by
    intro hpinned
    rw [reconcileRow, hbare.1, hpinned]
    rfl
  have hsome : ∀ version, row.pinned = some version →
      rt.reconcileRow pip now row = rt.landVersion now row.package version (pip.package row.package (some version)) := by
    intro version hpinned
    rw [reconcileRow, hbare.1, hpinned]
    rfl
  by_cases hK : rt.canon row.package = K
  · have hrows : rt.rowsOf (rows ++ [row]) K = rt.rowsOf rows K ++ [row] := by simp [rowsOf, hK]
    cases hpinned : row.pinned with
    | none =>
      have hnamed : rt.canon (pip.package row.package none).1 = K := (hpip.package_named _ _).trans hK
      have hversions : rt.versionsAt (now ++ [pip.package row.package none]) K =
          rt.versionsAt now K ++ [(pip.package row.package none).2] := by rw [versionsAt_append, if_pos hnamed]
      rw [hnone hpinned]
      simp only [hversions]
      constructor
      · intro hlast
        rw [hrows, lastPinned_concat, hpinned, Option.none_or] at hlast
        rw [hrows, broughtAfter_concat, if_pos hpinned, h.unpinned hlast, List.append_assoc]
      · intro version hlast
        rw [hrows, lastPinned_concat, hpinned, Option.none_or] at hlast
        obtain ⟨copies, hne, hcopies, hleft⟩ := h.pinned version hlast
        exact ⟨copies, hne, hcopies, by rw [hrows, broughtAfter_concat, if_pos hpinned, hleft, List.append_assoc]⟩
    | some version =>
      have hlast : lastPinned (rt.rowsOf (rows ++ [row]) K) = some version := by
        rw [hrows, lastPinned_concat, hpinned, Option.some_or]
      rw [hsome version hpinned]
      constructor
      · intro hunpinned
        rw [hlast] at hunpinned
        cases hunpinned
      · intro version' hsame
        rw [hlast, Option.some.injEq] at hsame
        subst hsame
        have honly : rt.Only (rt.landVersion now row.package version (pip.package row.package (some version))) _ version :=
          landVersion_only (hpip.package_named row.package (some version)) (hpip.package_version row.package version)
        rw [hK] at honly
        refine ⟨_, honly.1, honly.2, ?_⟩
        rw [hrows, broughtAfter_concat, if_neg (by rw [hpinned]; simp), List.append_nil]
  · have hrows : rt.rowsOf (rows ++ [row]) K = rt.rowsOf rows K := by simp [rowsOf, hK]
    have hsame : rt.versionsAt (rt.reconcileRow pip now row) K = rt.versionsAt now K := by
      cases hpinned : row.pinned with
      | none =>
        have hnamed : ¬ rt.canon (pip.package row.package none).1 = K := by rwa [hpip.package_named]
        rw [hnone hpinned]
        simp only [versionsAt_append, if_neg hnamed, List.append_nil]
      | some version =>
        rw [hsome version hpinned]
        exact landVersion_other (hpip.package_named _ _) hK
    rw [hsame]
    exact ⟨by rw [hrows]; exact h.unpinned, by rw [hrows]; exact h.pinned⟩

theorem rowsLeave_foldl (hpip : rt.Exact pip) (rows : List RegistryRow) (hbare : ∀ row ∈ rows, rt.BareName row.package)
    (vol : List DistInfo) (K : Text) :
    rt.RowsLeave pip vol rows K (rt.versionsAt (rows.foldl (rt.reconcileRow pip) vol) K) := by
  induction rows using List.reverseRecOn with
  | nil => exact ⟨fun _ => by simp [broughtAfter, rowsOf], fun _ h => by cases h⟩
  | append_singleton rows row ih =>
    rw [List.foldl_append]
    exact (ih fun r hr => hbare r (List.mem_append_left _ hr)).step hpip
      (hbare row (List.mem_append_right _ List.mem_cons_self))

/-! ### Artifacts -/

/-- What the registry's rows leave of a distribution: the last version pinned, or else what was there, and what pip brings
    after it. -/
def rowsLeft (rt : HostRuntime V) (pip : Pip) (vol : List DistInfo) (rows : List RegistryRow) (K : Text) : List Text :=
  (lastPinned (rt.rowsOf rows K)).elim (rt.versionsAt vol K) (fun version => [version]) ++
    broughtAfter pip (rt.rowsOf rows K)

/-- The newest artifact's file names a version. -/
def NewestNamed (rt : HostRuntime V) (uploads : List Text) (K : Text) : Prop :=
  ∃ filename dist version, rt.newestFor uploads K = some filename ∧ rt.artifactNameVersion filename = some (dist, version)

/-- What pip brings for a newest artifact whose file names no version. -/
def namelessBrought (rt : HostRuntime V) (pip : Pip) (uploads : List Text) (K : Text) : List Text :=
  ((rt.newestFor uploads K).filter fun filename => (rt.artifactNameVersion filename).isNone).toList.map
    fun filename => (pip.artifact filename).2

theorem broughtAfter_parses (hpip : rt.Exact pip) (rows : List RegistryRow) :
    ∀ v ∈ broughtAfter pip rows, (rt.parse v).isSome = true := by
  intro v hv
  obtain ⟨row, -, rfl⟩ := List.mem_map.mp hv
  exact hpip.package_parses _

/-- The highest version after the rows is read off what they leave. -/
theorem RowsLeave.tops {rows : List RegistryRow} {left extra : List Text} (hpip : rt.Exact pip)
    (h : rt.RowsLeave pip vol rows K left) (hextra : ∀ v ∈ extra, (rt.parse v).isSome = true) {want : Text} :
    rt.Tops (left ++ extra) want ↔ rt.Tops (rt.rowsLeft pip vol rows K ++ extra) want := by
  unfold rowsLeft
  cases hlast : lastPinned (rt.rowsOf rows K) with
  | none => rw [h.unpinned hlast, Option.elim_none]
  | some version =>
    obtain ⟨copies, hne, hcopies, hleft⟩ := h.pinned version hlast
    rw [hleft, Option.elim_some, List.append_assoc, List.append_assoc, List.singleton_append]
    refine tops_congr hne hcopies fun v hv => ?_
    rcases List.mem_append.mp hv with hv | hv
    · exact broughtAfter_parses hpip _ v hv
    · exact hextra v hv

theorem newestFor_mem {uploads : List Text} {filename : Text} (h : rt.newestFor uploads K = some filename) :
    filename ∈ uploads ∧ rt.artifactCanon filename = K := by
  obtain ⟨hmem, hcanon⟩ := List.mem_filter.mp (List.mem_of_getLast? h)
  exact ⟨(List.perm_insertionSort _ _).mem_iff.mp hmem, of_decide_eq_true hcanon⟩

theorem installArtifact_other (hpip : rt.Exact pip) {filename : Text} (hstored : rt.safeArtifactName filename = some filename)
    (h : rt.artifactCanon filename ≠ K) : rt.versionsAt (rt.installArtifact pip vol filename) K = rt.versionsAt vol K := by
  have hnamed := hpip.artifact_named filename
  unfold installArtifact
  rw [hstored]
  unfold artifactCanon at h hnamed
  cases hparts : rt.artifactNameVersion filename with
  | none =>
    simp only [hparts] at h hnamed ⊢
    rw [versionsAt_append, if_neg (hnamed ▸ h), List.append_nil]
  | some parts =>
    simp only [hparts] at h hnamed ⊢
    exact landVersion_other hnamed h

theorem installArtifacts_other (hpip : rt.Exact pip) {files : List Text}
    (hstored : ∀ f ∈ files, rt.safeArtifactName f = some f) (h : ∀ f ∈ files, rt.artifactCanon f ≠ K) (vol : List DistInfo) :
    rt.versionsAt (files.foldl (rt.installArtifact pip) vol) K = rt.versionsAt vol K := by
  induction files generalizing vol with
  | nil => rfl
  | cons f files ih =>
    rw [List.foldl_cons, ih (fun g hg => hstored g (List.mem_cons_of_mem _ hg)) fun g hg => h g (List.mem_cons_of_mem _ hg)]
    exact installArtifact_other hpip (hstored f List.mem_cons_self) (h f List.mem_cons_self)

/-- Of the files that are installed one is a distribution's. -/
theorem newestArtifacts_split {uploads : List Text} {filename : Text} (h : rt.newestFor uploads K = some filename) :
    ∃ before after, rt.newestArtifacts uploads = before ++ filename :: after ∧
      (∀ f ∈ before, f ∈ uploads ∧ rt.artifactCanon f ≠ K) ∧ ∀ f ∈ after, f ∈ uploads ∧ rt.artifactCanon f ≠ K := by
  have hkey : K ∈ ((rt.desiredArtifacts uploads).map rt.artifactCanon).dedup := by
    obtain ⟨hmem, hcanon⟩ := List.mem_filter.mp (List.mem_of_getLast? h)
    rw [List.mem_dedup]
    exact List.mem_map.mpr ⟨filename, hmem, of_decide_eq_true hcanon⟩
  have hnodup := List.nodup_dedup ((rt.desiredArtifacts uploads).map rt.artifactCanon)
  obtain ⟨before, after, hsplit⟩ := List.append_of_mem hkey
  rw [hsplit, List.nodup_middle, List.nodup_cons, List.mem_append, not_or] at hnodup
  have hother : ∀ keys : List Text, K ∉ keys → ∀ f ∈ keys.filterMap (rt.newestFor uploads),
      f ∈ uploads ∧ rt.artifactCanon f ≠ K := by
    intro keys hkeys f hf
    obtain ⟨key, hkey, hnewest⟩ := List.mem_filterMap.mp hf
    obtain ⟨hmem, hcanon⟩ := newestFor_mem hnewest
    exact ⟨hmem, fun heq => hkeys (heq ▸ hcanon.symm ▸ hkey)⟩
  refine ⟨before.filterMap (rt.newestFor uploads), after.filterMap (rt.newestFor uploads), ?_, hother _ hnodup.1.1,
    hother _ hnodup.1.2⟩
  rw [newestArtifacts, hsplit, List.filterMap_append, List.filterMap_cons, h]

/-- Without an artifact of its own, a distribution is left as it was. -/
theorem newestArtifacts_none {uploads : List Text} (h : rt.newestFor uploads K = none) :
    ∀ f ∈ rt.newestArtifacts uploads, f ∈ uploads ∧ rt.artifactCanon f ≠ K := by
  intro f hf
  obtain ⟨key, -, hnewest⟩ := List.mem_filterMap.mp hf
  obtain ⟨hmem, hcanon⟩ := newestFor_mem hnewest
  refine ⟨hmem, fun heq => ?_⟩
  rw [heq] at hcanon
  rw [← hcanon, h] at hnewest
  cases hnewest

/-- What the artifacts make of a distribution: its newest one's version alone, or what a file without a version adds. -/
theorem afterArtifacts (hpip : rt.Exact pip) {uploads : List Text} (hstored : ∀ f ∈ uploads, rt.safeArtifactName f = some f)
    (vol : List DistInfo) (K : Text) :
    (∀ filename dist version, rt.newestFor uploads K = some filename →
        rt.artifactNameVersion filename = some (dist, version) →
        rt.Only ((rt.newestArtifacts uploads).foldl (rt.installArtifact pip) vol) K version) ∧
      (¬ rt.NewestNamed uploads K → rt.versionsAt ((rt.newestArtifacts uploads).foldl (rt.installArtifact pip) vol) K =
        rt.versionsAt vol K ++ rt.namelessBrought pip uploads K) := by
  cases hnewest : rt.newestFor uploads K with
  | none =>
    have hother := newestArtifacts_none hnewest
    refine ⟨(fun _ _ _ h => nomatch h), fun _ => ?_⟩
    rw [installArtifacts_other hpip (fun f hf => hstored f (hother f hf).1) (fun f hf => (hother f hf).2), namelessBrought,
      hnewest]
    simp
  | some filename =>
    obtain ⟨before, after, hsplit, hbefore, hafter⟩ := newestArtifacts_split hnewest
    obtain ⟨hmem, hcanon⟩ := newestFor_mem hnewest
    have hnamed := hpip.artifact_named filename
    have hlast : ∀ vol, rt.versionsAt ((rt.newestArtifacts uploads).foldl (rt.installArtifact pip) vol) K =
        rt.versionsAt (rt.installArtifact pip (before.foldl (rt.installArtifact pip) vol) filename) K := by
      intro vol
      rw [hsplit, List.foldl_append, List.foldl_cons]
      exact installArtifacts_other hpip (fun f hf => hstored f (hafter f hf).1) (fun f hf => (hafter f hf).2) _
    constructor
    · intro filename' dist version hsome hparts
      cases hsome
      have hinstall : rt.installArtifact pip (before.foldl (rt.installArtifact pip) vol) filename =
          rt.landVersion (before.foldl (rt.installArtifact pip) vol) dist version (pip.artifact filename) := by
        rw [installArtifact, hstored filename hmem]
        simp only [hparts]
      have hdist : rt.canon dist = K := by
        rw [artifactCanon, hparts] at hcanon
        exact hcanon
      unfold Only
      rw [hlast, hinstall, ← hdist]
      exact landVersion_only (hnamed.trans (hcanon.trans hdist.symm)) (hpip.artifact_version _ _ _ hparts)
    · intro hnot
      have hparts : rt.artifactNameVersion filename = none := by
        cases hparts : rt.artifactNameVersion filename with
        | none => rfl
        | some parts => exact absurd ⟨filename, parts.1, parts.2, hnewest, hparts⟩ hnot
      have hinstall : rt.installArtifact pip (before.foldl (rt.installArtifact pip) vol) filename =
          before.foldl (rt.installArtifact pip) vol ++ [pip.artifact filename] := by
        rw [installArtifact, hstored filename hmem]
        simp only [hparts]
      rw [hlast, hinstall, versionsAt_append, if_pos (hnamed.trans hcanon), namelessBrought, hnewest]
      rw [installArtifacts_other hpip (fun f hf => hstored f (hbefore f hf).1) (fun f hf => (hbefore f hf).2)]
      simp [hparts, Option.filter]

/-! ### What the dict holds -/

/-- The artifacts of a distribution whose files name a version, the oldest first. -/
def namedFor (rt : HostRuntime V) (uploads : List Text) (K : Text) : List Text :=
  ((rt.desiredArtifacts uploads).filter fun filename => rt.artifactCanon filename = K).filter
    fun filename => (rt.artifactNameVersion filename).isSome

theorem getLast?_filterMap {α β : Type} {f : α → Option β} {l : List α} {a : α} {b : β} (hlast : l.getLast? = some a)
    (h : f a = some b) : (l.filterMap f).getLast? = some b := by
  obtain ⟨init, rfl⟩ := List.getLast?_eq_some_iff.mp hlast
  rw [List.filterMap_append, List.filterMap_cons, h]
  simp

omit [LinearOrder V] in
/-- The assignments of a distribution from its artifacts. -/
theorem assigned_artifacts (files : List Text) (K : Text) :
    (files.filterMap fun filename => (rt.artifactNameVersion filename).map fun (dist, version) => (rt.canon dist, version)).filter
        (·.1 = K) =
      ((files.filter fun filename => rt.artifactCanon filename = K).filter
        fun filename => (rt.artifactNameVersion filename).isSome).filterMap
          fun filename => (rt.artifactNameVersion filename).map fun (dist, version) => (rt.canon dist, version) := by
  induction files with
  | nil => rfl
  | cons f files ih =>
    cases hparts : rt.artifactNameVersion f with
    | none =>
      by_cases hK : rt.artifactCanon f = K
      · simpa [hparts, hK] using ih
      · simpa [hparts, hK] using ih
    | some parts =>
      have hcanon : rt.artifactCanon f = rt.canon parts.1 := by rw [artifactCanon, hparts]
      by_cases hK : rt.canon parts.1 = K
      · simpa [hparts, hcanon, hK] using ih
      · simpa [hparts, hcanon, hK] using ih

/-- The last artifact that names a version is the distribution's desired version. -/
theorem desiredVersion_named {uploads : List Text} {filename dist version : Text}
    (hlast : (rt.namedFor uploads K).getLast? = some filename)
    (hparts : rt.artifactNameVersion filename = some (dist, version)) (rows : List RegistryRow) :
    rt.desiredVersion rows uploads K = some version := by
  have hartifacts := getLast?_filterMap hlast
    (f := fun filename => (rt.artifactNameVersion filename).map fun (dist, version) => (rt.canon dist, version))
    (b := (rt.canon dist, version)) (by rw [hparts]; rfl)
  rw [desiredVersion, desiredVersions, List.filter_append, assigned_artifacts, List.getLast?_append]
  rw [namedFor] at hartifacts
  rw [hartifacts]
  rfl

/-- The newest artifact is the last of those that name a version, if it names one. -/
theorem namedFor_newest {uploads : List Text} {filename : Text} (h : rt.newestFor uploads K = some filename)
    (hnamed : (rt.artifactNameVersion filename).isSome = true) : (rt.namedFor uploads K).getLast? = some filename := by
  obtain ⟨init, hinit⟩ := List.getLast?_eq_some_iff.mp h
  rw [namedFor, hinit, List.filter_append]
  simp [hnamed]

omit [LinearOrder V] in
theorem artifactNameVersion_ne_nil {filename dist version : Text}
    (h : rt.artifactNameVersion filename = some (dist, version)) : dist ≠ [] ∧ version ≠ [] := by
  unfold artifactNameVersion at h
  simp only at h
  split at h
  · cases h
  · split at h
    · split_ifs at h with hempty
      obtain ⟨rfl, rfl⟩ := Prod.mk.inj (Option.some.inj h)
      exact not_or.mp hempty
    · cases h

/-- A version is desired of a distribution that a row names or an artifact is of. -/
theorem desired_of_desiredVersion {rows : List RegistryRow} {uploads : List Text} {want : Text}
    (hbare : ∀ row ∈ rows, rt.BareName row.package) (h : rt.desiredVersion rows uploads K = some want) :
    want ≠ [] ∧ K ∈ rt.desiredNames rows uploads := by
  obtain ⟨pair, hpair, rfl⟩ := Option.map_eq_some_iff.mp h
  obtain ⟨hmem, hkey⟩ := List.mem_filter.mp (List.mem_of_getLast? hpair)
  rw [← of_decide_eq_true hkey, desiredNames, List.mem_append]
  rcases List.mem_append.mp hmem with hmem | hmem
  · obtain ⟨row, hrow, hassign⟩ := List.mem_filterMap.mp hmem
    obtain ⟨version, hpinned, rfl⟩ := Option.map_eq_some_iff.mp hassign
    obtain ⟨-, hne⟩ := Option.filter_eq_some_iff.mp hpinned
    obtain ⟨hfile, hspec⟩ := hbare row hrow
    refine ⟨of_decide_eq_true hne, .inl (List.mem_filterMap.mpr ⟨row, hrow, ?_⟩)⟩
    rw [hfile, hspec]
    rfl
  · obtain ⟨filename, hfile, hassign⟩ := List.mem_filterMap.mp hmem
    obtain ⟨⟨dist, version⟩, hparts, rfl⟩ := Option.map_eq_some_iff.mp hassign
    refine ⟨(artifactNameVersion_ne_nil hparts).2, .inr (List.mem_map.mpr ⟨filename, ?_, ?_⟩)⟩
    · exact (List.perm_insertionSort _ _).mem_iff.mp hfile
    · rw [artifactCanon, hparts]

/-! ### The check -/

theorem isInstalled_iff {name want : Text} : rt.isInstalled vol name want = true ↔ rt.Tops (rt.versionsAt vol (rt.canon name)) want := by
  unfold isInstalled Tops runningVersion
  rw [Option.any_eq_true]

/-- No plugin is flagged exactly where what runs of every distribution is what is desired of it. -/
theorem detectStale_iff {desired : Text → Option Text} :
    (∀ discovered, rt.detectStale desired vol [] discovered = []) ↔
      ∀ name ≠ [], ∀ want ≠ [], desired (rt.canon name) = some want → rt.isInstalled vol name want = true := by
  constructor
  · intro h name hname want hwant hdesired
    have hone := h [([], some name)]
    by_contra hnot
    simp [detectStale, Option.filter, hname, hdesired, hwant, hnot] at hone
  · intro h
    have hrun : ∀ discovered seen, rt.detectStale desired vol seen discovered = [] := by
      intro discovered
      induction discovered with
      | nil => exact fun _ => rfl
      | cons plugin discovered ih =>
        intro seen
        obtain ⟨key, dist⟩ := plugin
        unfold detectStale
        split_ifs with hseen
        · exact ih seen
        · split
          · exact ih _
          · rename_i name hname
            obtain ⟨-, hne⟩ := Option.filter_eq_some_iff.mp hname
            split
            · exact ih _
            · rename_i want hwant
              obtain ⟨hdesired, hwant⟩ := Option.filter_eq_some_iff.mp hwant
              rw [if_pos (h name (of_decide_eq_true hne) want (of_decide_eq_true hwant) hdesired)]
              exact ih _
    exact fun discovered => hrun discovered []

/-! ### Reconcile and the check -/

/-- Nothing is flagged after a reconcile, and what is left of a distribution with artifacts is the greatest version
    uploaded of it. -/
structure Agrees (rt : HostRuntime V) (pip : Pip) (rows : List RegistryRow) (uploads : List Text) (dropped : Text → Bool)
    (vol : List DistInfo) : Prop where
  fresh : ∀ discovered, rt.detectStale (rt.desiredVersion rows uploads) (rt.reconcile pip rows uploads dropped vol) []
    discovered = []
  greatest : ∀ filename ∈ uploads, ∀ dist version, rt.artifactNameVersion filename = some (dist, version) →
    ∃ newest ∈ uploads, ∃ dist' version', rt.artifactNameVersion newest = some (dist', version') ∧
      rt.canon dist' = rt.canon dist ∧
      rt.isInstalled (rt.reconcile pip rows uploads dropped vol) dist' version' = true ∧
      ∀ other ∈ uploads, ∀ dist'' version'', rt.artifactNameVersion other = some (dist'', version'') →
        rt.canon dist'' = rt.canon dist → rt.versionRank version'' ≤ rt.versionRank version'

/-- Of every distribution with a desired version, either the newest artifact's file names a version, or the highest of what
    the rows leave and of what such a file brings is the desired version. -/
def NothingAbove (rt : HostRuntime V) (pip : Pip) (rows : List RegistryRow) (uploads : List Text) (vol : List DistInfo) :
    Prop :=
  ∀ name ≠ [], ∀ want, rt.desiredVersion rows uploads (rt.canon name) = some want →
    rt.NewestNamed uploads (rt.canon name) ∨
      rt.Tops (rt.rowsLeft pip vol rows (rt.canon name) ++ rt.namelessBrought pip uploads (rt.canon name)) want

theorem namelessBrought_parses (hpip : rt.Exact pip) (uploads : List Text) (K : Text) :
    ∀ v ∈ rt.namelessBrought pip uploads K, (rt.parse v).isSome = true := by
  intro v hv
  obtain ⟨filename, hfile, rfl⟩ := List.mem_map.mp hv
  obtain ⟨-, hnone⟩ := Option.filter_eq_some_iff.mp (Option.mem_toList.mp hfile)
  exact hpip.artifact_parses _ (Option.isNone_iff_eq_none.mp hnone)

theorem versionsAt_reconcile {rows : List RegistryRow} {uploads : List Text} (h : K ∈ rt.desiredNames rows uploads)
    (dropped : Text → Bool) (vol : List DistInfo) :
    rt.versionsAt (rt.reconcile pip rows uploads dropped vol) K =
      rt.versionsAt ((rt.newestArtifacts uploads).foldl (rt.installArtifact pip) (rows.foldl (rt.reconcileRow pip) vol)) K := by
  unfold reconcile versionsAt
  simp only
  rw [List.filter_filter]
  congr 1
  refine List.filter_congr fun info _ => ?_
  by_cases hK : rt.canon info.1 = K
  · simp [hK, h]
  · simp [hK]

section Reconciled
variable {rows : List RegistryRow} {uploads : List Text} {dropped : Text → Bool}

/-- What runs of a distribution with a desired version is that version exactly where nothing brings one above it. -/
theorem reconciled_iff (hpip : rt.Exact pip) (hbare : ∀ row ∈ rows, rt.BareName row.package)
    (hstored : ∀ f ∈ uploads, rt.safeArtifactName f = some f) {want : Text}
    (hwant : rt.desiredVersion rows uploads K = some want) :
    rt.Tops (rt.versionsAt (rt.reconcile pip rows uploads dropped vol) K) want ↔
      rt.NewestNamed uploads K ∨ rt.Tops (rt.rowsLeft pip vol rows K ++ rt.namelessBrought pip uploads K) want := by
  have hnames := (desired_of_desiredVersion hbare hwant).2
  obtain ⟨hnamed, hnameless⟩ := afterArtifacts hpip hstored (rows.foldl (rt.reconcileRow pip) vol) K
  rw [versionsAt_reconcile hnames]
  by_cases hnewest : rt.NewestNamed uploads K
  · refine iff_of_true ?_ (.inl hnewest)
    obtain ⟨filename, dist, version, hlast, hparts⟩ := hnewest
    have hdesired := desiredVersion_named (namedFor_newest hlast (by rw [hparts]; rfl)) hparts rows
    rw [hwant, Option.some.injEq] at hdesired
    obtain ⟨hne, hall⟩ := hnamed filename dist version hlast hparts
    exact highest_uniform hne (hdesired ▸ hall)
  · rw [hnameless hnewest, (rowsLeave_foldl hpip rows hbare vol K).tops hpip (namelessBrought_parses hpip uploads K)]
    exact ⟨.inr, fun h => h.resolve_left hnewest⟩

/-- The last of a distribution's artifacts is of the greatest version. -/
theorem namedFor_greatest {last dist version : Text} (hlast : (rt.namedFor uploads K).getLast? = some last)
    (hparts : rt.artifactNameVersion last = some (dist, version)) :
    last ∈ uploads ∧ rt.canon dist = K ∧ ∀ other ∈ uploads, ∀ dist' version',
      rt.artifactNameVersion other = some (dist', version') → rt.canon dist' = K →
        rt.versionRank version' ≤ rt.versionRank version := by
  have hsorted : (rt.desiredArtifacts uploads).Pairwise fun a b => rt.artifactSortKey a ≤ rt.artifactSortKey b :=
    List.pairwise_insertionSort _ _
  have hnamed : (rt.namedFor uploads K).Pairwise fun a b => rt.artifactSortKey a ≤ rt.artifactSortKey b :=
    hsorted.sublist ((List.filter_sublist).trans List.filter_sublist)
  obtain ⟨init, hinit⟩ := List.getLast?_eq_some_iff.mp hlast
  have hcanon : ∀ f d v, rt.artifactNameVersion f = some (d, v) → rt.artifactCanon f = rt.canon d := by
    intro f d v hf
    rw [artifactCanon, hf]
  have hmem : ∀ f, f ∈ rt.namedFor uploads K ↔
      f ∈ uploads ∧ rt.artifactCanon f = K ∧ (rt.artifactNameVersion f).isSome = true := by
    intro f
    rw [namedFor, List.mem_filter, List.mem_filter, decide_eq_true_eq, desiredArtifacts,
      (List.perm_insertionSort _ _).mem_iff, and_assoc]
  obtain ⟨hup, hK, -⟩ := (hmem last).mp (List.mem_of_getLast? hlast)
  have hdist : rt.canon dist = K := (hcanon _ _ _ hparts).symm.trans hK
  refine ⟨hup, hdist, fun other hother dist' version' hparts' hK' => ?_⟩
  have hin := (hmem other).mpr ⟨hother, (hcanon _ _ _ hparts').trans hK', by rw [hparts']; rfl⟩
  rw [hinit] at hin hnamed
  have hkey : rt.artifactSortKey other ≤ rt.artifactSortKey last := by
    rcases List.mem_append.mp hin with h | h
    · exact (List.pairwise_append.mp hnamed).2.2 other h last List.mem_cons_self
    · rw [List.mem_singleton.mp h]
  simp only [artifactSortKey, hparts, hparts', hK', hdist] at hkey
  rw [Prod.Lex.toLex_le_toLex] at hkey
  rcases hkey with hlt | ⟨-, hkey⟩
  · exact absurd hlt (lt_irrefl _)
  · rw [Prod.Lex.toLex_le_toLex] at hkey
    rcases hkey with hlt | ⟨heq, -⟩
    · exact hlt.le
    · exact heq.le

/-- Reconcile and the staleness check agree exactly where nothing is brought above a desired version. -/
theorem agrees_iff (hpip : rt.Exact pip) (hbare : ∀ row ∈ rows, rt.BareName row.package)
    (hstored : ∀ f ∈ uploads, rt.safeArtifactName f = some f) (dropped : Text → Bool) (vol : List DistInfo) :
    rt.Agrees pip rows uploads dropped vol ↔ rt.NothingAbove pip rows uploads vol := by
  have hfresh : (∀ discovered, rt.detectStale (rt.desiredVersion rows uploads) (rt.reconcile pip rows uploads dropped vol) []
      discovered = []) ↔ rt.NothingAbove pip rows uploads vol := by
    rw [detectStale_iff]
    refine forall₃_congr fun name hname want => ?_
    constructor
    · intro h hwant
      rw [← reconciled_iff hpip hbare hstored hwant, ← isInstalled_iff]
      exact h (desired_of_desiredVersion hbare hwant).1 hwant
    · intro h _ hwant
      rw [isInstalled_iff, reconciled_iff hpip hbare hstored hwant]
      exact h hwant
  refine ⟨fun h => hfresh.mp h.fresh, fun h => ⟨hfresh.mpr h, fun filename hmem dist version hparts => ?_⟩⟩
  have hnamed : filename ∈ rt.namedFor uploads (rt.canon dist) := by
    have hcanon : rt.artifactCanon filename = rt.canon dist := by rw [artifactCanon, hparts]
    rw [namedFor, List.mem_filter, List.mem_filter, decide_eq_true_eq, desiredArtifacts, (List.perm_insertionSort _ _).mem_iff]
    exact ⟨⟨hmem, hcanon⟩, by rw [hparts]; rfl⟩
  obtain ⟨newest, hlast⟩ : ∃ newest, (rt.namedFor uploads (rt.canon dist)).getLast? = some newest :=
    Option.ne_none_iff_exists'.mp fun hnone => List.ne_nil_of_mem hnamed (List.getLast?_eq_none_iff.mp hnone)
  obtain ⟨⟨dist', version'⟩, hparts'⟩ : ∃ parts, rt.artifactNameVersion newest = some parts :=
    Option.isSome_iff_exists.mp (List.mem_filter.mp (List.mem_of_getLast? hlast)).2
  obtain ⟨hup, hcanon, hall⟩ := namedFor_greatest hlast hparts'
  refine ⟨newest, hup, dist', version', hparts', hcanon, ?_, hall⟩
  have hdesired := desiredVersion_named hlast hparts' rows
  rw [← hcanon] at hdesired
  rw [isInstalled_iff, reconciled_iff hpip hbare hstored hdesired]
  exact h dist' (artifactNameVersion_ne_nil hparts').1 version' hdesired

end Reconciled

/-! ### A host -/

/-- A host whose versions are plain numbers. -/
def numbered : HostRuntime ℕ where
  parse t := if t ≠ [] ∧ t.all Char.isDigit then some (t.foldl (fun n c => n * 10 + (c.toNat - '0'.toNat)) 0) else none
  lower := List.map Char.toLower
  isSpace c := c = ' '

/-- A pip that brings what it is told, and version 2 where it is told none. -/
def obedient : Pip where
  package package version := (package, version.getD "2".toList)
  artifact filename := (numbered.artifactNameVersion filename).getD (filename, "0".toList)

theorem obedient_exact : numbered.Exact obedient where
  package_named _ _ := rfl
  package_version _ version := versionsEqual_refl version
  package_parses _ := (by decide : (numbered.parse "2".toList).isSome = true)
  artifact_named filename := by
    cases h : numbered.artifactNameVersion filename with
    | none => simp only [artifactCanon, obedient, h, Option.getD_none]
    | some parts => simp only [artifactCanon, obedient, h, Option.getD_some]
  artifact_version filename dist version h := by
    simp only [obedient, h, Option.getD_some]
    exact versionsEqual_refl version
  artifact_parses filename h := by
    simp only [obedient, h, Option.getD_none]
    decide

/-- A package pinned at 1, and its wheels of versions 3 and 10. -/
def wheels : List Text := ["foo_bar-10-py3-none-any.whl".toList, "foo_bar-3-py3-none-any.whl".toList]

theorem newest_wheel_fresh : numbered.Agrees obedient [⟨"foo-bar".toList, some "1".toList⟩] wheels (fun _ => false) [] := by
  refine (agrees_iff obedient_exact (by decide +kernel) (by decide +kernel) _ _).mpr fun name _ want hwant => .inl ?_
  have hall : ∀ pair ∈ numbered.desiredVersions [⟨"foo-bar".toList, some "1".toList⟩] wheels, pair.1 = "foo_bar".toList := by
    decide +kernel
  obtain ⟨pair, hpair, -⟩ := Option.map_eq_some_iff.mp hwant
  obtain ⟨hmem, hkey⟩ := List.mem_filter.mp (List.mem_of_getLast? hpair)
  rw [← of_decide_eq_true hkey, hall pair hmem]
  exact ⟨"foo_bar-10-py3-none-any.whl".toList, "foo_bar".toList, "10".toList, by decide +kernel, by decide +kernel⟩

/-- The package again under another spelling and without a version: pip brings version 2 beside the pinned 1. -/
theorem pinned_beside_newest_stale :
    ¬ ∀ (V : Type) [LinearOrder V] (rt : HostRuntime V) (pip : Pip) (rows : List RegistryRow) (uploads : List Text)
      (dropped : Text → Bool) (vol : List DistInfo), rt.Exact pip → (∀ row ∈ rows, rt.BareName row.package) →
      (∀ f ∈ uploads, rt.safeArtifactName f = some f) → rt.Agrees pip rows uploads dropped vol := by
  intro h
  have hfresh := (h ℕ numbered obedient [⟨"foo-bar".toList, some "1".toList⟩, ⟨"foo_bar".toList, none⟩] [] (fun _ => false) []
    obedient_exact (by decide +kernel) (by simp)).fresh [("pricing".toList, some "foo-bar".toList)]
  revert hfresh
  decide +kernel

end HostRuntime
end Gdx
