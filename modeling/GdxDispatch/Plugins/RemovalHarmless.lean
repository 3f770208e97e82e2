import GdxDispatch.Plugins.Removal

/-! What the removal of a plugin deletes, and what licenses it.

    A name comes to be deleted from a line of a RECORD or as a metadata directory of the distribution itself. The
    lines are free text, so the first thing is that a name read from one can only stand for an entry of the volume. -/

namespace Gdx
open Lib

/-- The part of a text before a character does not hold it. -/
theorem notMem_takeWhile_ne {c : Char} (t : Text) : c ∉ t.takeWhile (· ≠ c) := by
  intro h
  simpa using List.mem_takeWhile_imp h

namespace HostRuntime
variable {V : Type} {rt : HostRuntime V}

/-- Whatever a line of a RECORD says, the name read from it is an entry's and none of the folders'. -/
theorem recordHead_plain {line name : Text} (h : rt.recordHead line = some name) :
    EntryName name ∧ name ∉ RESERVED := by
  unfold recordHead at h
  dsimp only at h
  split_ifs at h with hpath hhead
  obtain rfl := Option.some.inj h
  push Not at hhead
  exact ⟨⟨hhead.1, notMem_takeWhile_ne _, hhead.2.1, hhead.2.2.1⟩, hhead.2.2.2⟩

theorem recordTopLevels_plain {e : TopEntry} {name : Text} (h : name ∈ rt.recordTopLevels e) :
    EntryName name ∧ name ∉ RESERVED := by
  obtain ⟨line, -, hline⟩ := List.mem_filterMap.mp h
  exact recordHead_plain hline

/-! ### The loop that deletes -/

theorem reaches_of_filter {vol : PluginVolume} {fs : VolumePaths} {keep : TopEntry → Bool} {name : Text}
    (h : PluginVolume.reaches { vol with entries := vol.entries.filter keep } fs name = true) :
    vol.reaches fs name = true := by
  unfold PluginVolume.reaches at h ⊢
  split_ifs at h ⊢ with hname
  · obtain ⟨e, he, hprop⟩ := List.any_eq_true.mp h
    exact List.any_eq_true.mpr ⟨e, (List.mem_filter.mp he).1, hprop⟩
  · exact h

/-- The loop deletes only names of its list that are there, inside the volume and none of the folders. -/
theorem removeNames_spec (fs : VolumePaths) (names : List Text) : ∀ vol : PluginVolume,
    (removeNames fs names vol).1.entries = vol.entries.filter (·.name ∉ (removeNames fs names vol).2) ∧
      (removeNames fs names vol).1.artifacts = vol.artifacts ∧
      ∀ name ∈ (removeNames fs names vol).2, name ∈ names ∧ name ∉ RESERVED ∧ vol.reaches fs name = true := by
  induction names with
  | nil => exact fun vol => ⟨by simp [removeNames], rfl, fun _ h => absurd h List.not_mem_nil⟩
  | cons n names ih =>
    intro vol
    have hskip : ∀ out : PluginVolume × List Text, out = removeNames fs names vol →
        out.1.entries = vol.entries.filter (·.name ∉ out.2) ∧ out.1.artifacts = vol.artifacts ∧
          ∀ name ∈ out.2, name ∈ n :: names ∧ name ∉ RESERVED ∧ vol.reaches fs name = true := by
      rintro _ rfl
      obtain ⟨hentries, hartifacts, hgone⟩ := ih vol
      exact ⟨hentries, hartifacts, fun name h => ⟨List.mem_cons_of_mem _ (hgone name h).1, (hgone name h).2⟩⟩
    unfold removeNames
    split
    · exact hskip _ rfl
    · rename_i hfolder
      split
      · rename_i hthere
        obtain ⟨hentries, hartifacts, hgone⟩ := ih { vol with entries := vol.entries.filter (·.name ≠ n) }
        refine ⟨?_, hartifacts, ?_⟩
        · dsimp only
          rw [hentries, List.filter_filter]
          refine List.filter_congr fun e _ => ?_
          simp only [List.mem_cons, not_or, Bool.decide_and, ne_eq, decide_not]
          exact Bool.and_comm _ _
        · intro name hname
          rcases List.mem_cons.mp hname with rfl | hname
          · rw [Bool.and_eq_true] at hthere
            exact ⟨List.mem_cons_self, hfolder, hthere.1⟩
          · obtain ⟨hmem, hreserved, hreach⟩ := hgone name hname
            exact ⟨List.mem_cons_of_mem _ hmem, hreserved, reaches_of_filter hreach⟩
      · exact hskip _ rfl

/-- A deletion from the volume that does no harm: the path is an entry of the volume that does not lead out of it and
    is none of its folders, and it is a metadata directory of the distribution itself or a name that no other
    distribution's RECORD lists. -/
structure Harmless (rt : HostRuntime V) (vol : PluginVolume) (distribution name : Text) : Prop where
  entry : EntryName name
  inside : ∃ e ∈ vol.entries, e.name = name ∧ e.inside = true
  folder : name ∉ RESERVED
  unclaimed : (∃ e ∈ rt.distInfoDirs vol distribution, e.name = name) ∨
    ∀ e ∈ vol.distInfos, rt.ofDist e distribution = false → name ∉ rt.recordTopLevels e

/-- Whose a metadata directory is follows from its name alone. -/
theorem ofDist_congr {d e : TopEntry} (h : d.name = e.name) (distribution : Text) :
    rt.ofDist d distribution = rt.ofDist e distribution := by
  unfold ofDist distInfoName
  rw [h]

/-- What clearing a distribution deletes does no harm, and all else stays. -/
theorem removeInstalledDist_harmless (rt : HostRuntime V) (fs : VolumePaths) (vol : PluginVolume) (distribution : Text) :
    (∀ name ∈ (rt.removeInstalledDist fs vol distribution).2, Harmless rt vol distribution name) ∧
      (rt.removeInstalledDist fs vol distribution).1.entries =
        vol.entries.filter (·.name ∉ (rt.removeInstalledDist fs vol distribution).2) ∧
      (rt.removeInstalledDist fs vol distribution).1.artifacts = vol.artifacts := by
  unfold removeInstalledDist
  dsimp only
  split_ifs with hmine
  · exact ⟨fun _ h => absurd h List.not_mem_nil, by simp, rfl⟩
  · obtain ⟨hentries, hartifacts, hgone⟩ := removeNames_spec fs _ vol
    refine ⟨fun name h => ?_, hentries, hartifacts⟩
    obtain ⟨hmem, hreserved, hreach⟩ := hgone name h
    rw [(List.perm_insertionSort _ _).mem_iff, List.mem_dedup] at hmem
    have hsource : EntryName name ∧ ((∃ e ∈ rt.distInfoDirs vol distribution, e.name = name) ∨
        ∀ e ∈ vol.distInfos, rt.ofDist e distribution = false → name ∉ rt.recordTopLevels e) := by
      rcases List.mem_append.mp hmem with howned | hmine
      · obtain ⟨howned, hshared⟩ := List.mem_filter.mp howned
        obtain ⟨d, hd, hname⟩ := List.mem_flatMap.mp howned
        refine ⟨(recordTopLevels_plain hname).1, .inr fun e he hother hlisted => ?_⟩
        simp only [decide_eq_true_eq] at hshared
        refine hshared (List.mem_flatMap.mpr ⟨e, List.mem_filter.mpr ⟨he, decide_eq_true fun hname' => ?_⟩, hlisted⟩)
        obtain ⟨d', hd', hsame⟩ := List.mem_map.mp hname'
        have hown := (List.mem_filter.mp hd').2
        rw [ofDist_congr hsame, hother] at hown
        cases hown
      · obtain ⟨e, he, rfl⟩ := List.mem_map.mp hmine
        exact ⟨e.plain, .inl ⟨e, he, rfl⟩⟩
    obtain ⟨hentry, hunclaimed⟩ := hsource
    refine ⟨hentry, ?_, hreserved, hunclaimed⟩
    unfold PluginVolume.reaches at hreach
    rw [if_pos hentry] at hreach
    obtain ⟨e, he, hprop⟩ := List.any_eq_true.mp hreach
    simp only [Bool.and_eq_true, decide_eq_true_eq] at hprop
    exact ⟨e, he, hprop⟩

/-! ### What licenses a removal -/

theorem maxBy_mem {α : Type} {lt : α → α → Bool} {xs : List α} {m : α} (h : maxBy lt xs = some m) : m ∈ xs := by
  cases xs with
  | nil => cases h
  | cons x xs =>
    obtain rfl := Option.some.inj h
    have hfold : ∀ (ys : List α) (b : α), ys.foldl (fun best y => if lt best y then y else best) b = b ∨
        ys.foldl (fun best y => if lt best y then y else best) b ∈ ys := by
      intro ys
      induction ys with
      | nil => exact fun b => .inl rfl
      | cons y ys ih =>
        intro b
        rcases ih (if lt b y then y else b) with heq | hmem
        · rw [List.foldl_cons, heq]
          split_ifs
          · exact .inr List.mem_cons_self
          · exact .inl rfl
        · exact .inr (List.mem_cons_of_mem _ hmem)
    rcases hfold xs x with heq | hmem
    · rw [heq]
      exact List.mem_cons_self
    · exact List.mem_cons_of_mem _ hmem

theorem mem_noteRemoval {entries : List RemovalEntry} {entry e : RemovalEntry} (h : e ∈ noteRemoval entries entry) :
    e ∈ entries ∨ e = entry := by
  unfold noteRemoval at h
  split at h
  · simpa using h
  · split_ifs at h
    · obtain ⟨e', he', heq⟩ := List.mem_map.mp h
      split_ifs at heq
      · exact .inr heq.symm
      · exact .inl (heq ▸ he')
    · exact .inl h

/-- Each recorded removal comes from a row of the trail. -/
theorem mem_recordedRemovals {trail : List RemovalRow} {e : RemovalEntry} (h : e ∈ rt.recordedRemovals trail) :
    ∃ row ∈ trail, rt.removalEntry row = some e := by
  have hfold : ∀ (new known : List RemovalEntry), e ∈ new.foldl noteRemoval known → e ∈ known ∨ e ∈ new := by
    intro new
    induction new with
    | nil => exact fun known h => .inl h
    | cons n new ih =>
      intro known h
      rcases ih _ h with h | h
      · rcases mem_noteRemoval h with h | rfl
        · exact .inl h
        · exact .inr List.mem_cons_self
      · exact .inr (List.mem_cons_of_mem _ h)
  rcases hfold _ [] h with h | h
  · exact absurd h List.not_mem_nil
  · exact List.mem_filterMap.mp h

theorem foldl_laterOf {times : List (Option ℤ)} {time : Option ℤ} {m : ℤ} (h : times.foldl laterOf time = some m) :
    ∀ t ∈ time :: times, ∃ n, t = some n ∧ n ≤ m := by
  induction times generalizing time with
  | nil =>
    intro t ht
    rw [List.mem_singleton.mp ht]
    exact ⟨m, h, le_rfl⟩
  | cons next times ih =>
    intro t ht
    obtain ⟨n, hn, hle⟩ := ih h _ List.mem_cons_self
    have hboth : ∃ a b, time = some a ∧ next = some b ∧ max a b = n := by
      cases time <;> cases next <;> simp_all [laterOf]
    obtain ⟨a, b, rfl, rfl, rfl⟩ := hboth
    rcases List.mem_cons.mp ht with rfl | ht
    · exact ⟨a, rfl, (le_max_left a b).trans hle⟩
    · rcases List.mem_cons.mp ht with rfl | ht
      · exact ⟨b, rfl, (le_max_right a b).trans hle⟩
      · exact ih h t (List.mem_cons_of_mem _ ht)

theorem mtime_le_installedAt {vol : PluginVolume} {distribution : Text} {m : ℤ}
    (h : rt.installedAt vol distribution = some m) :
    ∀ e ∈ rt.distInfoDirs vol distribution, ∃ n, e.mtime = some n ∧ n ≤ m := by
  intro e he
  unfold installedAt at h
  have hmem : e.mtime ∈ (rt.distInfoDirs vol distribution).map (·.mtime) := List.mem_map_of_mem he
  split at h
  · cases h
  · rename_i time times htimes
    rw [htimes] at hmem
    exact foldl_laterOf h _ hmem

/-- The removal of a plugin is licensed: no desired row names it, and a row of the trail records a removal that names
    no version or the running one and is not older than any copy of the plugin's metadata. -/
structure Licensed [LinearOrder V] (rt : HostRuntime V) (desired : List Text) (trail : List RemovalRow)
    (r : PluginRemoval) : Prop where
  undesired : rt.canon r.name ∉ desired
  recorded : ∃ row ∈ trail, ∃ e, rt.removalEntry row = some e ∧ e.canon = rt.canon r.name ∧ e.intent = r.intent ∧
    ∀ v, e.version = some v → ∃ running, rt.effectiveVersion r.found r.name = some running ∧
      rt.versionsEqual v running = true
  notOlder : ∀ e ∈ rt.distInfoDirs r.found r.name, ∃ m, e.mtime = some m ∧ m ≤ r.intent.recordedAt

/-- The wheels that go with a plugin are its own and, where the deletion of a wheel licensed the removal, of the running
    version. -/
def WheelsCovered [LinearOrder V] (rt : HostRuntime V) (r : PluginRemoval) : Prop :=
  ∀ w ∈ r.wheels, ∃ name version, rt.artifactNameVersion w = some (name, version) ∧ rt.canon name = rt.canon r.name ∧
    (r.intent.action = .artifactDeleted → ∃ running, rt.effectiveVersion r.found r.name = some running ∧
      rt.versionsEqual version running = true)

theorem applicableRemoval_spec [LinearOrder V] {entries : List RemovalEntry} {running : Option Text}
    {intent : RemovalIntent} (h : rt.applicableRemoval entries running = some intent) :
    ∃ e ∈ entries, e.intent = intent ∧ ∀ v, e.version = some v → ∃ run, running = some run ∧
      rt.versionsEqual v run = true := by
  obtain ⟨e, he, hintent⟩ := List.mem_map.mp (maxBy_mem h)
  obtain ⟨he, happlies⟩ := List.mem_filter.mp he
  refine ⟨e, he, hintent, fun v hv => ?_⟩
  rw [hv, Option.all_some] at happlies
  exact (Option.any_eq_true _ _).mp happlies

theorem stagedWheels_spec [LinearOrder V] {vol : PluginVolume} {canon w : Text} {versions : Option (Option Text)}
    (h : w ∈ rt.stagedWheels vol canon versions) :
    ∃ name version, rt.artifactNameVersion w = some (name, version) ∧ rt.canon name = canon ∧
      ∀ running, versions = some running → ∃ run, running = some run ∧ rt.versionsEqual version run = true := by
  obtain ⟨-, hcovered⟩ := List.mem_filter.mp h
  obtain ⟨⟨name, version⟩, hname, hprop⟩ := (Option.any_eq_true _ _).mp hcovered
  rw [Bool.and_eq_true, decide_eq_true_eq] at hprop
  refine ⟨name, version, hname, hprop.1, fun running hrunning => ?_⟩
  have hall := hprop.2
  rw [hrunning, Option.all_some] at hall
  exact (Option.any_eq_true _ _).mp hall

/-- One pass removes nothing, or removes a plugin that it may remove, without harm. -/
theorem removePlugin_spec [LinearOrder V] (rt : HostRuntime V) (fs : VolumePaths) (desired : List Text) (trail : List RemovalRow)
    (vol : PluginVolume) (name : Text) :
    let out := rt.removePlugin fs desired (rt.recordedRemovals trail) vol (rt.canon name) name
    (∀ r ∈ out.2, Licensed rt desired trail r ∧ WheelsCovered rt r ∧ ∀ n ∈ r.gone, Harmless rt r.found r.name n) ∧
      out.1.entries = vol.entries.filter (fun e => out.2.all (e.name ∉ ·.gone)) ∧
      out.1.artifacts = vol.artifacts.filter (fun w => out.2.all (w ∉ ·.wheels)) := by
  have hstay : (∀ r ∈ (none : Option PluginRemoval), Licensed rt desired trail r ∧ WheelsCovered rt r ∧
        ∀ n ∈ r.gone, Harmless rt r.found r.name n) ∧
      vol.entries = vol.entries.filter (fun e => (none : Option PluginRemoval).all (e.name ∉ ·.gone)) ∧
      vol.artifacts = vol.artifacts.filter (fun w => (none : Option PluginRemoval).all (w ∉ ·.wheels)) := by
    simp
  dsimp only
  unfold removePlugin
  split
  · exact hstay
  · rename_i hdesired
    dsimp only
    split
    · exact hstay
    · rename_i intent happlies
      split
      · exact hstay
      · rename_i hnewer
        obtain ⟨hharmless, hentries, hartifacts⟩ := removeInstalledDist_harmless rt fs vol name
        split
        · rename_i hnone
          rw [hnone] at hentries
          exact ⟨hstay.1, by rw [hentries]; simp, by rw [hartifacts]; simp⟩
        · refine ⟨?_, by rw [hentries]; simp, by rw [hartifacts]; simp⟩
          rintro r ⟨⟩
          refine ⟨⟨hdesired, ?_, ?_⟩, ?_, hharmless⟩
          · obtain ⟨e, he, hintent, hversion⟩ := applicableRemoval_spec happlies
            obtain ⟨he, hcanon⟩ := List.mem_filter.mp he
            obtain ⟨row, hrow, hentry⟩ := mem_recordedRemovals he
            exact ⟨row, hrow, e, hentry, of_decide_eq_true hcanon, hintent, hversion⟩
          · cases hat : rt.installedAt vol name with
            | none => rw [hat] at hnewer; exact absurd rfl hnewer
            | some m =>
              rw [hat, Option.all_some, decide_eq_true_eq, not_lt] at hnewer
              intro e he
              obtain ⟨n, hn, hle⟩ := mtime_le_installedAt hat e he
              exact ⟨n, hn, hle.trans hnewer⟩
          · intro w hw
            obtain ⟨wname, version, hname, hcanon, hversion⟩ := stagedWheels_spec (List.mem_filter.mp hw).1
            refine ⟨wname, version, hname, hcanon, fun haction => ?_⟩
            dsimp only at haction
            exact hversion _ (if_neg (by rw [haction]; simp))

theorem all_toList {α : Type} (o : Option α) (p : α → Bool) : o.toList.all p = o.all p := by
  cases o <;> simp

/-- The passes, one after another. -/
theorem removePlugins_spec [LinearOrder V] (rt : HostRuntime V) (fs : VolumePaths) (desired : List Text) (trail : List RemovalRow)
    (plugins : List (Text × Text)) (hcanon : ∀ p ∈ plugins, p.1 = rt.canon p.2) : ∀ vol : PluginVolume,
    let out := rt.removePlugins fs desired (rt.recordedRemovals trail) plugins vol
    (∀ r ∈ out.2, Licensed rt desired trail r ∧ WheelsCovered rt r ∧ ∀ n ∈ r.gone, Harmless rt r.found r.name n) ∧
      out.1.entries = vol.entries.filter (fun e => out.2.all (e.name ∉ ·.gone)) ∧
      out.1.artifacts = vol.artifacts.filter (fun w => out.2.all (w ∉ ·.wheels)) := by
  induction plugins with
  | nil => exact fun vol => ⟨fun _ h => absurd h List.not_mem_nil, by simp [removePlugins], by simp [removePlugins]⟩
  | cons p plugins ih =>
    intro vol
    obtain ⟨canon, name⟩ := p
    obtain rfl : canon = rt.canon name := hcanon _ List.mem_cons_self
    obtain ⟨hhead, hheadEntries, hheadArtifacts⟩ := removePlugin_spec rt fs desired trail vol name
    obtain ⟨htail, htailEntries, htailArtifacts⟩ := ih (fun q hq => hcanon q (List.mem_cons_of_mem _ hq))
      (rt.removePlugin fs desired (rt.recordedRemovals trail) vol (rt.canon name) name).1
    simp only [removePlugins]
    refine ⟨fun r hr => ?_, ?_, ?_⟩
    · rcases List.mem_append.mp hr with hr | hr
      · exact hhead r (Option.mem_toList.mp hr)
      · exact htail r hr
    · rw [htailEntries, hheadEntries, List.filter_filter]
      refine List.filter_congr fun e _ => ?_
      rw [List.all_append, all_toList, Bool.and_comm]
    · rw [htailArtifacts, hheadArtifacts, List.filter_filter]
      refine List.filter_congr fun w _ => ?_
      rw [List.all_append, all_toList, Bool.and_comm]

theorem pluginDistsOnVolume_canon (vol : PluginVolume) : ∀ p ∈ rt.pluginDistsOnVolume vol, p.1 = rt.canon p.2 := by
  intro p hp
  obtain ⟨canon, -, hlast⟩ := List.mem_filterMap.mp hp
  obtain ⟨name, hname, rfl⟩ := Option.map_eq_some_iff.mp hlast
  have := (List.mem_filter.mp (List.mem_of_getLast? hname)).2
  exact (of_decide_eq_true this).symm

end HostRuntime

/-- **Removing plugins harms nothing else**, for every volume, desired set and audit trail. Clearing a distribution, for
    its removal or for its replacement, deletes only entries of the volume that do not lead out of it, none of its
    folders, and no name that another distribution's RECORD lists, the distribution's own metadata directories apart.
    A plugin is removed only with a licence, and with it only staged wheels of its own go. All else stays. -/
theorem plugin_removal_harms_nothing_else {V : Type} [LinearOrder V] (rt : HostRuntime V) (fs : VolumePaths)
    (desired : List Text) (trail : List RemovalRow) (vol : PluginVolume) :
    (∀ distribution, (∀ name ∈ (rt.removeInstalledDist fs vol distribution).2, rt.Harmless vol distribution name) ∧
      (rt.removeInstalledDist fs vol distribution).1.entries =
        vol.entries.filter (·.name ∉ (rt.removeInstalledDist fs vol distribution).2) ∧
      (rt.removeInstalledDist fs vol distribution).1.artifacts = vol.artifacts) ∧
    (∀ r ∈ (rt.removeUndesiredPlugins fs desired trail vol).2, rt.Licensed desired trail r ∧ rt.WheelsCovered r ∧
      ∀ name ∈ r.gone, rt.Harmless r.found r.name name) ∧
    (rt.removeUndesiredPlugins fs desired trail vol).1.entries =
      vol.entries.filter (fun e => (rt.removeUndesiredPlugins fs desired trail vol).2.all (e.name ∉ ·.gone)) ∧
    (rt.removeUndesiredPlugins fs desired trail vol).1.artifacts =
      vol.artifacts.filter (fun w => (rt.removeUndesiredPlugins fs desired trail vol).2.all (w ∉ ·.wheels)) :=
  ⟨fun distribution => HostRuntime.removeInstalledDist_harmless rt fs vol distribution,
    HostRuntime.removePlugins_spec rt fs desired trail _ (HostRuntime.pluginDistsOnVolume_canon vol) vol⟩

/-! ### A RECORD that lists another's metadata -/

/-- A host on which `1.0` is the one version, with ASCII lower case and white space. -/
def plainHost : HostRuntime ℕ :=
  ⟨fun v => if v = "1.0".toList then some 1 else none, List.map Char.toLower, Char.isWhitespace⟩

/-- Plugin `a` with its metadata of day 50. -/
def entryA : TopEntry :=
  ⟨"a-1.0.dist-info".toList, by decide +kernel, true, some ("a".toList, "1.0".toList), some ["a/x.py,,".toList],
    some ["[gdx.modules]".toList], some 50⟩

/-- Plugin `b`, whose RECORD names the metadata directory of `a`. -/
def entryB : TopEntry :=
  ⟨"b-1.0.dist-info".toList, by decide +kernel, true, some ("b".toList, "1.0".toList),
    some ["a-1.0.dist-info/METADATA,,".toList], some ["[gdx.modules]".toList], some 50⟩

def craftedVolume : PluginVolume := ⟨[entryA, entryB], []⟩

def craftedTrail : List RemovalRow := [⟨.unregistered, "a".toList, some 100, none⟩]

def craftedRun : PluginVolume × List HostRuntime.PluginRemoval :=
  plainHost.removeUndesiredPlugins ⟨fun _ => false, fun _ => false⟩ ["b".toList] craftedTrail craftedVolume

theorem craftedRun_gone : craftedRun.2.map (fun r => (r.name, r.gone, r.found.entries)) =
    [("a".toList, ["a-1.0.dist-info".toList], [entryA, entryB])] := by
  decide +kernel

theorem entryB_lists : "a-1.0.dist-info".toList ∈ plainHost.recordTopLevels entryB ∧
    plainHost.ofDist entryB "a".toList = false := by
  decide +kernel

/-- The metadata directory of a plugin goes with it even where another distribution's RECORD lists it. -/
theorem removal_deletes_listed_metadata :
    ¬ ∀ (V : Type) (_ : LinearOrder V) (rt : HostRuntime V) (fs : VolumePaths) (desired : List Text)
      (trail : List RemovalRow) (vol : PluginVolume), ∀ r ∈ (rt.removeUndesiredPlugins fs desired trail vol).2,
        ∀ name ∈ r.gone, ∀ e ∈ r.found.distInfos, rt.ofDist e r.name = false → name ∉ rt.recordTopLevels e := by
  intro h
  have hall := h ℕ inferInstance plainHost ⟨fun _ => false, fun _ => false⟩ ["b".toList] craftedTrail craftedVolume
  obtain ⟨r, hr, hrun⟩ : ∃ r ∈ craftedRun.2, (r.name, r.gone, r.found.entries) =
      ("a".toList, ["a-1.0.dist-info".toList], [entryA, entryB]) := by
    have hmem : ("a".toList, ["a-1.0.dist-info".toList], [entryA, entryB]) ∈
        craftedRun.2.map (fun r => (r.name, r.gone, r.found.entries)) := by
      rw [craftedRun_gone]
      exact List.mem_singleton.mpr rfl
    obtain ⟨r, hr, heq⟩ := List.mem_map.mp hmem
    exact ⟨r, hr, heq⟩
  simp only [Prod.mk.injEq] at hrun
  obtain ⟨hname, hgone, hentries⟩ := hrun
  have hinfo : entryB ∈ r.found.distInfos := by
    unfold PluginVolume.distInfos
    rw [hentries]
    decide +kernel
  have hnot := hall r hr "a-1.0.dist-info".toList (by rw [hgone]; exact List.mem_singleton.mpr rfl) entryB hinfo
    (by rw [hname]; exact entryB_lists.2)
  exact hnot entryB_lists.1

end Gdx
