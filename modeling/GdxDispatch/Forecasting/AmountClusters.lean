import GdxDispatch.Forecasting.DetectorTwice

/-! What clustering the amounts loses.

    The clusters stand in a dict under their medians, and a median moves as members join: a cluster that comes to another
    one's median takes its place, and that one's members are gone. Kept apart from their keys the groups lose nothing, so
    the dict loses nothing exactly where no two groups come to one median. -/

namespace Gdx

variable {amounts : List ℚ} {idx : ℕ}

/-! ### Groups under no key -/

/-- The median of the amounts at some places. -/
def placesMedian (amounts : List ℚ) (members : List ℕ) : ℚ := median id (members.map fun i => amounts.getD i 0)

/-- An amount is near a median. -/
def near (amounts : List ℚ) (idx : ℕ) (med : ℚ) : Bool :=
  decide (|amounts.getD idx 0 - med| ≤ AMOUNT_BUCKET_TOLERANCE_PCT * med)

/-- The amount joins the first group it is near; a group whose median moves goes last. -/
def joinGroup (amounts : List ℚ) (idx : ℕ) : List (List ℕ) → List (List ℕ)
  | [] => [[idx]]
  | group :: rest =>
    if near amounts idx (placesMedian amounts group) then
      if placesMedian amounts (group ++ [idx]) = placesMedian amounts group then (group ++ [idx]) :: rest
      else rest ++ [group ++ [idx]]
    else group :: joinGroup amounts idx rest

/-- The groups of the first amounts. -/
def groups (amounts : List ℚ) (k : ℕ) : List (List ℕ) :=
  (List.range k).foldl (fun gs idx => joinGroup amounts idx gs) []

theorem groups_succ (amounts : List ℚ) (k : ℕ) : groups amounts (k + 1) = joinGroup amounts k (groups amounts k) := by
  rw [groups, List.range_succ, List.foldl_append]
  rfl

theorem joinGroup_perm (amounts : List ℚ) (idx : ℕ) (gs : List (List ℕ)) :
    (joinGroup amounts idx gs).flatten.Perm (gs.flatten ++ [idx]) := by
  induction gs with
  | nil => exact List.Perm.refl _
  | cons group rest ih =>
    unfold joinGroup
    split_ifs
    · simp only [List.flatten_cons, List.append_assoc]
      exact List.perm_append_comm.append_left group
    · simp only [List.flatten_append, List.flatten_cons, List.flatten_nil, List.append_nil, ← List.append_assoc]
      exact List.perm_append_comm.append_right [idx]
    · simp only [List.flatten_cons, List.append_assoc]
      exact ih.append_left group

theorem joinGroup_ne_nil {gs : List (List ℕ)} (h : [] ∉ gs) : [] ∉ joinGroup amounts idx gs := by
  induction gs with
  | nil => simp [joinGroup]
  | cons group rest ih =>
    rw [List.mem_cons, not_or] at h
    unfold joinGroup
    split_ifs <;> simp [h.2, h.1, ih h.2]

/-- The groups hold every place once. -/
theorem groups_perm (amounts : List ℚ) (k : ℕ) : (groups amounts k).flatten.Perm (List.range k) := by
  induction k with
  | zero => exact List.Perm.refl _
  | succ k ih =>
    rw [groups_succ, List.range_succ]
    exact (joinGroup_perm amounts k _).trans (ih.append_right [k])

theorem groups_ne_nil (amounts : List ℚ) (k : ℕ) : [] ∉ groups amounts k := by
  induction k with
  | zero => exact List.not_mem_nil
  | succ k ih =>
    rw [groups_succ]
    exact joinGroup_ne_nil ih

/-! ### Where the amount goes -/

/-- What one pass does to the groups: the amount starts a group of its own, joins one in its place, or joins one that goes
    last. -/
theorem joinGroup_cases (amounts : List ℚ) (idx : ℕ) (gs : List (List ℕ)) :
    ((∀ g ∈ gs, near amounts idx (placesMedian amounts g) = false) ∧ joinGroup amounts idx gs = gs ++ [[idx]]) ∨
    ∃ pre group rest, gs = pre ++ group :: rest ∧ (∀ g ∈ pre, near amounts idx (placesMedian amounts g) = false) ∧
      near amounts idx (placesMedian amounts group) = true ∧
      ((placesMedian amounts (group ++ [idx]) = placesMedian amounts group ∧
          joinGroup amounts idx gs = pre ++ (group ++ [idx]) :: rest) ∨
        (placesMedian amounts (group ++ [idx]) ≠ placesMedian amounts group ∧
          joinGroup amounts idx gs = pre ++ rest ++ [group ++ [idx]])) := by
  induction gs with
  | nil => exact .inl ⟨by simp, rfl⟩
  | cons first gs ih =>
    by_cases hnear : near amounts idx (placesMedian amounts first) = true
    · refine .inr ⟨[], first, gs, rfl, by simp, hnear, ?_⟩
      by_cases hmed : placesMedian amounts (first ++ [idx]) = placesMedian amounts first
      · exact .inl ⟨hmed, by simp [joinGroup, hnear, hmed]⟩
      · exact .inr ⟨hmed, by simp [joinGroup, hnear, hmed]⟩
    · have hjoin : joinGroup amounts idx (first :: gs) = first :: joinGroup amounts idx gs := by
        simp [joinGroup, hnear]
      have hfar : near amounts idx (placesMedian amounts first) = false := Bool.not_eq_true _ ▸ hnear
      rcases ih with ⟨hall, heq⟩ | ⟨pre, group, rest, rfl, hpre, hgroup, hcase⟩
      · refine .inl ⟨fun g hg => ?_, by rw [hjoin, heq]; rfl⟩
        rcases List.mem_cons.mp hg with rfl | hg
        · exact hfar
        · exact hall g hg
      · refine .inr ⟨first :: pre, group, rest, rfl, fun g hg => ?_, hgroup, ?_⟩
        · rcases List.mem_cons.mp hg with rfl | hg
          · exact hfar
          · exact hpre g hg
        · rcases hcase with ⟨hmed, heq⟩ | ⟨hmed, heq⟩
          · exact .inl ⟨hmed, by rw [hjoin, heq]; rfl⟩
          · exact .inr ⟨hmed, by rw [hjoin, heq]; rfl⟩

/-! ### The dict -/

/-- The groups under their medians. -/
def keyed (amounts : List ℚ) (gs : List (List ℕ)) : Clusters := gs.map fun g => (placesMedian amounts g, g)

theorem keyed_append (amounts : List ℚ) (gs hs : List (List ℕ)) :
    keyed amounts (gs ++ hs) = keyed amounts gs ++ keyed amounts hs := List.map_append

theorem keyed_keys (amounts : List ℚ) (gs : List (List ℕ)) :
    (keyed amounts gs).map Prod.fst = gs.map (placesMedian amounts) := by
  rw [keyed, List.map_map]
  rfl

/-- A pass whose amount is near a cluster. -/
theorem bucketAmount_near {clusters : Clusters} {med : ℚ} {members : List ℕ}
    (h : clusters.find? (fun e => near amounts idx e.1) = some (med, members)) :
    bucketAmount id amounts clusters idx =
      if placesMedian amounts (members ++ [idx]) ≠ med then
        (clusters.pop med).set (placesMedian amounts (members ++ [idx])) (members ++ [idx])
      else clusters.set med (members ++ [idx]) := by
  unfold bucketAmount
  dsimp only
  generalize hfind : clusters.find? _ = found
  cases hfind.symm.trans h
  rfl

/-- A pass whose amount is near no cluster. -/
theorem bucketAmount_far {clusters : Clusters} (h : clusters.find? (fun e => near amounts idx e.1) = none) :
    bucketAmount id amounts clusters idx = clusters.set (amounts.getD idx 0) [idx] := by
  unfold bucketAmount
  dsimp only
  generalize hfind : clusters.find? _ = found
  cases hfind.symm.trans h
  rfl

theorem find_keyed_far {gs : List (List ℕ)} (h : ∀ g ∈ gs, near amounts idx (placesMedian amounts g) = false) :
    (keyed amounts gs).find? (fun e => near amounts idx e.1) = none := by
  refine List.find?_eq_none.mpr fun e he => ?_
  obtain ⟨g, hg, rfl⟩ := List.mem_map.mp he
  rw [Bool.not_eq_true]
  exact h g hg

/-- The lookup finds the group the amount joins. -/
theorem find_keyed_near {pre rest : List (List ℕ)} {group : List ℕ}
    (hpre : ∀ g ∈ pre, near amounts idx (placesMedian amounts g) = false)
    (hgroup : near amounts idx (placesMedian amounts group) = true) :
    (keyed amounts (pre ++ group :: rest)).find? (fun e => near amounts idx e.1) =
      some (placesMedian amounts group, group) := by
  rw [keyed_append, List.find?_append, find_keyed_far hpre, Option.none_or]
  exact List.find?_cons_of_pos hgroup

/-- The keys beside one. -/
theorem Clusters.not_mem_keys {before after : Clusters} {med : ℚ} {old : List ℕ}
    (h : ((before ++ (med, old) :: after).map Prod.fst).Nodup) : med ∉ (before ++ after).map Prod.fst := by
  rw [List.map_append, List.map_cons, List.nodup_middle, List.nodup_cons] at h
  rw [List.map_append]
  exact h.1

theorem Clusters.pop_key {before after : Clusters} {med : ℚ} {old : List ℕ}
    (h : ((before ++ (med, old) :: after).map Prod.fst).Nodup) :
    Clusters.pop (before ++ (med, old) :: after) med = before ++ after := by
  have hkeep : ∀ e ∈ before ++ after, decide (e.1 ≠ med) = true := by
    intro e he
    rw [decide_eq_true_eq]
    rintro rfl
    exact Clusters.not_mem_keys h (List.mem_map_of_mem he)
  have hall := List.filter_eq_self.mpr hkeep
  rw [List.filter_append] at hall
  rw [Clusters.pop, List.filter_append, List.filter_cons_of_neg (by simp)]
  exact hall

/-- A key that is there is written over. -/
theorem Clusters.set_key {before after : Clusters} {med : ℚ} {old members : List ℕ}
    (h : ((before ++ (med, old) :: after).map Prod.fst).Nodup) :
    Clusters.set (before ++ (med, old) :: after) med members = before ++ (med, members) :: after := by
  have hother : ∀ e ∈ before ++ after, e.1 ≠ med := by
    rintro e he rfl
    exact Clusters.not_mem_keys h (List.mem_map_of_mem he)
  have hsame : ∀ es : Clusters, (∀ e ∈ es, e.1 ≠ med) → es.map (fun e => if e.1 = med then (med, members) else e) = es :=
    fun es hes => (List.map_congr_left fun e he => if_neg (hes e he)).trans (List.map_id es)
  rw [Clusters.set, if_pos (by simp), List.map_append, List.map_cons, if_pos rfl,
    hsame before fun e he => hother e (List.mem_append_left _ he),
    hsame after fun e he => hother e (List.mem_append_right _ he)]

/-- A new key goes last. -/
theorem Clusters.set_new {clusters : Clusters} {med : ℚ} {members : List ℕ} (h : med ∉ clusters.map Prod.fst) :
    clusters.set med members = clusters ++ [(med, members)] := by
  refine if_neg fun hany => h ?_
  obtain ⟨e, he, heq⟩ := List.any_eq_true.mp hany
  exact List.mem_map.mpr ⟨e, he, of_decide_eq_true heq⟩

theorem placesMedian_singleton (amounts : List ℚ) (idx : ℕ) : placesMedian amounts [idx] = amounts.getD idx 0 := by
  simp [placesMedian, median]

/-- An amount that is not negative is near itself. -/
theorem near_self (h : 0 ≤ amounts.getD idx 0) : near amounts idx (amounts.getD idx 0) = true := by
  have : (0 : ℚ) ≤ 1 / 5 * amounts.getD idx 0 := by linarith
  simpa [near, AMOUNT_BUCKET_TOLERANCE_PCT] using this

/-! ### One pass -/

/-- While the medians stay apart the dict holds the groups. -/
theorem bucketAmount_keyed {gs : List (List ℕ)} (hapart : (gs.map (placesMedian amounts)).Nodup)
    (hnext : ((joinGroup amounts idx gs).map (placesMedian amounts)).Nodup) :
    bucketAmount id amounts (keyed amounts gs) idx = keyed amounts (joinGroup amounts idx gs) := by
  rcases joinGroup_cases amounts idx gs with ⟨hfar, heq⟩ | ⟨pre, group, rest, rfl, hpre, hgroup, hcase⟩
  · rw [heq, List.map_append, List.nodup_append] at hnext
    rw [bucketAmount_far (find_keyed_far hfar), heq, keyed_append, Clusters.set_new, ← placesMedian_singleton amounts idx]
    · rfl
    · rw [keyed_keys, ← placesMedian_singleton amounts idx]
      exact fun hmem => hnext.2.2 _ hmem _ List.mem_cons_self rfl
  · have hkeys : ((keyed amounts pre ++ (placesMedian amounts group, group) :: keyed amounts rest).map Prod.fst).Nodup := by
      have hsplit := keyed_append amounts pre (group :: rest)
      rw [← keyed_keys, hsplit] at hapart
      exact hapart
    rw [bucketAmount_near (find_keyed_near hpre hgroup), keyed_append]
    rcases hcase with ⟨hmed, heq⟩ | ⟨hmed, heq⟩
    · rw [if_neg (not_not.mpr hmed), heq, keyed_append]
      refine (Clusters.set_key hkeys).trans ?_
      rw [← hmed]
      rfl
    · rw [heq, List.map_append, List.nodup_append] at hnext
      rw [if_pos hmed, heq, keyed_append]
      have hpop : Clusters.pop (keyed amounts pre ++ keyed amounts (group :: rest)) (placesMedian amounts group) =
          keyed amounts (pre ++ rest) := by
        rw [keyed_append]
        exact Clusters.pop_key hkeys
      rw [hpop, Clusters.set_new]
      · rfl
      · rw [keyed_keys]
        exact fun hmem => hnext.2.2 _ hmem _ List.mem_cons_self rfl

/-- Where two medians meet, a group is written over: some place of it is in no cluster any more. -/
theorem bucketAmount_lost {gs : List (List ℕ)} (hapart : (gs.map (placesMedian amounts)).Nodup) (hne : [] ∉ gs)
    (hplaces : (gs.flatten ++ [idx]).Nodup) (hnonneg : 0 ≤ amounts.getD idx 0)
    (hmeet : ¬ ((joinGroup amounts idx gs).map (placesMedian amounts)).Nodup) :
    ∃ i ∈ gs.flatten, ∀ e ∈ bucketAmount id amounts (keyed amounts gs) idx, i ∉ e.2 := by
  have hperm := joinGroup_perm amounts idx gs
  rcases joinGroup_cases amounts idx gs with ⟨hfar, heq⟩ | ⟨pre, group, rest, rfl, hpre, hgroup, hcase⟩
  · -- A group of its own is near its own amount, and no group was.
    refine absurd ?_ hmeet
    rw [heq, List.map_append, List.nodup_append]
    refine ⟨hapart, List.nodup_singleton _, fun a ha b hb => ?_⟩
    obtain ⟨g, hg, rfl⟩ := List.mem_map.mp ha
    rw [List.map_singleton, List.mem_singleton, placesMedian_singleton] at hb
    rintro hsame
    have hnear := hfar g hg
    rw [hsame, hb, near_self hnonneg] at hnear
    cases hnear
  · have hkeys : ((keyed amounts pre ++ (placesMedian amounts group, group) :: keyed amounts rest).map Prod.fst).Nodup := by
      have hsplit := keyed_append amounts pre (group :: rest)
      rw [← keyed_keys, hsplit] at hapart
      exact hapart
    rcases hcase with ⟨hmed, heq⟩ | ⟨hmed, heq⟩
    · refine absurd ?_ hmeet
      rw [heq]
      simpa [hmed] using hapart
    · have hrest : ((pre ++ rest).map (placesMedian amounts)).Nodup := by
        refine hapart.sublist (List.Sublist.map _ ?_)
        exact (List.Sublist.refl pre).append (List.sublist_cons_self group rest)
      have hmem : placesMedian amounts (group ++ [idx]) ∈ (pre ++ rest).map (placesMedian amounts) := by
        by_contra hnot
        refine hmeet ?_
        rw [heq, List.map_append, List.nodup_append]
        refine ⟨hrest, List.nodup_singleton _, fun a ha b hb => ?_⟩
        rw [List.map_singleton, List.mem_singleton] at hb
        rintro rfl
        exact hnot (hb ▸ ha)
      obtain ⟨old, hold, hmeets⟩ := List.mem_map.mp hmem
      obtain ⟨before, after, hsplit⟩ := List.append_of_mem hold
      have hmemgs : old ∈ pre ++ group :: rest := by
        rcases List.mem_append.mp hold with h | h
        · exact List.mem_append_left _ h
        · exact List.mem_append_right _ (List.mem_cons_of_mem _ h)
      obtain ⟨i, hi⟩ := List.exists_mem_of_ne_nil old fun hnil => hne (hnil ▸ hmemgs)
      refine ⟨i, List.mem_flatten.mpr ⟨old, hmemgs, hi⟩, ?_⟩
      have hpop : Clusters.pop (keyed amounts (pre ++ group :: rest)) (placesMedian amounts group) =
          keyed amounts before ++ (placesMedian amounts (group ++ [idx]), old) :: keyed amounts after := by
        rw [keyed_append]
        refine (Clusters.pop_key hkeys).trans ?_
        rw [← keyed_append, hsplit, keyed_append, ← hmeets]
        rfl
      have hbefore : ((keyed amounts before ++
          (placesMedian amounts (group ++ [idx]), old) :: keyed amounts after).map Prod.fst).Nodup := by
        rw [hsplit, ← keyed_keys, keyed_append] at hrest
        rw [← hmeets]
        exact hrest
      rw [bucketAmount_near (find_keyed_near hpre hgroup), if_pos hmed, hpop, Clusters.set_key hbefore]
      rw [heq, hsplit, List.append_assoc, List.cons_append] at hperm
      have honce := hperm.nodup_iff.mpr hplaces
      simp only [List.flatten_append, List.flatten_cons, List.flatten_nil, List.append_nil] at honce
      rw [List.nodup_append, List.nodup_append] at honce
      obtain ⟨-, ⟨-, -, hdisj⟩, hdisj'⟩ := honce
      intro e he hie
      rcases List.mem_append.mp he with he | he
      · obtain ⟨g, hg, rfl⟩ := List.mem_map.mp he
        exact hdisj' i (List.mem_flatten.mpr ⟨g, hg, hie⟩) i (List.mem_append_left _ hi) rfl
      · rcases List.mem_cons.mp he with rfl | he
        · exact hdisj i hi i (List.mem_append_right _ hie) rfl
        · obtain ⟨g, hg, rfl⟩ := List.mem_map.mp he
          exact hdisj i hi i (List.mem_append_left _ (List.mem_flatten.mpr ⟨g, hg, hie⟩)) rfl

/-- A place that is lost stays lost. -/
theorem bucketAmount_lost_of {clusters : Clusters} {i : ℕ} (h : ∀ e ∈ clusters, i ∉ e.2) (hne : i ≠ idx) :
    ∀ e ∈ bucketAmount id amounts clusters idx, i ∉ e.2 := by
  intro e he
  cases hfind : clusters.find? (fun e => near amounts idx e.1) with
  | none =>
    rw [bucketAmount_far hfind] at he
    rcases Clusters.mem_set he with he | rfl
    · exact h e he
    · simpa using hne
  | some entry =>
    obtain ⟨med, members⟩ := entry
    have hmembers : i ∉ members ++ [idx] := by
      simpa [hne] using h _ (List.mem_of_find?_eq_some hfind)
    rw [bucketAmount_near hfind] at he
    split_ifs at he
    · rcases Clusters.mem_set he with he | rfl
      · exact h e (Clusters.mem_pop he)
      · exact hmembers
    · rcases Clusters.mem_set he with he | rfl
      · exact h e he
      · exact hmembers

theorem bucketAmount_medians {clusters : Clusters} (h : ∀ e ∈ clusters, e.1 = placesMedian amounts e.2 ∧ e.2 ≠ []) :
    ∀ e ∈ bucketAmount id amounts clusters idx, e.1 = placesMedian amounts e.2 ∧ e.2 ≠ [] := by
  intro e he
  cases hfind : clusters.find? (fun e => near amounts idx e.1) with
  | none =>
    rw [bucketAmount_far hfind] at he
    rcases Clusters.mem_set he with he | rfl
    · exact h e he
    · exact ⟨(placesMedian_singleton amounts idx).symm, by simp⟩
  | some entry =>
    obtain ⟨med, members⟩ := entry
    rw [bucketAmount_near hfind] at he
    split_ifs at he with hmed
    · rcases Clusters.mem_set he with he | rfl
      · exact h e (Clusters.mem_pop he)
      · exact ⟨rfl, by simp⟩
    · rcases Clusters.mem_set he with he | rfl
      · exact h e he
      · exact ⟨(not_not.mp hmed).symm, by simp⟩

/-! ### The whole loop -/

/-- The dict after the first amounts. -/
def bucketed (amounts : List ℚ) (k : ℕ) : Clusters := (List.range k).foldl (bucketAmount id amounts) []

theorem bucketed_succ (amounts : List ℚ) (k : ℕ) :
    bucketed amounts (k + 1) = bucketAmount id amounts (bucketed amounts k) k := by
  rw [bucketed, List.range_succ, List.foldl_append]
  rfl

/-- No two groups come to one median. -/
def MediansApart (amounts : List ℚ) : Prop :=
  ∀ k ≤ amounts.length, ((groups amounts k).map (placesMedian amounts)).Nodup

instance (amounts : List ℚ) : Decidable (MediansApart amounts) := Nat.decidableBallLE _ _

/-- The clusters hold every place once, each under its members' median. -/
structure Partitioned (amounts : List ℚ) (clusters : Clusters) : Prop where
  places : (clusters.flatMap Prod.snd).Perm (List.range amounts.length)
  occupied : ∀ e ∈ clusters, e.2 ≠ []
  medians : ∀ e ∈ clusters, e.1 = placesMedian amounts e.2

theorem bucketed_medians (amounts : List ℚ) (k : ℕ) :
    ∀ e ∈ bucketed amounts k, e.1 = placesMedian amounts e.2 ∧ e.2 ≠ [] := by
  induction k with
  | zero => exact fun e he => absurd he List.not_mem_nil
  | succ k ih =>
    rw [bucketed_succ]
    exact bucketAmount_medians ih

/-- A place that is lost is in no cluster at the end. -/
theorem bucketed_lost {i k n : ℕ} (h : ∀ e ∈ bucketed amounts k, i ∉ e.2) (hi : i < k) (hkn : k ≤ n) :
    ∀ e ∈ bucketed amounts n, i ∉ e.2 := by
  induction n, hkn using Nat.le_induction with
  | base => exact h
  | succ n hle ih =>
    rw [bucketed_succ]
    exact bucketAmount_lost_of ih (by omega)

theorem bucketed_keyed {n : ℕ} (h : ∀ k ≤ n, ((groups amounts k).map (placesMedian amounts)).Nodup) :
    bucketed amounts n = keyed amounts (groups amounts n) := by
  induction n with
  | zero => rfl
  | succ n ih =>
    have hnext := h (n + 1) le_rfl
    rw [groups_succ] at hnext
    rw [bucketed_succ, groups_succ, ih fun k hk => h k (by omega), bucketAmount_keyed (h n (by omega)) hnext]

/-- As long as nothing is lost at the end, no two medians have met. -/
theorem apart_of_places (hnonneg : ∀ a ∈ amounts, 0 ≤ a)
    (hplaces : ∀ i < amounts.length, ∃ e ∈ bucketed amounts amounts.length, i ∈ e.2) : MediansApart amounts := by
  intro k
  induction k using Nat.strong_induction_on with
  | _ k ih =>
    intro hk
    cases k with
    | zero => exact List.nodup_nil
    | succ k =>
      by_contra hmeet
      have hbefore : ∀ j ≤ k, ((groups amounts j).map (placesMedian amounts)).Nodup :=
        fun j hj => ih j (by omega) (by omega)
      have hflat : ((groups amounts k).flatten ++ [k]).Nodup := by
        refine (((groups_perm amounts k).append_right [k]).nodup_iff).mpr ?_
        rw [← List.range_succ]
        exact List.nodup_range
      have hamt : 0 ≤ amounts.getD k 0 := by
        rw [List.getD_eq_getElem _ _ (by omega)]
        exact hnonneg _ (List.getElem_mem _)
      rw [groups_succ] at hmeet
      obtain ⟨i, hi, hlost⟩ := bucketAmount_lost (hbefore k le_rfl) (groups_ne_nil amounts k) hflat hamt hmeet
      rw [← bucketed_keyed hbefore, ← bucketed_succ] at hlost
      have hik : i < k := List.mem_range.mp ((groups_perm amounts k).mem_iff.mp hi)
      obtain ⟨e, he, hie⟩ := hplaces i (by omega)
      exact bucketed_lost hlost (by omega) hk e he hie

/-- Clustering loses nothing exactly where no two groups come to one median. -/
theorem bucketAmounts_partition_iff (amounts : List ℚ) (hnonneg : ∀ a ∈ amounts, 0 ≤ a) :
    Partitioned amounts (bucketAmounts id amounts) ↔ MediansApart amounts := by
  change Partitioned amounts (bucketed amounts amounts.length) ↔ _
  constructor
  · intro h
    refine apart_of_places hnonneg fun i hi => ?_
    exact List.mem_flatMap.mp (h.places.mem_iff.mpr (List.mem_range.mpr hi))
  · intro h
    refine ⟨?_, fun e he => (bucketed_medians amounts _ e he).2, fun e he => (bucketed_medians amounts _ e he).1⟩
    rw [bucketed_keyed h, keyed, List.flatMap_map]
    have hflat := groups_perm amounts amounts.length
    rwa [← List.flatMap_id] at hflat

/-- Three charges in two clusters. -/
theorem three_charges_kept : Partitioned [100, 121, 120] (bucketAmounts id [100, 121, 120]) :=
  (bucketAmounts_partition_iff [100, 121, 120] (by decide)).mpr (by decide +kernel)

/-- The charge of 120 joins the first and moves it to 110, and then the charge of 99 brings the second to 110 too. -/
theorem fourth_charge_overwrites :
    ¬ ∀ amounts : List ℚ, (∀ a ∈ amounts, 0 ≤ a) → Partitioned amounts (bucketAmounts id amounts) := by
  intro h
  have hplaces := (h [100, 121, 120, 99] (by decide)).places.mem_iff.mpr (List.mem_range.mpr (by decide : 0 < 4))
  have hclusters : bucketAmounts id [100, 121, 120, 99] = [(110, [1, 3])] := by decide +kernel
  rw [hclusters] at hplaces
  simp at hplaces

end Gdx
