import GdxDispatch.Lib.Refold
import GdxDispatch.Forecasting.ObservedRecurring

/-! What a second run of the detector does.

    The second run reads the candidates of the first and finds a stream for each. It finds the one the first run wrote
    to unless a stream opened later in the first run also holds the candidate's median, since the newest stream wins. -/

namespace Gdx
open Lib

/-! ### A candidate's window holds its median -/

theorem floor_le_roundHalfEven (q : ℚ) : ⌊q⌋ ≤ roundHalfEven q := by
  unfold roundHalfEven
  split_ifs <;> omega

theorem roundHalfEven_le_floor (q : ℚ) : roundHalfEven q ≤ ⌊q⌋ + 1 := by
  unfold roundHalfEven
  split_ifs <;> omega

theorem roundHalfEven_mono {p q : ℚ} (h : p ≤ q) : roundHalfEven p ≤ roundHalfEven q := by
  rcases (Int.floor_mono h).lt_or_eq with hlt | heq
  · have hp := roundHalfEven_le_floor p
    have hq := floor_le_roundHalfEven q
    omega
  · -- One floor, so that the fractional parts decide.
    unfold roundHalfEven
    rw [heq]
    split_ifs <;> first | omega | linarith

theorem abs_roundHalfEven_sub_le (q : ℚ) : |(roundHalfEven q : ℚ) - q| ≤ 1 / 2 := by
  have hfloor := Int.floor_le q
  have hlt := Int.lt_floor_add_one q
  unfold roundHalfEven
  rw [abs_le]
  split_ifs <;> push_cast <;> constructor <;> linarith

/-- A double is within one part in `2 ^ 52` of what it rounds. -/
theorem abs_double_sub_le (q : ℚ) : |double q - q| ≤ |q| / 2 ^ 52 := by
  rcases eq_or_ne q 0 with rfl | hq
  · simp [double, roundHalfEven]
  · have hunit : 0 < ulp q := by
      unfold ulp
      positivity
    have hlog : ulp q * 2 ^ 52 ≤ |q| := by
      have h := Int.zpow_log_le_self (b := 2) one_lt_two (abs_pos.mpr hq)
      have hsplit : (2 : ℚ) ^ Int.log 2 |q| = ulp q * 2 ^ 52 := by
        rw [ulp, ← zpow_natCast, ← zpow_add₀ two_ne_zero]
        norm_num
      exact hsplit ▸ h
    have heq : double q - q = (roundHalfEven (q / ulp q) - q / ulp q) * ulp q := by
      rw [double, sub_mul, div_mul_cancel₀ q hunit.ne']
    calc |double q - q| = |(roundHalfEven (q / ulp q) : ℚ) - q / ulp q| * ulp q := by
          rw [heq, abs_mul, abs_of_pos hunit]
      _ ≤ 1 / 2 * ulp q := mul_le_mul_of_nonneg_right (abs_roundHalfEven_sub_le _) hunit.le
      _ ≤ |q| / 2 ^ 52 := by
          rw [le_div_iff₀ (by positivity)]
          linarith

theorem double_nonneg {q : ℚ} (h : 0 ≤ q) : 0 ≤ double q := by
  have := neg_le_of_abs_le (abs_double_sub_le q)
  rw [abs_of_nonneg h] at this
  linarith

theorem double_neg {q : ℚ} (h : q < 0) : double q < 0 := by
  have := le_of_abs_le (abs_double_sub_le q)
  rw [abs_of_neg h] at this
  linarith

theorem double_mul_le {m c : ℚ} (hm : 0 ≤ m) (hc : 0 ≤ c) (hle : c ≤ 9 / 10) : double (m * c) ≤ m := by
  have hround := le_of_abs_le (abs_double_sub_le (m * c))
  have hprod : m * c ≤ m * (9 / 10) := mul_le_mul_of_nonneg_left hle hm
  rw [abs_of_nonneg (mul_nonneg hm hc)] at hround
  linarith

theorem le_double_mul {m c : ℚ} (hm : 0 ≤ m) (hle : 11 / 10 ≤ c) : m ≤ double (m * c) := by
  have hround := neg_le_of_abs_le (abs_double_sub_le (m * c))
  have hprod : m * (11 / 10) ≤ m * c := mul_le_mul_of_nonneg_left hle hm
  rw [abs_of_nonneg (by linarith)] at hround
  linarith

/-- Only a median that is not negative is near anything, and what is near it is not negative either. -/
theorem near_nonneg {amt med : ℚ}
    (h : |double (amt - med)| ≤ double (double AMOUNT_BUCKET_TOLERANCE_PCT * med)) : 0 ≤ med ∧ 0 ≤ amt := by
  have htol : 0 < double AMOUNT_BUCKET_TOLERANCE_PCT ∧ double AMOUNT_BUCKET_TOLERANCE_PCT ≤ 9 / 10 := by
    decide +kernel
  have hmed : 0 ≤ med := by
    by_contra hneg
    have := double_neg (mul_neg_of_pos_of_neg htol.1 (not_le.mp hneg))
    have := abs_nonneg (double (amt - med))
    linarith
  refine ⟨hmed, ?_⟩
  by_contra hneg
  -- The difference is more than the median, and the tolerance a good deal less.
  have hdiff : amt - med < 0 := by linarith
  have hround := le_of_abs_le (abs_double_sub_le (amt - med))
  have hnear := neg_le_of_abs_le h
  have htop := le_of_abs_le (abs_double_sub_le (double AMOUNT_BUCKET_TOLERANCE_PCT * med))
  have hprod := mul_le_mul_of_nonneg_right htol.2 hmed
  rw [abs_of_neg hdiff] at hround
  rw [abs_of_nonneg (mul_nonneg htol.1.le hmed)] at htop
  linarith

theorem median_nonneg {fl : ℚ → ℚ} (hfl : ∀ q, 0 ≤ q → 0 ≤ fl q) {xs : List ℚ} (h : ∀ x ∈ xs, 0 ≤ x) :
    0 ≤ median fl xs := by
  have hget : ∀ n, (0 : ℚ) ≤ (xs.insertionSort (· ≤ ·)).getD n 0 := by
    intro n
    rw [List.getD_eq_getElem?_getD]
    cases hn : (xs.insertionSort (· ≤ ·))[n]? with
    | none => exact le_rfl
    | some x => exact h x ((List.perm_insertionSort (· ≤ ·) xs).mem_iff.mp (List.mem_of_getElem? hn))
  unfold median
  dsimp only
  split_ifs
  · exact hget _
  · exact hfl _ (div_nonneg (hfl _ (add_nonneg (hget _) (hget _))) zero_le_two)

/-- A cluster of amounts: none of them negative, or one negative amount by itself. -/
def ClusterOk (amounts : List ℚ) (cluster : ℚ × List ℕ) : Prop :=
  (0 ≤ cluster.1 ∧ ∀ i ∈ cluster.2, 0 ≤ amounts.getD i 0) ∨ cluster.1 < 0 ∧ cluster.2.length = 1

theorem Clusters.mem_set {clusters : Clusters} {med : ℚ} {members : List ℕ} {entry : ℚ × List ℕ}
    (h : entry ∈ clusters.set med members) : entry ∈ clusters ∨ entry = (med, members) := by
  unfold Clusters.set at h
  split_ifs at h
  · obtain ⟨e, he, heq⟩ := List.mem_map.mp h
    split_ifs at heq
    · exact .inr heq.symm
    · exact .inl (heq ▸ he)
  · simpa using h

theorem Clusters.mem_pop {clusters : Clusters} {med : ℚ} {entry : ℚ × List ℕ} (h : entry ∈ clusters.pop med) :
    entry ∈ clusters :=
  (List.mem_filter.mp h).1

theorem bucketAmount_ok {amounts : List ℚ} {clusters : Clusters} (h : ∀ e ∈ clusters, ClusterOk amounts e) (idx : ℕ) :
    ∀ e ∈ bucketAmount double amounts clusters idx, ClusterOk amounts e := by
  intro e he
  simp only [bucketAmount] at he
  split at he
  · rename_i med members hfind
    have hfound := List.find?_some hfind
    obtain ⟨hmed, hamt⟩ := near_nonneg (of_decide_eq_true hfound)
    have hall : ∀ i ∈ members ++ [idx], 0 ≤ amounts.getD i 0 := by
      intro i hi
      rcases List.mem_append.mp hi with hi | hi
      · rcases h _ (List.mem_of_find?_eq_some hfind) with ⟨-, hm⟩ | ⟨hneg, -⟩
        · exact hm i hi
        · exact absurd hneg (not_lt.mpr hmed)
      · rw [List.mem_singleton.mp hi]
        exact hamt
    have hmed' : 0 ≤ median double ((members ++ [idx]).map fun i => amounts.getD i 0) :=
      median_nonneg (fun _ => double_nonneg) fun x hx => by
        obtain ⟨i, hi, rfl⟩ := List.mem_map.mp hx
        exact hall i hi
    split_ifs at he
    · rcases Clusters.mem_set he with he | rfl
      · exact h e (Clusters.mem_pop he)
      · exact .inl ⟨hmed', hall⟩
    · rcases Clusters.mem_set he with he | rfl
      · exact h e he
      · exact .inl ⟨hmed, hall⟩
  · rcases Clusters.mem_set he with he | rfl
    · exact h e he
    · rcases lt_or_ge (amounts.getD idx 0) 0 with hneg | hpos
      · exact .inr ⟨hneg, rfl⟩
      · exact .inl ⟨hpos, by simpa using hpos⟩

theorem bucketAmounts_ok (amounts : List ℚ) : ∀ e ∈ bucketAmounts double amounts, ClusterOk amounts e := by
  unfold bucketAmounts
  generalize List.range amounts.length = idxs
  have hrun : ∀ clusters : Clusters, (∀ e ∈ clusters, ClusterOk amounts e) →
      ∀ e ∈ idxs.foldl (bucketAmount double amounts) clusters, ClusterOk amounts e := by
    induction idxs with
    | nil => exact fun clusters h => h
    | cons idx idxs ih => exact fun clusters h => ih _ (bucketAmount_ok h idx)
  exact hrun [] (by simp)

theorem window_factors :
    0 ≤ double (1 - double AMOUNT_BUCKET_TOLERANCE_PCT) ∧ double (1 - double AMOUNT_BUCKET_TOLERANCE_PCT) ≤ 9 / 10 ∧
      11 / 10 ≤ double (1 + double AMOUNT_BUCKET_TOLERANCE_PCT) := by
  decide +kernel

/-- The window of a candidate holds its median. -/
def StreamCandidate.Centred (cand : StreamCandidate) : Prop :=
  cand.amountMin ≤ cand.medianAmount ∧ cand.medianAmount ≤ cand.amountMax

theorem clusterCandidate_centred {payeeNorm : String} {txns : List DatedTxn} {med : ℚ} {idxs : List ℕ}
    {cand : StreamCandidate} (h : clusterCandidate payeeNorm txns med idxs = some cand)
    (hok : ClusterOk (txns.map (dollars ·.amount)) (med, idxs)) : cand.Centred := by
  unfold clusterCandidate at h
  split at h
  · cases h
  · rename_i hlen
    have hmed : 0 ≤ med := by
      rcases hok with ⟨hmed, -⟩ | ⟨-, hone⟩
      · exact hmed
      · simp only [MIN_OCCURRENCES] at hlen hone
        omega
    dsimp only at h
    repeat' split at h
    all_goals try cases h
    constructor
    · exact roundHalfEven_mono (by linarith [double_mul_le hmed window_factors.1 window_factors.2.1])
    · exact roundHalfEven_mono (by linarith [le_double_mul hmed window_factors.2.2])

theorem findCandidates_centred (normalizePayee : String → String) (today : ℤ) (rows : List QBBankTransaction) :
    ∀ cand ∈ findCandidates normalizePayee today rows, cand.Centred := by
  intro cand hcand
  obtain ⟨⟨payeeNorm, txns⟩, -, hcand⟩ := List.mem_flatMap.mp hcand
  dsimp only at hcand
  split_ifs at hcand
  · simp at hcand
  · obtain ⟨⟨med, idxs⟩, hmem, hsome⟩ := List.mem_filterMap.mp hcand
    exact clusterCandidate_centred hsome (bucketAmounts_ok _ _ hmem)

/-! ### The streams a run opens

    The lookup reads the matchers only, and a run changes them only by opening streams. -/

def StreamTables.matchers (s : StreamTables) : List StreamMatcher := s.streams.map (·.toStreamMatcher)

/-- The stream that the lookup finds for a candidate, or the id of the one to be opened. -/
def streamFor (rows : List StreamMatcher) (cand : StreamCandidate) : ℕ :=
  match rows.find? (·.holds cand) with
  | none => freshStreamId rows
  | some m => m.id

/-- The matchers once a candidate has been written. -/
def withCandidate (rows : List StreamMatcher) (cand : StreamCandidate) : List StreamMatcher :=
  if rows.any (·.holds cand) then rows else (newStream (freshStreamId rows) cand).toStreamMatcher :: rows

/-- The streams opened for the candidates that find none, newest first. -/
def openedStreams (rows : List StreamMatcher) : List StreamCandidate → List StreamMatcher
  | [] => []
  | cand :: cands =>
    openedStreams (withCandidate rows cand) cands ++
      if rows.any (·.holds cand) then [] else [(newStream (freshStreamId rows) cand).toStreamMatcher]

/-- No stream opened for a candidate holds the median of an earlier candidate. -/
def OpensApart (rows : List StreamMatcher) : List StreamCandidate → Prop
  | [] => True
  | cand :: cands =>
    (∀ m ∈ openedStreams (withCandidate rows cand) cands, m.holds cand = false) ∧
      OpensApart (withCandidate rows cand) cands

theorem id_lt_freshStreamId {rows : List StreamMatcher} {m : StreamMatcher} (h : m ∈ rows) :
    m.id < freshStreamId rows := by
  unfold freshStreamId
  induction rows with
  | nil => simp at h
  | cons r rows ih =>
    simp only [List.map_cons, List.foldr_cons]
    rcases List.mem_cons.mp h with rfl | h
    · omega
    · have := ih h
      omega

theorem newStream_holds {cand : StreamCandidate} (h : cand.Centred) (n : ℕ) :
    (newStream n cand).toStreamMatcher.holds cand = true := by
  simp only [StreamMatcher.holds, newStream, decide_true, Bool.true_or, Bool.true_and, Bool.and_eq_true]
  exact ⟨decide_eq_true h.1, decide_eq_true h.2⟩

theorem mem_withCandidate {rows : List StreamMatcher} {m : StreamMatcher} (h : m ∈ rows) (cand : StreamCandidate) :
    m ∈ withCandidate rows cand := by
  unfold withCandidate
  split_ifs
  · exact h
  · exact List.mem_cons_of_mem _ h

theorem openedStreams_append (rows : List StreamMatcher) (cand : StreamCandidate) (cands : List StreamCandidate) :
    openedStreams rows (cand :: cands) ++ rows =
      openedStreams (withCandidate rows cand) cands ++ withCandidate rows cand := by
  simp only [openedStreams, withCandidate]
  split_ifs <;> simp

/-- Once written, a candidate finds the stream it was written to. -/
theorem find_withCandidate {cand : StreamCandidate} (h : cand.Centred) (rows : List StreamMatcher) :
    ∃ m, (withCandidate rows cand).find? (·.holds cand) = some m ∧ m.id = streamFor rows cand := by
  unfold withCandidate streamFor
  cases hfind : rows.find? (·.holds cand) with
  | none =>
    have hany : rows.any (·.holds cand) = false := by simpa using hfind
    simp only [hany, Bool.false_eq_true, if_false]
    exact ⟨_, List.find?_cons_of_pos (newStream_holds h _), rfl⟩
  | some m =>
    have hholds := List.find?_some hfind
    have hany : rows.any (·.holds cand) = true := List.any_eq_true.mpr ⟨m, List.mem_of_find?_eq_some hfind, hholds⟩
    rw [if_pos hany]
    exact ⟨m, hfind, rfl⟩

/-- A stream opened later has an id of its own. -/
theorem id_lt_openedStreams {cands : List StreamCandidate} :
    ∀ {rows : List StreamMatcher} {m r : StreamMatcher}, m ∈ openedStreams rows cands → r ∈ rows → r.id < m.id := by
  induction cands with
  | nil => exact fun hm _ => absurd hm List.not_mem_nil
  | cons cand cands ih =>
    intro rows m r hm hr
    rcases List.mem_append.mp hm with hm | hm
    · exact ih hm (mem_withCandidate hr cand)
    · split_ifs at hm
      · exact absurd hm List.not_mem_nil
      · rw [List.mem_singleton.mp hm]
        exact id_lt_freshStreamId hr

/-- Each candidate of a run finds a stream once the run is over. -/
theorem opened_holds {cands : List StreamCandidate} (h : ∀ cand ∈ cands, cand.Centred) :
    ∀ (rows : List StreamMatcher), ∀ cand ∈ cands, (openedStreams rows cands ++ rows).any (·.holds cand) = true := by
  induction cands with
  | nil => exact fun _ _ hc => absurd hc List.not_mem_nil
  | cons c cands ih =>
    intro rows cand hcand
    rw [openedStreams_append]
    rcases List.mem_cons.mp hcand with rfl | hcand
    · obtain ⟨m, hfind, -⟩ := find_withCandidate (h cand List.mem_cons_self) rows
      have hholds := List.find?_some hfind
      exact List.any_eq_true.mpr ⟨m, List.mem_append_right _ (List.mem_of_find?_eq_some hfind), hholds⟩
    · exact ih (fun d hd => h d (List.mem_cons_of_mem _ hd)) _ cand hcand

/-- For each candidate in turn, the stream it is written to. -/
def streamsFor (rows : List StreamMatcher) : List StreamCandidate → List ℕ
  | [] => []
  | cand :: cands => streamFor rows cand :: streamsFor (withCandidate rows cand) cands

/-- Where every candidate finds a stream, none is opened. -/
theorem openedStreams_of_any {rows : List StreamMatcher} {cands : List StreamCandidate}
    (h : ∀ cand ∈ cands, rows.any (·.holds cand) = true) : openedStreams rows cands = [] := by
  induction cands with
  | nil => rfl
  | cons cand cands ih =>
    have hc := h cand List.mem_cons_self
    simp [openedStreams, withCandidate, hc, ih fun c hc' => h c (List.mem_cons_of_mem _ hc')]

theorem streamsFor_of_any {rows : List StreamMatcher} {cands : List StreamCandidate}
    (h : ∀ cand ∈ cands, rows.any (·.holds cand) = true) : streamsFor rows cands = cands.map (streamFor rows) := by
  induction cands with
  | nil => rfl
  | cons cand cands ih =>
    have hc := h cand List.mem_cons_self
    simp [streamsFor, withCandidate, hc, ih fun c hc' => h c (List.mem_cons_of_mem _ hc')]

/-- After a run, a candidate still finds its stream exactly where no later stream holds it. -/
theorem streamFor_after {cand : StreamCandidate} (h : cand.Centred) (rows : List StreamMatcher)
    (cands : List StreamCandidate) :
    streamFor (openedStreams (withCandidate rows cand) cands ++ withCandidate rows cand) cand = streamFor rows cand ↔
      ∀ m ∈ openedStreams (withCandidate rows cand) cands, m.holds cand = false := by
  obtain ⟨own, hown, hid⟩ := find_withCandidate h rows
  cases hlater : (openedStreams (withCandidate rows cand) cands).find? (·.holds cand) with
  | none =>
    have hnone : ∀ m ∈ openedStreams (withCandidate rows cand) cands, m.holds cand = false := by
      simpa using hlater
    have hfor : streamFor (openedStreams (withCandidate rows cand) cands ++ withCandidate rows cand) cand = own.id := by
      simp only [streamFor, List.find?_append, hlater, hown, Option.none_or]
    exact ⟨fun _ => hnone, fun _ => hfor.trans hid⟩
  | some m =>
    have hm := List.mem_of_find?_eq_some hlater
    have hfor : streamFor (openedStreams (withCandidate rows cand) cands ++ withCandidate rows cand) cand = m.id := by
      simp only [streamFor, List.find?_append, hlater, Option.some_or]
    have hlt := id_lt_openedStreams hm (List.mem_of_find?_eq_some hown)
    constructor
    · intro heq
      omega
    · intro hall
      have hholds := List.find?_some hlater
      rw [hall m hm] at hholds
      cases hholds

/-- The candidates find the same streams again exactly when the run opened its streams apart. -/
theorem streamsFor_again {cands : List StreamCandidate} (h : ∀ cand ∈ cands, cand.Centred) :
    ∀ rows : List StreamMatcher,
      cands.map (streamFor (openedStreams rows cands ++ rows)) = streamsFor rows cands ↔ OpensApart rows cands := by
  induction cands with
  | nil => exact fun rows => ⟨fun _ => trivial, fun _ => rfl⟩
  | cons cand cands ih =>
    intro rows
    have hih := ih (fun c hc => h c (List.mem_cons_of_mem _ hc)) (withCandidate rows cand)
    rw [List.map_cons, openedStreams_append, streamsFor, List.cons.injEq, hih,
      streamFor_after (h cand List.mem_cons_self) rows cands]
    rfl

/-! ### A run on the tables -/

theorem upsertStreams_tables (s : StreamTables) (cands : List StreamCandidate) :
    (upsertStreams s cands).1 = cands.foldl upsertStream s := by
  unfold upsertStreams
  generalize (⟨0, 0, 0⟩ : UpsertCounts) = n
  induction cands generalizing s n with
  | nil => rfl
  | cons cand cands ih => exact ih _ _

theorem existing_eq (s : StreamTables) (cand : StreamCandidate) :
    s.matchers.find? (·.holds cand) = (s.existing cand).map (·.toStreamMatcher) := by
  simp [StreamTables.matchers, StreamTables.existing, List.find?_map]

theorem attachedTo_eq (s : StreamTables) (cand : StreamCandidate) : s.attachedTo cand = streamFor s.matchers cand := by
  unfold StreamTables.attachedTo streamFor
  rw [existing_eq]
  cases s.existing cand <;> rfl

theorem any_holds_eq (s : StreamTables) (cand : StreamCandidate) :
    s.matchers.any (·.holds cand) = (s.existing cand).isSome := by
  have h := congrArg Option.isSome (existing_eq s cand)
  rw [List.isSome_find?, Option.isSome_map] at h
  exact h

theorem matchers_upsertStream (s : StreamTables) (cand : StreamCandidate) :
    (upsertStream s cand).matchers = withCandidate s.matchers cand := by
  unfold withCandidate
  rw [any_holds_eq]
  unfold upsertStream
  cases hex : s.existing cand with
  | none => simp [StreamTables.matchers, StreamTables.attachedTo, hex]
  | some found =>
    simp only [StreamTables.matchers, List.map_map, Option.isSome_some, if_true]
    refine List.map_congr_left fun stream _ => ?_
    simp only [Function.comp_apply]
    split_ifs <;> rfl

theorem matchers_run (cands : List StreamCandidate) :
    ∀ s : StreamTables, (cands.foldl upsertStream s).matchers = openedStreams s.matchers cands ++ s.matchers := by
  induction cands with
  | nil => exact fun s => rfl
  | cons cand cands ih =>
    intro s
    rw [List.foldl_cons, ih, matchers_upsertStream, openedStreams_append]

theorem attachments_eq (cands : List StreamCandidate) :
    ∀ s : StreamTables, attachments s cands = streamsFor s.matchers cands := by
  induction cands with
  | nil => exact fun s => rfl
  | cons cand cands ih =>
    intro s
    rw [attachments, streamsFor, ih, attachedTo_eq, matchers_upsertStream]

/-! ### The streams after a run -/

/-- A candidate with the stream it is written to. -/
abbrev Refresh := ℕ × StreamCandidate

/-- The row of a stream once a candidate has been written. -/
def RecurringStream.refreshed (stream : RecurringStream) (r : Refresh) : RecurringStream :=
  if stream.id = r.1 then stream.refresh r.2 else stream

theorem refresh_refresh (x : RecurringStream) (c d : StreamCandidate) : (x.refresh d).refresh c = x.refresh c := by
  unfold RecurringStream.refresh
  by_cases h : x.status = .suggested <;> simp [h]

/-- The last candidate written to a stream leaves its own observations there, whatever stood there before. -/
theorem refreshes_last (rs : List Refresh) (x : RecurringStream) :
    (∀ y : RecurringStream, y.id = x.id → rs.foldl RecurringStream.refreshed y = y) ∨
      ∃ c, ∀ y, (y = x ∨ ∃ d, y = x.refresh d) → rs.foldl RecurringStream.refreshed y = x.refresh c := by
  induction rs with
  | nil => exact .inl fun y _ => rfl
  | cons r rs ih =>
    have hid : ∀ y, (y = x ∨ ∃ d, y = x.refresh d) → y.id = x.id := by
      rintro y (rfl | ⟨d, rfl⟩) <;> rfl
    by_cases hr : x.id = r.1
    · -- The row is refreshed here; what comes after leaves it so, or overwrites it.
      have hrow : ∀ y, (y = x ∨ ∃ d, y = x.refresh d) → y.refreshed r = x.refresh r.2 := by
        intro y hy
        rw [RecurringStream.refreshed, if_pos ((hid y hy).trans hr)]
        obtain rfl | ⟨d, rfl⟩ := hy
        · rfl
        · exact refresh_refresh x r.2 d
      right
      rcases ih with hrest | ⟨c, hc⟩
      · exact ⟨r.2, fun y hy => by rw [List.foldl_cons, hrow y hy]; exact hrest _ rfl⟩
      · exact ⟨c, fun y hy => by rw [List.foldl_cons, hrow y hy]; exact hc _ (.inr ⟨r.2, rfl⟩)⟩
    · have hrow : ∀ y : RecurringStream, y.id = x.id → y.refreshed r = y := by
        intro y hy
        rw [RecurringStream.refreshed, if_neg (hy ▸ hr)]
      refine ih.imp (fun hrest y hy => ?_) fun ⟨c, hc⟩ => ⟨c, fun y hy => ?_⟩
      · rw [List.foldl_cons, hrow y hy, hrest y hy]
      · rw [List.foldl_cons, hrow y (hid y hy), hc y hy]

theorem refreshes_twice (rs : List Refresh) (x : RecurringStream) :
    rs.foldl RecurringStream.refreshed (rs.foldl RecurringStream.refreshed x) =
      rs.foldl RecurringStream.refreshed x := by
  rcases refreshes_last rs x with hnone | ⟨c, hc⟩
  · rw [hnone x rfl, hnone x rfl]
  · rw [hc x (.inl rfl), hc _ (.inr ⟨c, rfl⟩)]

/-- Each candidate with the stream the run writes it to. -/
def refreshes (s : StreamTables) (cands : List StreamCandidate) : List Refresh := (attachments s cands).zip cands

theorem refreshes_cons (s : StreamTables) (cand : StreamCandidate) (cands : List StreamCandidate) :
    refreshes s (cand :: cands) = (s.attachedTo cand, cand) :: refreshes (upsertStream s cand) cands :=
  rfl

theorem refreshed_of_ne {stream : RecurringStream} {r : Refresh} (h : stream.id ≠ r.1) : stream.refreshed r = stream :=
  if_neg h

/-- One candidate opens at most one stream, and refreshes the row of its stream. -/
theorem streams_upsertStream (s : StreamTables) (cand : StreamCandidate) :
    ∃ new : List RecurringStream,
      (upsertStream s cand).streams = (new ++ s.streams).map (·.refreshed (s.attachedTo cand, cand)) ∧
        (∀ n ∈ new, ∀ m ∈ s.matchers, m.id < n.id) ∧
        ∃ m ∈ (upsertStream s cand).matchers, m.id = s.attachedTo cand := by
  unfold upsertStream
  cases hex : s.existing cand with
  | none =>
    have hto : s.attachedTo cand = freshStreamId s.matchers := by
      unfold StreamTables.attachedTo
      rw [hex]
      rfl
    refine ⟨[newStream (s.attachedTo cand) cand], ?_, ?_, ?_⟩
    · have hnew : (newStream (s.attachedTo cand) cand).refreshed (s.attachedTo cand, cand) =
          newStream (s.attachedTo cand) cand :=
        if_pos rfl
      have hold : s.streams.map (·.refreshed (s.attachedTo cand, cand)) = s.streams := by
        refine (List.map_congr_left fun stream hs => refreshed_of_ne ?_).trans (List.map_id _)
        have := id_lt_freshStreamId (List.mem_map_of_mem (f := (·.toStreamMatcher)) hs)
        rw [hto]
        exact this.ne
      simp only [List.singleton_append, List.map_cons, hnew, hold]
    · intro n hn m hm
      rw [List.mem_singleton.mp hn]
      show m.id < s.attachedTo cand
      rw [hto]
      exact id_lt_freshStreamId hm
    · exact ⟨_, List.mem_cons_self, rfl⟩
  | some found =>
    have hto : s.attachedTo cand = found.id := by
      unfold StreamTables.attachedTo
      rw [hex]
    have hmem : found ∈ s.streams := List.mem_of_find?_eq_some hex
    refine ⟨[], rfl, by simp, ?_⟩
    refine ⟨(found.refreshed (s.attachedTo cand, cand)).toStreamMatcher, ?_, ?_⟩
    · exact List.mem_map_of_mem (List.mem_map_of_mem (f := (·.refreshed (s.attachedTo cand, cand))) hmem)
    · rw [RecurringStream.refreshed, hto, if_pos rfl]
      rfl

/-- A run opens streams, and each row ends with the observations of the last candidate written to it. -/
theorem streams_run (cands : List StreamCandidate) :
    ∀ s : StreamTables, ∃ new : List RecurringStream,
      (cands.foldl upsertStream s).streams =
          (new ++ s.streams).map ((refreshes s cands).foldl RecurringStream.refreshed) ∧
        ∀ n ∈ new, ∀ m ∈ s.matchers, m.id < n.id := by
  induction cands with
  | nil => exact fun s => ⟨[], by simp [refreshes, attachments], by simp⟩
  | cons cand cands ih =>
    intro s
    obtain ⟨new, hstreams, hfresh, own, hown, hownId⟩ := streams_upsertStream s cand
    obtain ⟨later, hlater, hlaterFresh⟩ := ih (upsertStream s cand)
    refine ⟨later ++ new, ?_, ?_⟩
    · -- The streams opened later are untouched by this candidate: its stream was there before them.
      have hmap : later.map (·.refreshed (s.attachedTo cand, cand)) = later := by
        refine (List.map_congr_left fun n hn => refreshed_of_ne ?_).trans (List.map_id _)
        have := hlaterFresh n hn own hown
        simp only
        omega
      rw [List.foldl_cons, hlater, hstreams, refreshes_cons, List.append_assoc]
      conv_lhs => rw [← hmap, ← List.map_append, List.map_map]
      rfl
    · intro n hn m hm
      rcases List.mem_append.mp hn with hn | hn
      · refine hlaterFresh n hn m ?_
        rw [matchers_upsertStream]
        exact mem_withCandidate hm cand
      · exact hfresh n hn m hm

/-! ### The hits after a run -/

/-- The hit of a transaction is there. -/
def HitAttached (hits : List RecurringStreamHit) (hit : ℕ × String × ℤ × ℤ) : Prop :=
  hits.any (fun h => h.streamId = hit.1 && h.qbTxnId = hit.2.1) = true

theorem attachHit_sticks : Sticks (fun hits (hit : ℕ × String × ℤ × ℤ) => attachHit hit.1 hits hit.2) HitAttached where
  absorb h := if_pos h
  done hits hit := by
    unfold HitAttached attachHit
    split_ifs with h
    · exact h
    · simp
  keep := by
    intro hits i j h
    unfold HitAttached attachHit at *
    split_ifs
    · exact h
    · rw [List.any_append, h, Bool.true_or]

/-- The hits that a run attaches, in order. -/
def hitsOf (rs : List Refresh) : List (ℕ × String × ℤ × ℤ) := rs.flatMap fun r => r.2.txnIds.map (r.1, ·)

theorem hits_upsertStream (s : StreamTables) (cand : StreamCandidate) :
    (upsertStream s cand).hits = attachHits (s.attachedTo cand) s.hits cand.txnIds := by
  unfold upsertStream
  cases s.existing cand <;> rfl

theorem hits_run (cands : List StreamCandidate) :
    ∀ s : StreamTables, (cands.foldl upsertStream s).hits =
      (hitsOf (refreshes s cands)).foldl (fun hits hit => attachHit hit.1 hits hit.2) s.hits := by
  induction cands with
  | nil => exact fun s => rfl
  | cons cand cands ih =>
    intro s
    rw [List.foldl_cons, ih, hits_upsertStream, refreshes_cons]
    simp only [hitsOf, List.flatMap_cons, List.foldl_append, List.foldl_map, attachHits]

/-! ### The counts -/

theorem length_attachHit_le (streamId : ℕ) (hits : List RecurringStreamHit) (txn : String × ℤ × ℤ) :
    hits.length ≤ (attachHit streamId hits txn).length := by
  unfold attachHit
  split_ifs <;> simp

theorem length_attachHits_le (streamId : ℕ) (txnIds : List (String × ℤ × ℤ)) :
    ∀ hits : List RecurringStreamHit, hits.length ≤ (attachHits streamId hits txnIds).length := by
  induction txnIds with
  | nil => exact fun hits => le_rfl
  | cons txn txnIds ih => exact fun hits => (length_attachHit_le streamId hits txn).trans (ih _)

theorem length_streams_upsertStream (s : StreamTables) (cand : StreamCandidate) :
    (upsertStream s cand).streams.length = s.streams.length + if (s.existing cand).isNone then 1 else 0 := by
  unfold upsertStream
  cases s.existing cand <;> simp

/-- The counts say how many rows were added to each table. -/
theorem upsertStreams_counts (s : StreamTables) (cands : List StreamCandidate) :
    (upsertStreams s cands).1.streams.length = s.streams.length + (upsertStreams s cands).2.inserted ∧
      (upsertStreams s cands).1.hits.length = s.hits.length + (upsertStreams s cands).2.hitsAdded := by
  have hrun : ∀ (cands : List StreamCandidate) (s : StreamTables) (n : UpsertCounts),
      let last := cands.foldl (fun t cand => (upsertStream t.1 cand, UpsertCounts.add t.2 t.1 cand)) (s, n)
      last.1.streams.length + n.inserted = s.streams.length + last.2.inserted ∧
        last.1.hits.length + n.hitsAdded = s.hits.length + last.2.hitsAdded := by
    intro cands
    induction cands with
    | nil => exact fun s n => ⟨rfl, rfl⟩
    | cons cand cands ih =>
      intro s n
      have hrest := ih (upsertStream s cand) (n.add s cand)
      have hstreams := length_streams_upsertStream s cand
      have hhits : s.hits.length ≤ (upsertStream s cand).hits.length := by
        rw [hits_upsertStream]
        exact length_attachHits_le _ _ _
      simp only [List.foldl_cons, UpsertCounts.add] at hrest ⊢
      omega
  have h := hrun cands s ⟨0, 0, 0⟩
  simp only [add_zero] at h
  exact h

/-! ### The second run -/

/-- A second run leaves everything as the first left it: it opens no stream, adds no hit, changes no row, and attaches
    each candidate's transactions to the stream the first run attached them to. -/
structure SecondRunQuiet (normalizePayee : String → String) (today : ℤ) (rows : List QBBankTransaction)
    (s first : StreamTables) (second : StreamTables × UpsertCounts) : Prop where
  inserted : second.2.inserted = 0
  hitsAdded : second.2.hitsAdded = 0
  tables : second.1 = first
  attached : attachments first (findCandidates normalizePayee today rows) =
    attachments s (findCandidates normalizePayee today rows)

/-- The candidates are attached as before exactly when the first run opened its streams apart. -/
theorem attachments_again {cands : List StreamCandidate} (h : ∀ cand ∈ cands, cand.Centred) (s : StreamTables) :
    attachments (cands.foldl upsertStream s) cands = attachments s cands ↔ OpensApart s.matchers cands := by
  have hfound := opened_holds h s.matchers
  rw [attachments_eq, attachments_eq, matchers_run, streamsFor_of_any hfound, streamsFor_again h]

/-- Attached as before, the candidates leave the tables as they are. -/
theorem tables_again {cands : List StreamCandidate} (h : ∀ cand ∈ cands, cand.Centred) {s : StreamTables}
    (hto : attachments (cands.foldl upsertStream s) cands = attachments s cands) :
    cands.foldl upsertStream (cands.foldl upsertStream s) = cands.foldl upsertStream s := by
  have hrs : refreshes (cands.foldl upsertStream s) cands = refreshes s cands := by
    unfold refreshes
    rw [hto]
  obtain ⟨new, hfirst, -⟩ := streams_run cands s
  obtain ⟨new', hsecond, -⟩ := streams_run cands (cands.foldl upsertStream s)
  have hnone : new' = [] := by
    have hlen := congrArg List.length (matchers_run cands (cands.foldl upsertStream s))
    rw [matchers_run cands s, openedStreams_of_any (opened_holds h s.matchers), ← matchers_run cands s] at hlen
    simp only [StreamTables.matchers, List.length_map, List.nil_append] at hlen
    have hlen' := congrArg List.length hsecond
    simp only [List.length_map, List.length_append] at hlen'
    exact List.length_eq_zero_iff.mp (by omega)
  have hstreams : (cands.foldl upsertStream (cands.foldl upsertStream s)).streams =
      (cands.foldl upsertStream s).streams := by
    rw [hsecond, hnone, hrs, List.nil_append, hfirst, List.map_map]
    exact List.map_congr_left fun x _ => refreshes_twice _ x
  have hhits : (cands.foldl upsertStream (cands.foldl upsertStream s)).hits = (cands.foldl upsertStream s).hits := by
    rw [hits_run cands (cands.foldl upsertStream s), hrs, hits_run cands s]
    exact attachHit_sticks.run_twice _ _
  cases hlast : cands.foldl upsertStream (cands.foldl upsertStream s)
  cases hmid : cands.foldl upsertStream s
  simp_all

/-- **A second run of the detector is quiet exactly when** no stream that the first run opened holds the median of a
    candidate that came before it. -/
theorem second_run_quiet_iff (normalizePayee : String → String) (today : ℤ) (rows : List QBBankTransaction)
    (s : StreamTables) :
    SecondRunQuiet normalizePayee today rows s (runDetector normalizePayee today rows s).1
        (runDetector normalizePayee today rows (runDetector normalizePayee today rows s).1) ↔
      OpensApart s.matchers (findCandidates normalizePayee today rows) := by
  have hcentred := findCandidates_centred normalizePayee today rows
  have hfirst : (runDetector normalizePayee today rows s).1 =
      (findCandidates normalizePayee today rows).foldl upsertStream s :=
    upsertStreams_tables s _
  rw [← attachments_again hcentred s, ← hfirst]
  refine ⟨fun h => h.attached, fun h => ?_⟩
  generalize (runDetector normalizePayee today rows s).1 = first at hfirst h ⊢
  have hcounts : (runDetector normalizePayee today rows first).1.streams.length =
        first.streams.length + (runDetector normalizePayee today rows first).2.inserted ∧
      (runDetector normalizePayee today rows first).1.hits.length =
        first.hits.length + (runDetector normalizePayee today rows first).2.hitsAdded :=
    upsertStreams_counts first _
  have htables : (runDetector normalizePayee today rows first).1 = first := by
    rw [hfirst] at h ⊢
    exact (upsertStreams_tables _ _).trans (tables_again hcentred h)
  rw [htables] at hcounts
  exact ⟨by omega, by omega, htables, h⟩

/-! ### Two neighbouring amounts of one payee -/

def phoneTxn (qbTxnId : String) (day amount : ℤ) : QBBankTransaction :=
  ⟨qbTxnId, some day, some "PHONE.COM", amount, false⟩

/-- Three monthly payments of 100.00 and three of 125.00. -/
def phoneFeed : List QBBankTransaction :=
  [phoneTxn "A1" 20000 10000, phoneTxn "A2" 20030 10000, phoneTxn "A3" 20060 10000,
    phoneTxn "B1" 20005 12500, phoneTxn "B2" 20035 12500, phoneTxn "B3" 20065 12500]

def phoneFirst : StreamTables × UpsertCounts := runDetector id 20100 phoneFeed ⟨[], []⟩

def phoneSecond : StreamTables × UpsertCounts := runDetector id 20100 phoneFeed phoneFirst.1

theorem phoneSecond_hits :
    phoneSecond.2 = ⟨0, 2, 3⟩ ∧
      (phoneSecond.1.hits.filter (·.qbTxnId = "A1")).map (·.streamId) = [1, 2] := by
  decide +kernel

/-- The second run attaches the payments of 100.00 to the stream of those of 125.00 as well: the window of the newer
    stream reaches down to 100.00. -/
theorem second_run_attaches_again :
    ¬ ∀ (normalizePayee : String → String) (today : ℤ) (rows : List QBBankTransaction) (s : StreamTables),
      SecondRunQuiet normalizePayee today rows s (runDetector normalizePayee today rows s).1
        (runDetector normalizePayee today rows (runDetector normalizePayee today rows s).1) := by
  intro h
  have hadded : phoneSecond.2.hitsAdded = 0 := (h id 20100 phoneFeed ⟨[], []⟩).hitsAdded
  rw [phoneSecond_hits.1] at hadded
  cases hadded

end Gdx
