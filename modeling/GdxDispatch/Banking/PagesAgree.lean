import GdxDispatch.Banking.FeedStatus
import Mathlib.Data.List.Dedup

/-! When two pages give a feed transaction the same status.

    The claimants are read from the whole table but inside the window of the page, so what stands of a chain of equal
    amounts at the window's edge is what the page lets in. A row that has a line in reach reads the same on two pages when
    both windows leave it the same line, or leave it none and hold equally many claimants and equally many lines. -/

namespace Gdx.FeedStatus
open Lib FeedMatch

variable {db : Database} {w : Window} {t : FeedTxn} {key : Key} {date : ℤ} {rows page page' : List FeedTxn}

instance : Std.Total Row.before where
  total r r' := by
    unfold Row.before
    omega

instance : IsTrans Row Row.before where
  trans r r' r'' := by
    unfold Row.before
    omega

/-! ### What the reads hold -/

/-- The window of a page reaches a day to either side of each of its rows. -/
theorem windowOf_spec {rows : List (Key × ℤ)} (h : (key, date) ∈ rows) :
    ∃ w, windowOf rows = some w ∧ ∀ d, |d - date| ≤ DATE_WINDOW_DAYS → w.holds key d = true := by
  have hdate : date ∈ rows.map Prod.snd := List.mem_map.mpr ⟨_, h, rfl⟩
  unfold windowOf
  cases hfirst : (rows.map Prod.snd).min? with
  | none =>
    rw [List.min?_eq_none_iff.mp hfirst] at hdate
    cases hdate
  | some first =>
    cases hlast : (rows.map Prod.snd).max? with
    | none =>
      rw [List.max?_eq_none_iff.mp hlast] at hdate
      cases hdate
    | some last =>
      have hlo := (List.min?_eq_some_iff.mp hfirst).2 date hdate
      have hhi := (List.max?_eq_some_iff.mp hlast).2 date hdate
      refine ⟨_, rfl, fun d hnear => ?_⟩
      have haccount : key.1 ∈ rows.map fun r => r.1.1 := List.mem_map.mpr ⟨_, h, rfl⟩
      have hamount : key.2 ∈ rows.map fun r => r.1.2 := List.mem_map.mpr ⟨_, h, rfl⟩
      rw [abs_le] at hnear
      simp only [Window.holds, haccount, hamount, true_and, decide_eq_true_eq]
      omega

theorem pageWindow_spec (ht : t ∈ page) (hkey : datable db t = some (key, date)) :
    ∃ w, pageWindow db page = some w ∧ ∀ d, |d - date| ≤ DATE_WINDOW_DAYS → w.holds key d = true :=
  windowOf_spec (List.mem_filterMap.mpr ⟨t, ht, hkey⟩)

/-- The claimants read are the undeleted rows of the table that the window holds. -/
theorem mem_claimRows {r : Row} : r ∈ claimRows db w ↔
    ∃ t ∈ db.txns, t.deleted = false ∧ datable db t = some (r.key, r.date) ∧ t.id = r.id ∧ w.holds r.key r.date := by
  rw [claimRows, List.mem_insertionSort, List.mem_filter, List.mem_filterMap]
  constructor
  · rintro ⟨⟨t, ht, hrow⟩, hholds⟩
    cases hdeleted : t.deleted with
    | true => simp [hdeleted] at hrow
    | false =>
      simp only [hdeleted, Bool.false_eq_true, if_false, Option.map_eq_some_iff] at hrow
      obtain ⟨k, hk, rfl⟩ := hrow
      exact ⟨t, ht, hdeleted, hk, rfl, hholds⟩
  · rintro ⟨t, ht, hdeleted, hk, hid, hholds⟩
    refine ⟨⟨t, ht, ?_⟩, hholds⟩
    simp only [hdeleted, Bool.false_eq_true, if_false, hk, Option.map_some, hid]

theorem mem_lineRows {r : Row} : r ∈ lineRows db w ↔
    ∃ l ∈ db.lines, r = ⟨(l.bankAccountId, l.amountCents), l.txnDate, l.id⟩ ∧ w.holds r.key r.date := by
  rw [lineRows, List.mem_insertionSort, List.mem_filter, List.mem_map]
  constructor
  · rintro ⟨⟨l, hl, rfl⟩, hholds⟩
    exact ⟨l, hl, rfl, hholds⟩
  · rintro ⟨l, hl, rfl, hholds⟩
    exact ⟨⟨l, hl, rfl⟩, hholds⟩

theorem claimRows_ids (db : Database) (w : Window) : ((claimRows db w).map Row.id).Nodup := by
  have hperm := (List.perm_insertionSort Row.before ((db.txns.filterMap fun t =>
    if t.deleted then none else (datable db t).map fun r => (⟨r.1, r.2, t.id⟩ : Row)).filter
      fun r => w.holds r.key r.date)).map Row.id
  refine hperm.nodup_iff.mpr (List.Nodup.sublist (List.filter_sublist.map Row.id) ?_)
  rw [List.Nodup, List.pairwise_map]
  refine List.Pairwise.filterMap _ (fun a a' hne b hb b' hb' => ?_) (List.pairwise_map.mp db.txn_ids)
  have hid : ∀ (a : FeedTxn) (b : Row),
      (if a.deleted then none else (datable db a).map fun r => (⟨r.1, r.2, a.id⟩ : Row)) = some b → b.id = a.id := by
    intro a b hb
    cases hdeleted : a.deleted with
    | true => simp [hdeleted] at hb
    | false =>
      simp only [hdeleted, Bool.false_eq_true, if_false, Option.map_eq_some_iff] at hb
      obtain ⟨k, -, rfl⟩ := hb
      rfl
  rwa [hid a b hb, hid a' b' hb']

theorem lineRows_ids (db : Database) (w : Window) : ((lineRows db w).map Row.id).Nodup := by
  have hperm := (List.perm_insertionSort Row.before ((db.lines.map fun l =>
    (⟨(l.bankAccountId, l.amountCents), l.txnDate, l.id⟩ : Row)).filter fun r => w.holds r.key r.date)).map Row.id
  refine hperm.nodup_iff.mpr (List.Nodup.sublist (List.filter_sublist.map Row.id) ?_)
  rw [List.map_map]
  exact db.line_ids

theorem byKey_ids {all : List Row} (hids : (all.map Row.id).Nodup) (key : Key) : ((byKey all key).map Prod.snd).Nodup := by
  unfold byKey
  rw [List.map_map]
  exact hids.sublist (List.filter_sublist.map Row.id)

theorem byKey_sorted {all : List Row} (hsorted : all.Pairwise Row.before) (key : Key) :
    (byKey all key).Pairwise fun r r' => r.1 ≤ r'.1 := by
  unfold byKey
  rw [List.pairwise_map]
  refine (hsorted.sublist List.filter_sublist).imp fun {r r'} hbefore => ?_
  rcases hbefore with hlt | ⟨heq, -⟩
  · exact hlt.le
  · exact heq.le

theorem claimRows_sorted (db : Database) (w : Window) : (claimRows db w).Pairwise Row.before :=
  List.pairwise_insertionSort _ _

theorem lineRows_sorted (db : Database) (w : Window) : (lineRows db w).Pairwise Row.before :=
  List.pairwise_insertionSort _ _

theorem mem_byKey {all : List Row} {id : ℕ} : (date, id) ∈ byKey all key ↔ ⟨key, date, id⟩ ∈ all := by
  unfold byKey
  rw [List.mem_map]
  constructor
  · rintro ⟨⟨k, d, i⟩, hmem, heq⟩
    cases heq
    obtain ⟨hmem, hkey⟩ := List.mem_filter.mp hmem
    have hkey : k = key := by simpa using hkey
    exact hkey ▸ hmem
  · exact fun hmem => ⟨_, List.mem_filter.mpr ⟨hmem, by simp⟩, rfl⟩

/-! ### What the groups add up to -/

/-- Outside its claimants a group assigns nothing and finds nothing ambiguous. -/
theorem solve_outside (db : Database) (w : Window) (key : Key) {c : ℕ}
    (hc : c ∉ (byKey (claimRows db w) key).map Prod.snd) :
    (solve (byKey (claimRows db w) key) (byKey (lineRows db w) key)).line c = none ∧
      c ∉ (solve (byKey (claimRows db w) key) (byKey (lineRows db w) key)).ambiguous := by
  obtain ⟨seen, hsolving, -⟩ := solving_solve (byKey_ids (claimRows_ids db w) key) (byKey_ids (lineRows_ids db w) key)
    (byKey_sorted (claimRows_sorted db w) key) (byKey_sorted (lineRows_sorted db w) key)
  exact hsolving.fresh fun hseen => hc (hsolving.inside c hseen)

/-- What the groups say about one claimant is what its own group says. -/
structure Verdicts.Say (v : Verdicts) (c : ℕ) (line : Option ℕ) (isAmbiguous : Prop) (counts : Option (ℕ × ℕ)) : Prop where
  assigned : held v.assigned c = line
  ambiguous : c ∈ v.ambiguous ↔ isAmbiguous
  contention : held v.contention c = counts

theorem held_map_const {c : ℕ} {counts : ℕ × ℕ} (claimants : List (ℤ × ℕ)) :
    held (claimants.map fun p => (p.2, counts)) c = if c ∈ claimants.map Prod.snd then some counts else none := by
  induction claimants with
  | nil => rfl
  | cons p claimants ih =>
    have hcons : held ((p :: claimants).map fun p => (p.2, counts)) c =
        if p.2 = c then some counts else held (claimants.map fun p => (p.2, counts)) c := by
      unfold held
      rw [List.map_cons, List.find?_cons]
      by_cases hp : p.2 = c <;> simp [hp]
    rw [hcons, ih, List.map_cons]
    by_cases hp : p.2 = c
    · simp [hp]
    · have hp' : ¬ c = p.2 := fun h => hp h.symm
      simp only [List.mem_cons, hp, hp', false_or, if_false]

/-- A group of another key says nothing about the claimant. -/
theorem solveKey_other {v : Verdicts} {c : ℕ} {line : Option ℕ} {isAmbiguous : Prop} {counts : Option (ℕ × ℕ)}
    (h : v.Say c line isAmbiguous counts) (hc : c ∉ (byKey (claimRows db w) key).map Prod.snd) :
    (solveKey (claimRows db w) (lineRows db w) v key).Say c line isAmbiguous counts := by
  obtain ⟨hline, hflag⟩ := solve_outside db w key hc
  constructor
  · have hnone : held (solve (byKey (claimRows db w) key) (byKey (lineRows db w) key)).assigned c = none := hline
    rw [solveKey, held_append, hnone, Option.none_or]
    exact h.assigned
  · rw [solveKey, List.mem_append, ← h.ambiguous]
    exact ⟨fun hmem => hmem.resolve_left hflag, .inr⟩
  · rw [solveKey, held_append, held_map_const, if_neg hc, Option.none_or]
    exact h.contention

theorem foldl_other {c : ℕ} {line : Option ℕ} {isAmbiguous : Prop} {counts : Option (ℕ × ℕ)} (keys : List Key)
    {v : Verdicts} (h : v.Say c line isAmbiguous counts)
    (hc : ∀ key ∈ keys, c ∉ (byKey (claimRows db w) key).map Prod.snd) :
    (keys.foldl (solveKey (claimRows db w) (lineRows db w)) v).Say c line isAmbiguous counts := by
  induction keys generalizing v with
  | nil => exact h
  | cons key keys ih =>
    exact ih (solveKey_other h (hc key List.mem_cons_self)) fun k hk => hc k (List.mem_cons_of_mem _ hk)

/-- The claimant's own group decides. -/
theorem solveKey_own {v : Verdicts} {c : ℕ} (h : v.Say c none False none)
    (hc : c ∈ (byKey (claimRows db w) key).map Prod.snd) :
    (solveKey (claimRows db w) (lineRows db w) v key).Say c
      ((solve (byKey (claimRows db w) key) (byKey (lineRows db w) key)).line c)
      (c ∈ (solve (byKey (claimRows db w) key) (byKey (lineRows db w) key)).ambiguous)
      (some ((byKey (claimRows db w) key).length, (byKey (lineRows db w) key).length)) := by
  constructor
  · rw [solveKey, held_append, h.assigned, Option.or_none]
    rfl
  · rw [solveKey, List.mem_append, h.ambiguous, or_false]
  · rw [solveKey, held_append, held_map_const, if_pos hc, Option.some_or]

/-- What the page's groups say about a row that is no claimant. -/
theorem verdicts_outside {c : ℕ} (hc : c ∉ (claimRows db w).map Row.id) : (verdicts db w).Say c none False none := by
  refine foldl_other _ ⟨rfl, by simp, rfl⟩ fun key _ hmem => hc ?_
  obtain ⟨⟨d, i⟩, hrow, rfl⟩ := List.mem_map.mp hmem
  exact List.mem_map.mpr ⟨_, mem_byKey.mp hrow, rfl⟩

/-- What the page's groups say about a claimant. -/
theorem verdicts_own {c : ℕ} (hrow : ⟨key, date, c⟩ ∈ claimRows db w) :
    (verdicts db w).Say c ((solve (byKey (claimRows db w) key) (byKey (lineRows db w) key)).line c)
      (c ∈ (solve (byKey (claimRows db w) key) (byKey (lineRows db w) key)).ambiguous)
      (some ((byKey (claimRows db w) key).length, (byKey (lineRows db w) key).length)) := by
  have hkey : key ∈ ((claimRows db w).map Row.key).dedup := List.mem_dedup.mpr (List.mem_map.mpr ⟨_, hrow, rfl⟩)
  have hown : c ∈ (byKey (claimRows db w) key).map Prod.snd := List.mem_map.mpr ⟨_, mem_byKey.mpr hrow, rfl⟩
  have hother : ∀ key', key' ≠ key → c ∉ (byKey (claimRows db w) key').map Prod.snd := by
    intro key' hne hmem
    obtain ⟨⟨d, i⟩, hrow', rfl⟩ := List.mem_map.mp hmem
    have := List.inj_on_of_nodup_map (claimRows_ids db w) (mem_byKey.mp hrow') hrow rfl
    exact hne (congrArg Row.key this)
  obtain ⟨before, after, hsplit⟩ := List.append_of_mem hkey
  have hnodup := List.nodup_dedup ((claimRows db w).map Row.key)
  rw [hsplit, List.nodup_append, List.nodup_cons] at hnodup
  obtain ⟨-, ⟨hafter, -⟩, hdisjoint⟩ := hnodup
  unfold verdicts
  rw [hsplit, List.foldl_append, List.foldl_cons]
  refine foldl_other after (solveKey_own (foldl_other before ⟨rfl, by simp, rfl⟩ fun key' hk => ?_) hown) fun key' hk => ?_
  · exact hother key' (hdisjoint key' hk key List.mem_cons_self)
  · exact hother key' fun heq => hafter (heq ▸ hk)

/-! ### The payload of one row -/

/-- A line of the row's account and amount at most a day away. -/
def Reached (db : Database) (key : Key) (date : ℤ) : Prop :=
  ∃ l ∈ db.lines, (l.bankAccountId, l.amountCents) = key ∧ |l.txnDate - date| ≤ DATE_WINDOW_DAYS

/-- What a row reads where no line can be its own: whether a statement covers its date. -/
def coveragePayload (db : Database) (account : ℕ) (date : ℤ) : Payload :=
  if (db.imports.filter fun i => i.voided = false).any fun i =>
    i.bankAccountId = account ∧ i.periodStart ≤ date ∧ date ≤ i.periodEnd then .unmatched else .feedOnly

/-- The match that confirms a line. -/
def confirmedMatch (db : Database) (line : ℕ) : Option MatchLine :=
  (db.matchLines.filter MatchLine.confirmed).reverse.find? fun m => m.lineId = line

theorem covered_eq (hkey : key.1 ∈ w.bankAccountIds) :
    (if covered db w key.1 date then Payload.unmatched else .feedOnly) = coveragePayload db key.1 date := by
  have hsame : covered db w key.1 date = (db.imports.filter fun i => i.voided = false).any fun i =>
      i.bankAccountId = key.1 ∧ i.periodStart ≤ date ∧ date ≤ i.periodEnd := by
    unfold covered
    rw [List.any_filter, List.any_filter]
    congr 1
    funext i
    by_cases haccount : i.bankAccountId = key.1
    · rw [haccount]
      simp [hkey]
    · simp [haccount]
  rw [hsame, coveragePayload]

theorem confirmedLine_eq {line : ℕ} (hline : line ∈ (lineRows db w).map Row.id) :
    confirmedLine db w line = confirmedMatch db line := by
  unfold confirmedLine confirmedMatch
  rw [← List.filter_reverse, ← List.filter_reverse, List.find?_filter, List.find?_filter]
  congr 1
  funext m
  by_cases hm : m.lineId = line
  · rw [hm]
    simp [hline]
  · simp [hm]

theorem payload_eq (hkey : datable db t = some (key, date)) :
    payload db (some w) t = linkedPayload (verdicts db w) (confirmedLine db w) (covered db w key.1 date) t.id := by
  unfold datable at hkey
  split at hkey
  · rename_i posted amount account hposted hamount haccount
    cases hpending : t.pending with
    | true => simp [hpending] at hkey
    | false =>
      simp only [hpending, Bool.false_eq_true, if_false, Option.some.injEq, Prod.mk.injEq] at hkey
      obtain ⟨rfl, rfl⟩ := hkey
      unfold payload
      rw [hpending, hposted, hamount, haccount]
      rfl
  · cases hkey

/-- A claimant reaches a line of its group exactly when the table has one a day away at most. -/
theorem edges_ne_nil (hrow : ⟨key, date, t.id⟩ ∈ claimRows db w)
    (hholds : ∀ d, |d - date| ≤ DATE_WINDOW_DAYS → w.holds key d = true) :
    edges (byKey (claimRows db w) key) (byKey (lineRows db w) key) t.id ≠ [] ↔ Reached db key date := by
  rw [Ne, List.eq_nil_iff_forall_not_mem, not_forall]
  simp only [not_not]
  constructor
  · rintro ⟨l, hl⟩
    obtain ⟨d, e, hd, he, hnear⟩ := (mem_edges (byKey_ids (claimRows_ids db w) key)).mp hl
    obtain rfl := date_unique (byKey_ids (claimRows_ids db w) key) hd (mem_byKey.mpr hrow)
    obtain ⟨line, hline, heq, -⟩ := mem_lineRows.mp (mem_byKey.mp he)
    cases heq
    exact ⟨line, hline, rfl, hnear⟩
  · rintro ⟨line, hline, rfl, hnear⟩
    refine ⟨line.id, (mem_edges (byKey_ids (claimRows_ids db w) _)).mpr ⟨date, line.txnDate, mem_byKey.mpr hrow, ?_, hnear⟩⟩
    exact mem_byKey.mpr (mem_lineRows.mpr ⟨line, hline, rfl, hholds _ hnear⟩)

/-- A deleted row is no claimant; nor does it matter to one without a line in reach what the window holds. -/
theorem payload_uncontested (ht : t ∈ db.txns) (hkey : datable db t = some (key, date))
    (hholds : ∀ d, |d - date| ≤ DATE_WINDOW_DAYS → w.holds key d = true) (h : t.deleted = true ∨ ¬ Reached db key date) :
    payload db (some w) t = coveragePayload db key.1 date := by
  have hself := hholds date (by simp [DATE_WINDOW_DAYS])
  have haccount : key.1 ∈ w.bankAccountIds := (of_decide_eq_true hself).1
  have hsay : ∃ counts, (verdicts db w).Say t.id none False counts := by
    by_cases hclaim : t.id ∈ (claimRows db w).map Row.id
    swap
    · exact ⟨none, verdicts_outside hclaim⟩
    obtain ⟨⟨k, d, i⟩, hrow, hi⟩ := List.mem_map.mp hclaim
    obtain rfl : i = t.id := hi
    obtain ⟨t', ht', hdeleted, hk, hid, -⟩ := mem_claimRows.mp hrow
    obtain rfl : t' = t := List.inj_on_of_nodup_map db.txn_ids ht' ht hid
    obtain ⟨rfl, rfl⟩ : key = k ∧ date = d := by
      rw [hkey] at hk
      cases hk
      exact ⟨rfl, rfl⟩
    have hedges := not_not.mp (mt (edges_ne_nil hrow hholds).mp (h.resolve_left (by simp [hdeleted])))
    obtain ⟨seen, hsolving, -⟩ := solving_solve (byKey_ids (claimRows_ids db w) key)
      (byKey_ids (lineRows_ids db w) key) (byKey_sorted (claimRows_sorted db w) key)
      (byKey_sorted (lineRows_sorted db w) key)
    obtain ⟨hline, hflag⟩ := hsolving.unreached hedges
    have hsays := verdicts_own hrow
    exact ⟨_, hsays.assigned.trans hline, hsays.ambiguous.trans (iff_false_intro hflag), hsays.contention⟩
  obtain ⟨counts, hassigned, hflag, -⟩ := hsay
  rw [payload_eq hkey, linkedPayload, if_neg fun hmem => hflag.mp hmem, hassigned]
  exact covered_eq haccount

/-- A claimant with a line in reach: the line its chain in the window leaves it, or how many contend there. -/
theorem payload_contested (ht : t ∈ db.txns) (hkey : datable db t = some (key, date)) (hdeleted : t.deleted = false)
    (hholds : ∀ d, |d - date| ≤ DATE_WINDOW_DAYS → w.holds key d = true) (h : Reached db key date) :
    (∀ l, Gets (byKey (claimRows db w) key) (byKey (lineRows db w) key) t.id l →
      payload db (some w) t = pairedPayload l (confirmedMatch db l)) ∧
    ((∀ l, ¬ Gets (byKey (claimRows db w) key) (byKey (lineRows db w) key) t.id l) →
      payload db (some w) t =
        .ambiguous (byKey (claimRows db w) key).length (byKey (lineRows db w) key).length) := by
  have hrow : ⟨key, date, t.id⟩ ∈ claimRows db w :=
    mem_claimRows.mpr ⟨t, ht, hdeleted, hkey, rfl, hholds date (by simp [DATE_WINDOW_DAYS])⟩
  have hmem : t.id ∈ (byKey (claimRows db w) key).map Prod.snd := List.mem_map.mpr ⟨_, mem_byKey.mpr hrow, rfl⟩
  obtain ⟨seen, hsolving, hseen⟩ := solving_solve (byKey_ids (claimRows_ids db w) key)
    (byKey_ids (lineRows_ids db w) key) (byKey_sorted (claimRows_sorted db w) key)
    (byKey_sorted (lineRows_sorted db w) key)
  obtain ⟨hgets, hflag⟩ := hsolving.reached (hseen hmem) ((edges_ne_nil hrow hholds).mpr h)
  obtain ⟨hassigned, hambiguous, hcontention⟩ := verdicts_own hrow
  rw [payload_eq hkey, linkedPayload, hassigned, hcontention]
  constructor
  · intro l hl
    have hline := (hgets l).mpr hl
    have hclear : t.id ∉ (verdicts db w).ambiguous := fun hin => by
      cases hline.symm.trans (hflag.mp (hambiguous.mp hin))
    have hread : l ∈ (lineRows db w).map Row.id := by
      obtain ⟨comp, things, hcomp, -, hheld⟩ := hl
      obtain ⟨-, hmem, -⟩ := mem_firstFit (mem_of_held hheld)
      obtain ⟨⟨e, _⟩, hread, rfl⟩ := List.mem_map.mp hmem
      exact List.mem_map.mpr ⟨_, mem_byKey.mp hread, rfl⟩
    rw [if_neg hclear, hline, ← confirmedLine_eq hread]
  · intro hnone
    have hline : (solve (byKey (claimRows db w) key) (byKey (lineRows db w) key)).line t.id = none :=
      Option.eq_none_iff_forall_ne_some.mpr fun l hl => hnone l ((hgets l).mp hl)
    rw [if_pos (hambiguous.mpr (hflag.mpr hline))]
    rfl

theorem pairedPayload_injective {l l' : ℕ} (h : pairedPayload l (confirmedMatch db l) = pairedPayload l' (confirmedMatch db l')) :
    l = l' := by
  revert h
  cases confirmedMatch db l <;> cases confirmedMatch db l' <;> intro h <;> injection h

theorem pairedPayload_ne_ambiguous (l : ℕ) (m : Option MatchLine) (claimants lines : ℕ) :
    pairedPayload l m ≠ .ambiguous claimants lines := by
  cases m <;> exact fun h => by cases h

/-! ### Two pages -/

/-- The claimants of an account and amount inside the window of a page. -/
def pageClaimants (db : Database) (page : List FeedTxn) (key : Key) : List (ℤ × ℕ) :=
  match pageWindow db page with
  | none => []
  | some w => byKey (claimRows db w) key

/-- The lines of an account and amount inside the window of a page. -/
def pageLines (db : Database) (page : List FeedTxn) (key : Key) : List (ℤ × ℕ) :=
  match pageWindow db page with
  | none => []
  | some w => byKey (lineRows db w) key

/-- Both pages leave the row the same, as they do when their windows hold the same claimants and lines of its account and
    amount (`steady_of_same`). Exactly: it cannot be compared, is deleted, or no line of its account and amount is a day
    away at most; or its chain in both windows has lines enough and leaves it the same line; or it is left without one in
    both, and both hold equally many claimants and equally many lines. -/
def Steady (db : Database) (page page' : List FeedTxn) (t : FeedTxn) : Prop :=
  ∀ key date, datable db t = some (key, date) → t.deleted = false → Reached db key date →
    (∃ l, Gets (pageClaimants db page key) (pageLines db page key) t.id l ∧
      Gets (pageClaimants db page' key) (pageLines db page' key) t.id l) ∨
    ((∀ l, ¬ Gets (pageClaimants db page key) (pageLines db page key) t.id l) ∧
      (∀ l, ¬ Gets (pageClaimants db page' key) (pageLines db page' key) t.id l) ∧
      (pageClaimants db page key).length = (pageClaimants db page' key).length ∧
      (pageLines db page key).length = (pageLines db page' key).length)

/-- Pages whose windows hold the same of the row's account and amount leave it the same. -/
theorem steady_of_same (h : ∀ key date, datable db t = some (key, date) →
    pageClaimants db page key = pageClaimants db page' key ∧ pageLines db page key = pageLines db page' key) :
    Steady db page page' t := by
  intro key date hkey _ _
  obtain ⟨hclaims, hlines⟩ := h key date hkey
  rw [hclaims, hlines]
  by_cases hgets : ∃ l, Gets (pageClaimants db page' key) (pageLines db page' key) t.id l
  · obtain ⟨l, hl⟩ := hgets
    exact .inl ⟨l, hl, hl⟩
  · have hnone := not_exists.mp hgets
    exact .inr ⟨hnone, hnone, rfl, rfl⟩

/-- A row that cannot be compared reads the same whatever the window. -/
theorem payload_undatable (hkey : datable db t = none) (w w' : Option Window) : payload db w t = payload db w' t := by
  unfold datable at hkey
  unfold payload
  cases hpending : t.pending with
  | true => rfl
  | false =>
    rw [if_neg Bool.false_ne_true, if_neg Bool.false_ne_true]
    cases hposted : t.postedDate with
    | none => rfl
    | some posted =>
      cases hamount : t.amountCents with
      | none => rfl
      | some amount =>
        cases haccount : db.bankAccountId t.accountId with
        | none => rfl
        | some account =>
          rw [hposted, hamount, haccount, hpending] at hkey
          cases hkey

theorem payload_same_iff (ht : t ∈ db.txns) (hpage : t ∈ page) (hpage' : t ∈ page') :
    payload db (pageWindow db page) t = payload db (pageWindow db page') t ↔ Steady db page page' t := by
  cases hkey : datable db t with
  | none =>
    refine iff_of_true (payload_undatable hkey _ _) fun key date h => ?_
    cases hkey.symm.trans h
  | some r =>
    obtain ⟨key, date⟩ := r
    obtain ⟨w, hw, hholds⟩ := pageWindow_spec hpage hkey
    obtain ⟨w', hw', hholds'⟩ := pageWindow_spec hpage' hkey
    have hsteady : Steady db page page' t ↔ (t.deleted = false → Reached db key date →
        (∃ l, Gets (byKey (claimRows db w) key) (byKey (lineRows db w) key) t.id l ∧
          Gets (byKey (claimRows db w') key) (byKey (lineRows db w') key) t.id l) ∨
        ((∀ l, ¬ Gets (byKey (claimRows db w) key) (byKey (lineRows db w) key) t.id l) ∧
          (∀ l, ¬ Gets (byKey (claimRows db w') key) (byKey (lineRows db w') key) t.id l) ∧
          (byKey (claimRows db w) key).length = (byKey (claimRows db w') key).length ∧
          (byKey (lineRows db w) key).length = (byKey (lineRows db w') key).length)) := by
      unfold Steady pageClaimants pageLines
      rw [hw, hw']
      constructor
      · exact fun h => h key date hkey
      · intro h key' date' hkey'
        cases hkey.symm.trans hkey'
        exact h
    rw [hsteady, hw, hw']
    by_cases hcontested : t.deleted = true ∨ ¬ Reached db key date
    · rw [payload_uncontested ht hkey hholds hcontested, payload_uncontested ht hkey hholds' hcontested]
      refine iff_of_true rfl fun hdeleted hreached => ?_
      rcases hcontested with h | h
      · rw [h] at hdeleted
        cases hdeleted
      · exact absurd hreached h
    · obtain ⟨hdeleted, hreached⟩ := not_or.mp hcontested
      rw [Bool.not_eq_true] at hdeleted
      rw [not_not] at hreached
      obtain ⟨hpaired, hnone⟩ := payload_contested ht hkey hdeleted hholds hreached
      obtain ⟨hpaired', hnone'⟩ := payload_contested ht hkey hdeleted hholds' hreached
      constructor
      · intro heq _ _
        by_cases hgets : ∃ l, Gets (byKey (claimRows db w) key) (byKey (lineRows db w) key) t.id l
        · obtain ⟨l, hl⟩ := hgets
          rw [hpaired l hl] at heq
          by_cases hgets' : ∃ l, Gets (byKey (claimRows db w') key) (byKey (lineRows db w') key) t.id l
          · obtain ⟨l', hl'⟩ := hgets'
            rw [hpaired' l' hl'] at heq
            exact .inl ⟨l, hl, pairedPayload_injective heq ▸ hl'⟩
          · rw [hnone' (not_exists.mp hgets')] at heq
            exact absurd heq (pairedPayload_ne_ambiguous _ _ _ _)
        · rw [hnone (not_exists.mp hgets)] at heq
          by_cases hgets' : ∃ l, Gets (byKey (claimRows db w') key) (byKey (lineRows db w') key) t.id l
          · obtain ⟨l', hl'⟩ := hgets'
            rw [hpaired' l' hl'] at heq
            exact absurd heq.symm (pairedPayload_ne_ambiguous _ _ _ _)
          · rw [hnone' (not_exists.mp hgets')] at heq
            injection heq with hclaims hlines
            exact .inr ⟨not_exists.mp hgets, not_exists.mp hgets', hclaims, hlines⟩
      · intro h
        rcases h hdeleted hreached with ⟨l, hl, hl'⟩ | ⟨hnot, hnot', hclaims, hlines⟩
        · rw [hpaired l hl, hpaired' l hl']
        · rw [hnone hnot, hnone' hnot', hclaims, hlines]

/-- Two pages give a row the same payload exactly where both leave it the same. -/
theorem pages_agree_iff (db : Database) (page page' : List FeedTxn) (hrows : ∀ r ∈ page, r ∈ db.txns)
    (hrows' : ∀ r ∈ page', r ∈ db.txns) (t : FeedTxn) (ht : t ∈ page) (ht' : t ∈ page') :
    (∀ x y, (t.id, x) ∈ computeStatuses db page → (t.id, y) ∈ computeStatuses db page' → x = y) ↔
      Steady db page page' t := by
  have hread : ∀ p : List FeedTxn, (∀ r ∈ p, r ∈ db.txns) → t ∈ p → ∀ x,
      (t.id, x) ∈ computeStatuses db p ↔ x = payload db (pageWindow db p) t := by
    intro p hp htp x
    unfold computeStatuses
    rw [List.mem_map]
    constructor
    · rintro ⟨r, hr, heq⟩
      injection heq with hid hx
      obtain rfl := List.inj_on_of_nodup_map db.txn_ids (hp r hr) (hp t htp) hid
      exact hx.symm
    · rintro rfl
      exact ⟨t, htp, rfl⟩
  rw [← payload_same_iff (hrows t ht) ht ht']
  constructor
  · exact fun h => h _ _ ((hread page hrows ht _).mpr rfl) ((hread page' hrows' ht' _).mpr rfl)
  · intro h x y hx hy
    rw [(hread page hrows ht x).mp hx, (hread page' hrows' ht' y).mp hy, h]

/-! ### The pages that disagree -/

/-- A charge, and the same again two days later; one line between them. Another was made before. -/
def twice : Database where
  txns := [⟨1, 5, some (-5000), false, some 0, false⟩, ⟨2, 5, some (-5000), false, some 2, false⟩,
    ⟨3, 5, some (-700), false, some (-3), false⟩]
  bankAccountId _ := some 9
  lines := [⟨7, 9, -5000, 1⟩]
  imports := []
  matchLines := []
  txn_ids := by decide
  line_ids := by decide

def firstCharge : FeedTxn := ⟨1, 5, some (-5000), false, some 0, false⟩

def secondCharge : FeedTxn := ⟨2, 5, some (-5000), false, some 2, false⟩

def earlierCharge : FeedTxn := ⟨3, 5, some (-700), false, some (-3), false⟩

theorem firstCharge_alone : Gets (pageClaimants twice [firstCharge] (9, -5000)) (pageLines twice [firstCharge] (9, -5000)) 1 7 := by
  have hclaims : pageClaimants twice [firstCharge] (9, -5000) = [(0, 1)] := by decide +kernel
  have hlines : pageLines twice [firstCharge] (9, -5000) = [(1, 7)] := by decide +kernel
  rw [hclaims, hlines]
  refine ⟨[1], [7], ⟨by decide, fun a => ⟨fun ha => ?_, fun hconn => hconn.mem_nodes List.mem_cons_self⟩, by decide,
    fun b => ?_⟩, by decide, by decide⟩
  · rw [List.mem_singleton.mp ha]
    exact Relation.ReflTransGen.refl
  · have hedges : (graph [(0, 1)] [(1, 7)]).edges 1 = [7] := by decide
    simp only [List.mem_singleton, exists_eq_left, hedges]

theorem firstCharge_contested (l : ℕ) : ¬ Gets (pageClaimants twice [firstCharge, secondCharge] (9, -5000))
    (pageLines twice [firstCharge, secondCharge] (9, -5000)) 1 l := by
  have hclaims : pageClaimants twice [firstCharge, secondCharge] (9, -5000) = [(0, 1), (2, 2)] := by decide +kernel
  have hlines : pageLines twice [firstCharge, secondCharge] (9, -5000) = [(1, 7)] := by decide +kernel
  rw [hclaims, hlines]
  rintro ⟨comp, things, hcomp, hfit, -⟩
  have hlink : (graph [(0, 1), (2, 2)] [(1, 7)]).Connected 1 2 :=
    Relation.ReflTransGen.single ⟨7, by decide, by decide⟩
  have hboth : [1, 2] ⊆ comp := by
    intro a ha
    rcases List.mem_cons.mp ha with rfl | ha
    · exact hcomp.root_mem
    · rw [List.mem_singleton.mp ha]
      exact (hcomp.comp_iff 2).mpr hlink
  have hthings : things ⊆ [7] := by
    intro b hb
    obtain ⟨a, -, hedge⟩ := (hcomp.things_iff b).mp hb
    obtain ⟨d, e, -, he, -⟩ := (mem_edges (by decide)).mp hedge
    have hline : b ∈ [((1 : ℤ), 7)].map Prod.snd := List.mem_map.mpr ⟨(e, b), he, rfl⟩
    exact hline
  have hlower := (List.subperm_of_subset (by decide : [1, 2].Nodup) hboth).length_le
  have hupper := (List.subperm_of_subset hcomp.things_nodup hthings).length_le
  simp only [List.length_cons, List.length_nil] at hlower hupper
  omega

/-- A charge alone on its page is verified; with the equal charge two days later on the page it is ambiguous. -/
theorem status_depends_on_page :
    ¬ ∀ (db : Database) (page page' : List FeedTxn), (∀ r ∈ page, r ∈ db.txns) → (∀ r ∈ page', r ∈ db.txns) →
      ∀ t ∈ page, t ∈ page' →
        ∀ x y, (t.id, x) ∈ computeStatuses db page → (t.id, y) ∈ computeStatuses db page' → x = y := by
  intro h
  have hrows : ∀ r ∈ [firstCharge], r ∈ twice.txns := by
    rintro r (_ | ⟨_, ⟨⟩⟩)
    exact List.mem_cons_self
  have hsame := h twice [firstCharge] [firstCharge, secondCharge] hrows (fun _ hr => List.mem_append_left [earlierCharge] hr)
    firstCharge List.mem_cons_self List.mem_cons_self _ _ List.mem_cons_self List.mem_cons_self
  have hsteady : Steady twice [firstCharge] [firstCharge, secondCharge] firstCharge :=
    (payload_same_iff List.mem_cons_self List.mem_cons_self List.mem_cons_self).mp hsame
  have hreached : Reached twice (9, -5000) 0 := ⟨⟨7, 9, -5000, 1⟩, List.mem_cons_self, rfl, by decide⟩
  rcases hsteady (9, -5000) 0 rfl rfl hreached with ⟨l, -, hl⟩ | ⟨hnone, -⟩
  · exact firstCharge_contested l hl
  · exact hnone 7 firstCharge_alone

/-- With the earlier charge on its page the window is wider, and the charge reads the same. -/
theorem firstCharge_steady :
    ∃ x, (1, x) ∈ computeStatuses twice [firstCharge] ∧ (1, x) ∈ computeStatuses twice [firstCharge, earlierCharge] := by
  have hsteady : Steady twice [firstCharge] [firstCharge, earlierCharge] firstCharge := by
    refine steady_of_same fun key date hkey => ?_
    obtain ⟨rfl, -⟩ : (9, -5000) = key ∧ (0 : ℤ) = date := Prod.mk.inj (Option.some.inj hkey)
    constructor <;> decide +kernel
  have hagree := (pages_agree_iff twice [firstCharge] [firstCharge, earlierCharge] (by simp [twice, firstCharge])
    (by simp [twice, firstCharge, earlierCharge]) firstCharge List.mem_cons_self List.mem_cons_self).mpr hsteady
  have hone : (1, payload twice (pageWindow twice [firstCharge]) firstCharge) ∈ computeStatuses twice [firstCharge] :=
    List.mem_cons_self
  have hother : (1, payload twice (pageWindow twice [firstCharge, earlierCharge]) firstCharge) ∈
      computeStatuses twice [firstCharge, earlierCharge] := List.mem_cons_self
  exact ⟨_, hone, hagree _ _ hone hother ▸ hother⟩

end Gdx.FeedStatus
