import GdxDispatch.Billing.FirstHour
import GdxDispatch.Billing.Sources

/-! What the claim records is what the line bills.

    The claim computes the restatement's delta before the stamp is written, the pricing computes it again after. The
    stamp changes one row, the closeout itself, and a closeout is never in the run it restates, so both read the same
    run; and the pricing sees the stamp as its own. -/

namespace Gdx
open Lib

variable {s : LaborBook} {c : CloseoutRow} {k : ℕ}

/-- The man-hours the invoice's own claim left on the closeout, 0 when it left none. -/
def claimedMan (s : LaborBook) (invoiceId : ℕ) (c : CloseoutRow) : ℚ :=
  match s.closeout? c.id with
  | some row => if row.billedInvoiceId = some invoiceId then row.manHoursBilled.getD 0 else 0
  | none => 0

/-! ### Hundredths -/

/-- A value of a column with two decimals. -/
def Hundredths (x : ℚ) : Prop := ∃ n : ℤ, x = n / 100

theorem HalfHours.hundredths {x : ℚ} (h : HalfHours x) : Hundredths x := by
  obtain ⟨n, rfl⟩ := h
  exact ⟨50 * n, by push_cast; ring⟩

theorem Hundredths.add {x y : ℚ} (hx : Hundredths x) (hy : Hundredths y) : Hundredths (x + y) := by
  obtain ⟨m, rfl⟩ := hx
  obtain ⟨n, rfl⟩ := hy
  exact ⟨m + n, by push_cast; ring⟩

theorem Hundredths.sub {x y : ℚ} (hx : Hundredths x) (hy : Hundredths y) : Hundredths (x - y) := by
  obtain ⟨m, rfl⟩ := hx
  obtain ⟨n, rfl⟩ := hy
  exact ⟨m - n, by push_cast; ring⟩

theorem Hundredths.max {x y : ℚ} (hx : Hundredths x) (hy : Hundredths y) : Hundredths (max x y) := by
  rcases max_cases x y with ⟨h, -⟩ | ⟨h, -⟩ <;> rw [h] <;> assumption

theorem Hundredths.min {x y : ℚ} (hx : Hundredths x) (hy : Hundredths y) : Hundredths (min x y) := by
  rcases min_cases x y with ⟨h, -⟩ | ⟨h, -⟩ <;> rw [h] <;> assumption

theorem Hundredths.sum {xs : List ℚ} (h : ∀ x ∈ xs, Hundredths x) : Hundredths xs.sum := by
  induction xs with
  | nil => exact ⟨0, by simp⟩
  | cons x xs ih =>
    rw [List.sum_cons]
    exact (h x List.mem_cons_self).add (ih fun y hy => h y (List.mem_cons_of_mem _ hy))

theorem Hundredths.quantize {x : ℚ} (h : Hundredths x) : quantizeHours x = x := by
  obtain ⟨n, rfl⟩ := h
  have hcents : (n : ℚ) / 100 * 100 = (n : ℚ) := by ring
  unfold quantizeHours
  simp only [hcents, Int.floor_intCast, sub_self]
  rw [if_pos (by norm_num)]

/-! ### The run behind a closeout -/

/-- The rows as their columns and `closeout_job` make them: distinct closeouts, each superseding an older one, and
    hours with two decimals, those of claims not negative. -/
structure LaborColumns (s : LaborBook) : Prop where
  ids : (s.closeouts.map CloseoutRow.id).Nodup
  older : ∀ c ∈ s.closeouts, ∀ p ∈ c.supersedesId, p < c.id
  claims : ∀ c ∈ s.closeouts, ∀ x ∈ c.manHoursBilled, Hundredths x ∧ 0 ≤ x
  quantities : ∀ i ∈ s.invoices, ∀ l ∈ i.lines, Hundredths l.quantity

/-- The closeout of an id, after another one is changed. -/
theorem closeout?_updateCloseout {f : CloseoutRow → CloseoutRow} (hf : ∀ r, (f r).id = r.id) {id j : ℕ} (hne : j ≠ id) :
    (s.updateCloseout id f).closeout? j = s.closeout? j := by
  unfold LaborBook.closeout? LaborBook.updateCloseout
  induction s.closeouts with
  | nil => rfl
  | cons r rows ih =>
    rw [List.map_cons, List.find?_cons, List.find?_cons, ih]
    by_cases hid : r.id = id
    · rw [if_pos hid, hf, hid, decide_eq_false (Ne.symm hne)]
    · rw [if_neg hid]

/-- The rows of the run are older than the closeout, so a change to it is not seen along the run. -/
theorem LaborColumns.run_update (h : LaborColumns s) {f : CloseoutRow → CloseoutRow} (hf : ∀ r, (f r).id = r.id)
    {id : ℕ} : ∀ (fuel : ℕ) (seen : List ℕ) (cur : CloseoutRow), cur ∈ s.closeouts → cur.id ≤ id →
      restatedFrom (s.updateCloseout id f) fuel seen cur = restatedFrom s fuel seen cur ∧
        ∀ r ∈ restatedFrom s fuel seen cur, r.id < id := by
  intro fuel
  induction fuel with
  | zero => exact fun seen cur hcur hle => ⟨rfl, fun r hr => absurd hr List.not_mem_nil⟩
  | succ fuel ih =>
    intro seen cur hcur hle
    rw [restatedFrom, restatedFrom]
    cases hsup : cur.supersedesId with
    | none => exact ⟨rfl, fun r hr => absurd hr List.not_mem_nil⟩
    | some priorId =>
      have hlt : priorId < id := (h.older cur hcur priorId hsup).trans_le hle
      simp only [closeout?_updateCloseout hf hlt.ne]
      by_cases hseen : priorId ∈ seen
      · simp [hseen]
      · rw [if_neg hseen, if_neg hseen]
        cases hprior : s.closeout? priorId with
        | none => simp
        | some prior =>
          have hmem : prior ∈ s.closeouts := List.mem_of_find?_eq_some hprior
          have hid : prior.id = priorId := by simpa using List.find?_some hprior
          obtain ⟨heq, hbelow⟩ := ih (priorId :: seen) prior hmem (hid ▸ hlt.le)
          have hrestates : restates (s.updateCloseout id f) cur prior = restates s cur prior := rfl
          refine ⟨by simp only [hrestates, heq], fun r hr => ?_⟩
          simp only at hr
          split at hr
          · rcases List.mem_cons.mp hr with rfl | hr
            · exact hid ▸ hlt
            · exact hbelow r hr
          · exact absurd hr List.not_mem_nil

/-- What the run has billed does not depend on the closeout's own stamp. -/
theorem LaborColumns.billedBefore_update (h : LaborColumns s) (hc : c ∈ s.closeouts) {f : CloseoutRow → CloseoutRow}
    (hf : ∀ r, (f r).id = r.id) :
    closeoutHoursBilledBefore (s.updateCloseout c.id f) c = closeoutHoursBilledBefore s c := by
  have hlength : (s.updateCloseout c.id f).closeouts.length = s.closeouts.length := List.length_map _
  obtain ⟨heq, hbelow⟩ := h.run_update hf s.closeouts.length [] c hc le_rfl
  unfold closeoutHoursBilledBefore restatedRun billedOver
  rw [hlength, heq]
  have hholder : ∀ r ∈ restatedFrom s s.closeouts.length [] c,
      closeoutHoursHolder (s.updateCloseout c.id f) r = closeoutHoursHolder s r := by
    intro r hr
    unfold closeoutHoursHolder
    rw [closeout?_updateCloseout hf (hbelow r hr).ne]
    rfl
  have hclaim : ∀ r ∈ restatedFrom s s.closeouts.length [] c,
      claimManHours (s.updateCloseout c.id f) r = claimManHours s r := by
    intro r hr
    unfold claimManHours
    rw [closeout?_updateCloseout hf (hbelow r hr).ne]
  rw [List.filter_congr fun r hr => by rw [hholder r hr]]
  congr 1
  exact List.map_congr_left fun r hr => hclaim r (List.mem_of_mem_filter hr)

theorem LaborColumns.claimManHours (h : LaborColumns s) (r : CloseoutRow) :
    Hundredths (claimManHours s r) ∧ 0 ≤ Gdx.claimManHours s r := by
  unfold Gdx.claimManHours
  have hown : Hundredths (closeoutManHours r) ∧ 0 ≤ closeoutManHours r :=
    ⟨(halfHours_closeout r).hundredths, closeoutManHours_nonneg r⟩
  cases hrow : s.closeout? r.id with
  | none => exact hown
  | some row =>
    cases hb : row.manHoursBilled with
    | none => simpa [hb] using hown
    | some b => simpa [hb] using h.claims row (List.mem_of_find?_eq_some hrow) b hb

theorem LaborColumns.billedBefore (h : LaborColumns s) (c : CloseoutRow) :
    Hundredths (closeoutHoursBilledBefore s c) ∧ 0 ≤ closeoutHoursBilledBefore s c := by
  refine ⟨Hundredths.sum fun x hx => ?_, List.sum_nonneg fun x hx => ?_⟩
  all_goals
    obtain ⟨r, -, rfl⟩ := List.mem_map.mp hx
  · exact (h.claimManHours r).1
  · exact (h.claimManHours r).2

/-! ### The claim and the price of the final day -/

/-- The claim stamps the delta, or nothing is left to bill, or a live invoice holds the closeout. -/
inductive HoursClaimed (s : LaborBook) (k : ℕ) (c : CloseoutRow) : LaborBook × Bool → Prop
  | stamped (hpos : 0 < closeoutManHoursToBill s c) :
      HoursClaimed s k c (s.updateCloseout c.id fun r => stamped r k (closeoutManHoursToBill s c), true)
  | nothing (hzero : closeoutManHoursToBill s c ≤ 0) : HoursClaimed s k c (s, false)
  | held (j : ℕ) (hj : c.billedInvoiceId = some j) (hlive : s.isLive j = true) : HoursClaimed s k c (s, false)

theorem hours_claimed (hids : (s.closeouts.map CloseoutRow.id).Nodup) (hc : c ∈ s.closeouts) (k : ℕ) :
    HoursClaimed s k c (claimCloseoutHours s k (some c)) := by
  unfold claimCloseoutHours
  simp only [closeout?_of_mem hids hc]
  by_cases hzero : closeoutManHoursToBill s c ≤ 0
  · rw [if_pos hzero]
    exact .nothing hzero
  · rw [if_neg hzero]
    split
    · next hheld =>
      cases hj : c.billedInvoiceId with
      | none => rw [hj] at hheld; cases hheld
      | some j =>
        rw [hj] at hheld
        exact .held j hj hheld
    · exact .stamped (not_le.mp hzero)

theorem finalDay_of_held {j : ℕ} (hholder : closeoutHoursHolder s c = some j) (hne : j ≠ k) :
    (finalDay s (some c) (some k)).man = 0 := by
  have hoffered : offeredHours s c (some k) ≤ 0 := by
    unfold offeredHours
    simp only [hholder, Option.isSome_some, Bool.true_and]
    split
    · rw [if_pos (by simpa using hne)]
    · linarith
  unfold finalDay
  simp only [if_neg hoffered.not_gt]
  simp

/-- The hours are offered in full when no other invoice holds them; what is priced of them is the delta. -/
theorem finalDay_of_free (hcarried : 0 ≤ closeoutHoursBilledBefore s c)
    (hholder : ∀ j, closeoutHoursHolder s c = some j → j = k) :
    (finalDay s (some c) (some k)).man = closeoutManHoursToBill s c := by
  have hoffered : offeredHours s c (some k) = c.hoursWorked := by
    unfold offeredHours
    simp only
    split
    · rw [if_neg]
      cases hh : closeoutHoursHolder s c with
      | none => simp
      | some j => simp [hholder j hh]
    · rfl
  have hman : (if 0 < c.hoursWorked then roundupToHalf c.hoursWorked * crewOf c.techsOnSite else 0) =
      closeoutManHours c := by
    unfold closeoutManHours
    split_ifs <;> first | rfl | linarith
  unfold finalDay closeoutManHoursToBill
  simp only [hoffered, hman]
  have hnonneg := closeoutManHours_nonneg c
  by_cases hpos : 0 < closeoutManHours c
  · rw [if_pos hpos]
    by_cases hb : 0 < closeoutHoursBilledBefore s c
    · rw [if_pos hb]
    · rw [if_neg hb, le_antisymm (not_lt.mp hb) hcarried, sub_zero]
      exact (max_eq_right hnonneg).symm
  · rw [if_neg hpos, if_neg (lt_irrefl _)]
    simp only
    rw [max_eq_left]
    · linarith
    · linarith

theorem closeout?_stamped (hids : (s.closeouts.map CloseoutRow.id).Nodup) (hc : c ∈ s.closeouts)
    {f : CloseoutRow → CloseoutRow} (hf : ∀ r, (f r).id = r.id) : (s.updateCloseout c.id f).closeout? c.id = some (f c) := by
  have hids' : ((s.updateCloseout c.id f).closeouts.map CloseoutRow.id).Nodup := by
    have hsame : (s.updateCloseout c.id f).closeouts.map CloseoutRow.id = s.closeouts.map CloseoutRow.id := by
      unfold LaborBook.updateCloseout
      rw [List.map_map]
      refine List.map_congr_left fun r _ => ?_
      simp only [Function.comp_apply]
      split_ifs
      · exact hf r
      · rfl
    rwa [hsame]
  have hmem : f c ∈ (s.updateCloseout c.id f).closeouts := List.mem_map.mpr ⟨c, hc, if_pos rfl⟩
  have hfound := closeout?_of_mem hids' hmem
  rwa [hf c] at hfound

theorem claimedMan_unclaimed (hrow : s.closeout? c.id = some c) (hfresh : c.billedInvoiceId ≠ some k) :
    claimedMan s k c = 0 := by
  unfold claimedMan
  rw [hrow]
  exact if_neg hfresh

/-- On an invoice that does not hold the closeout yet, the final day is priced at what its claim stamped. -/
theorem finalDay_claimed (h : LaborColumns s) (hc : c ∈ s.closeouts) (hfresh : c.billedInvoiceId ≠ some k) :
    (finalDay (claimCloseoutHours s k (some c)).1 (some c) (some k)).man =
        claimedMan (claimCloseoutHours s k (some c)).1 k c ∧
      Hundredths (claimedMan (claimCloseoutHours s k (some c)).1 k c) := by
  have houtcome := hours_claimed h.ids hc k
  generalize claimCloseoutHours s k (some c) = claimed at houtcome
  have hrow := closeout?_of_mem h.ids hc
  have hnone : Hundredths (claimedMan s k c) := by
    rw [claimedMan_unclaimed hrow hfresh]
    exact ⟨0, by simp⟩
  cases houtcome with
  | stamped hpos =>
    have hid : ∀ r, (stamped r k (closeoutManHoursToBill s c)).id = r.id := fun _ => rfl
    have hrow' := closeout?_stamped h.ids hc hid
    have hsame := h.billedBefore_update hc hid
    have hclaimed : claimedMan (s.updateCloseout c.id fun r => stamped r k (closeoutManHoursToBill s c)) k c =
        closeoutManHoursToBill s c := by
      unfold claimedMan
      rw [hrow']
      exact if_pos rfl
    rw [hclaimed, finalDay_of_free]
    · rw [closeoutManHoursToBill, hsame]
      refine ⟨rfl, Hundredths.max ⟨0, by simp⟩ ?_⟩
      exact (halfHours_closeout c).hundredths.sub (h.billedBefore c).1
    · rw [hsame]
      exact (h.billedBefore c).2
    · intro j hj
      unfold closeoutHoursHolder at hj
      rw [hrow'] at hj
      exact (Option.some.inj (Option.filter_eq_some_iff.mp hj).1).symm
  | nothing hzero =>
    refine ⟨?_, hnone⟩
    rw [claimedMan_unclaimed hrow hfresh]
    by_cases hother : ∃ j, closeoutHoursHolder s c = some j ∧ j ≠ k
    · obtain ⟨j, hj, hne⟩ := hother
      exact finalDay_of_held hj hne
    · push Not at hother
      rw [finalDay_of_free (h.billedBefore c).2 hother]
      exact le_antisymm hzero (le_max_left _ _)
  | held j hj hlive' =>
    refine ⟨?_, hnone⟩
    rw [claimedMan_unclaimed hrow hfresh]
    refine finalDay_of_held (j := j) ?_ fun heq => hfresh (heq ▸ hj)
    unfold closeoutHoursHolder
    rw [hrow]
    simp only [hj, Option.filter_some, hlive', if_true]

/-! ### The lines -/

theorem hundredths_elsewhere (h : ∀ i ∈ s.invoices, ∀ l ∈ i.lines, Hundredths l.quantity) (k : Option ℕ) :
    Hundredths (firstHourElsewhere s k).2 := by
  refine Hundredths.sum fun x hx => ?_
  obtain ⟨r, hr, rfl⟩ := List.mem_map.mp hx
  obtain ⟨i, hi, hr⟩ := List.mem_flatMap.mp hr
  obtain ⟨l, hl, rfl⟩ := List.mem_map.mp hr
  exact h i (List.mem_of_mem_filter hi) l (List.mem_of_mem_filter hl)

theorem Hundredths.flooredMan {charged : Bool} {elsewhere man : ℚ} (helse : Hundredths elsewhere) (hman : Hundredths man) :
    Hundredths (flooredMan charged elsewhere man) := by
  have hone : Hundredths 1 := ⟨100, by norm_num⟩
  have hzero : Hundredths 0 := ⟨0, by norm_num⟩
  unfold Gdx.flooredMan
  split
  · exact hman
  · exact (hone.sub (hone.min (hzero.max helse))).max hman

/-- On a service job the lines come to the attested man-hours with the floor of the first hour; there are none when
    nothing is attested. -/
theorem jobLaborLines_sum (zone : ShopZone) (hservice : s.lane = .service) (closeout : Option CloseoutRow) (k : Option ℕ)
    (dayRows : List DayRow) : ((jobLaborLines zone s closeout k dayRows).map BuiltLine.quantity).sum =
      if attestedMan s closeout k dayRows ≤ 0 then 0 else billedMan s closeout k dayRows := by
  by_cases hpos : attestedMan s closeout k dayRows ≤ 0
  · have hnil : jobLaborLines zone s closeout k dayRows = [] := by
      by_contra hne
      exact absurd hpos (jobLaborLines_shape zone closeout k dayRows hne).1.not_ge
    rw [hnil, if_pos hpos]
    rfl
  · have hne : jobLaborLines zone s closeout k dayRows ≠ [] := by
      unfold jobLaborLines
      rw [if_neg (not_not.mpr hservice)]
      simp only
      rw [← attestedMan, if_neg hpos]
      split_ifs <;> simp
    rw [if_neg hpos]
    rcases (jobLaborLines_shape zone closeout k dayRows hne).2 with ⟨b, heq, hb, -⟩ | ⟨-, hsmall, b, heq, hb⟩ |
      ⟨-, hlarge, b, r, heq, hb, hr⟩
    · simp [heq, hb]
    · simp [heq, hb, hsmall]
    · simp [heq, hb, hr, min_eq_left hlarge.le]

theorem claim_keeps (s : LaborBook) (k : ℕ) (closeout : Option CloseoutRow) :
    (claimCloseoutHours s k closeout).1.invoices = s.invoices ∧ (claimCloseoutHours s k closeout).1.lane = s.lane := by
  unfold claimCloseoutHours
  cases closeout with
  | none => exact ⟨rfl, rfl⟩
  | some c =>
    simp only
    split_ifs
    · exact ⟨rfl, rfl⟩
    · cases s.closeout? c.id with
      | none => exact ⟨rfl, rfl⟩
      | some row =>
        simp only
        split_ifs <;> exact ⟨rfl, rfl⟩

/-- A stamp on a closeout, in a job's book. -/
theorem labor_stampCloseout_eq (db : BillingDb) (jobId id k : ℕ) (hours : ℚ) :
    (db.stampCloseout id k hours).labor jobId =
      (db.labor jobId).updateCloseout id fun r => stamped r k hours := by
  have hrows : ((db.stampCloseout id k hours).labor jobId).closeouts =
      ((db.labor jobId).updateCloseout id fun r => stamped r k hours).closeouts := by
    simp only [BillingDb.labor, BillingDb.stampCloseout, LaborBook.updateCloseout]
    induction db.closeouts with
    | nil => rfl
    | cons q rows ih =>
      rw [List.map_cons, List.filter_cons, List.filter_cons]
      by_cases hid : q.row.id = id
      · by_cases hjob : q.jobId = jobId
        · simpa [hid, hjob, stamped] using ih
        · simpa [hid, hjob] using ih
      · by_cases hjob : q.jobId = jobId
        · simpa [hid, hjob] using ih
        · simpa [hid, hjob] using ih
  exact congrArg (fun rows => { db.labor jobId with closeouts := rows }) hrows

/-- The tables of a claim: stamped when the call says so, else as they were. -/
theorem claim_eq_ite (s : LaborBook) (k : ℕ) (c : CloseoutRow) :
    (claimCloseoutHours s k (some c)).1 =
      if (claimCloseoutHours s k (some c)).2 then
        s.updateCloseout c.id fun r => stamped r k (closeoutManHoursToBill s c)
      else s := by
  unfold claimCloseoutHours
  by_cases hzero : closeoutManHoursToBill s c ≤ 0
  · simp [hzero]
  · cases hrow : s.closeout? c.id with
    | none => simp [hzero, hrow]
    | some row =>
      by_cases hheld : row.billedInvoiceId.any s.isLive = true
      · simp [hzero, hrow, hheld]
      · simp [hzero, hrow, hheld, stamped]

/-- The labor of a service job: its book is the one the claim leaves, its lines price that book and the day rows the
    invoice holds. -/
theorem buildCloseoutLabor_service (zone : ShopZone) (db : BillingDb) (k jobId : ℕ) (c : CloseoutRow)
    (hservice : (db.job jobId).lane = .service) :
    let built := buildCloseoutLabor zone db k jobId c
    let rows := heldDayRows built.1 k fun e => decide (e.jobId = jobId) && e.isDayRow
    built.1.labor jobId = (claimCloseoutHours (db.labor jobId) k (some c)).1 ∧
      built.2 = (jobLaborLines zone (built.1.labor jobId) (some c) (some k) rows).map BuiltLine.billed := by
  unfold buildCloseoutLabor
  rw [if_neg (not_not.mpr hservice)]
  set free := (db.entries.filter fun e =>
    decide (e.jobId = jobId) && e.isDayRow && e.billedInvoiceId.isNone).map TimeEntry.id with hfree
  have hbook : (db.claimDayRows k free).labor jobId = db.labor jobId := rfl
  simp only [hbook]
  rw [claim_eq_ite]
  cases hclaim : (claimCloseoutHours (db.labor jobId) k (some c)).2 with
  | false => exact ⟨rfl, rfl⟩
  | true =>
    simp only [if_true, labor_stampCloseout_eq, hbook]
    exact ⟨trivial, rfl⟩

/-- The day rows of a job that an invoice holds, as `held_day_rows` reads them. -/
def heldRowsOf (db : BillingDb) (invoiceId jobId : ℕ) : List DayRow :=
  heldDayRows db invoiceId fun e => decide (e.jobId = jobId) && e.isDayRow

/-- What the claim records is what the line bills. A closeout of a service job, whatever it restates and whatever was
    claimed before, is built into an invoice that does not hold it yet: the attested lines come to the man-hours the
    claim left on the closeout and the invoice's day rows rounded up once to the half hour, with the floor of the first
    hour, and to nothing when nothing is attested. -/
theorem claim_is_billed (zone : ShopZone) (db : BillingDb) (k jobId : ℕ) (c : CloseoutRow) (matrix : Option LaborLine)
    (hservice : (db.job jobId).lane = .service) (h : LaborColumns (db.labor jobId))
    (hc : c ∈ (db.labor jobId).closeouts) (hfresh : c.billedInvoiceId ≠ some k) :
    let (after, lines) := buildCloseoutLines zone db k jobId c matrix
    let attested := claimedMan (after.labor jobId) k c + rowsMan (heldRowsOf after k jobId)
    let (charged, elsewhere) := firstHourElsewhere (after.labor jobId) (some k)
    ((lines.filter fun l => l.attested).map fun l => l.quantity).sum =
      if attested ≤ 0 then 0 else flooredMan charged elsewhere attested := by
  obtain ⟨hbook, hlines⟩ := buildCloseoutLabor_service zone db k jobId c hservice
  obtain ⟨hman, hclaimed⟩ := finalDay_claimed h hc hfresh
  obtain ⟨hinvoices, hlane⟩ := claim_keeps (db.labor jobId) k (some c)
  rw [← hbook] at hman hclaimed hinvoices hlane
  have hquantities : ∀ i ∈ ((buildCloseoutLabor zone db k jobId c).1.labor jobId).invoices, ∀ l ∈ i.lines,
      Hundredths l.quantity := hinvoices ▸ h.quantities
  have hinstall : (db.job jobId).lane ≠ .install := by simp [hservice]
  have hlabor : ((buildCloseoutLabor zone db k jobId c).2.filter fun l => l.attested) =
      (buildCloseoutLabor zone db k jobId c).2 := by
    rw [hlines, List.filter_eq_self]
    intro l hl
    obtain ⟨b, -, rfl⟩ := List.mem_map.mp hl
    rfl
  have hparts : (((buildCloseoutLabor zone db k jobId c).1.parts.filter (closeoutPart jobId)).map PartRow.line).filter
      (fun l => l.attested) = [] := by
    rw [List.filter_eq_nil_iff]
    intro l hl
    obtain ⟨q, -, rfl⟩ := List.mem_map.mp hl
    exact Bool.false_ne_true
  have hquantity : (jobLaborLines zone ((buildCloseoutLabor zone db k jobId c).1.labor jobId) (some c) (some k)
        (heldRowsOf (buildCloseoutLabor zone db k jobId c).1 k jobId)).map BuiltLine.quantity =
      (buildCloseoutLabor zone db k jobId c).2.map fun l => l.quantity := by
    rw [hlines, List.map_map]
    rfl
  simp only [buildCloseoutLines, if_neg hinstall, List.nil_append, List.filter_append, hlabor, hparts, List.append_nil]
  rw [← hquantity, jobLaborLines_sum zone (hlane.trans hservice), billedMan, attestedMan, hman]
  congr 1
  exact (Hundredths.flooredMan (hundredths_elsewhere hquantities _)
    (hclaimed.add (halfHours_rowsMan _).hundredths)).quantize

/-- The restatement: three and a half hours, not billed yet. -/
def restated : CloseoutRow where
  id := 2
  hoursWorked := 7 / 2
  techsOnSite := some 1
  closedAt := some 30
  superseded := false
  supersedesId := some 0
  isRestatement := some true
  billedInvoiceId := none
  manHoursBilled := none

/-- A closeout of two hours billed on invoice 1, restated as three and a half, and a day row of 40 minutes. -/
def restatedDb : BillingDb where
  job _ := { lane := .service, completed := true, uncompletedAt := [] }
  parts := []
  orders := []
  entries := [{ id := 9, jobId := 7, clockIn := 50, minutes := 40, dayClosed := true, clockedOut := true, deleted := false
                billedInvoiceId := none }]
  closeouts := [
    { jobId := 7, row := restated },
    { jobId := 7
      row := { id := 0, hoursWorked := 2, techsOnSite := some 1, closedAt := some 10, superseded := true
               supersedesId := none, isRestatement := some false, billedInvoiceId := some 1
               manHoursBilled := some 2 } }]
  invoices := [
    { id := 1, number := "INV-000001", jobId := some 7, createdAt := some 20, void := false, autodraft := true
      pulledParts := [], pulledOrders := []
      lines := [{ description := "Service labor".toList, quantity := 2, unitPrice := 10000, lineTotal := 20000
                  attested := true, deleted := false }] },
    { id := 3, number := "INV-000002", jobId := some 7, createdAt := some 40, void := false, autodraft := true
      pulledParts := [], pulledOrders := [], lines := [] }]
  settings := none
  nextId := 10

theorem restatedDb_columns : LaborColumns (restatedDb.labor 7) where
  ids := by decide +kernel
  older := by decide +kernel
  claims := by
    intro c hc x hx
    have hrows : (restatedDb.labor 7).closeouts.filterMap CloseoutRow.manHoursBilled = [2] := by decide +kernel
    have hmem : x ∈ (restatedDb.labor 7).closeouts.filterMap CloseoutRow.manHoursBilled :=
      List.mem_filterMap.mpr ⟨c, hc, hx⟩
    rw [hrows, List.mem_singleton] at hmem
    subst hmem
    exact ⟨⟨200, by norm_num⟩, by norm_num⟩
  quantities := by
    intro i hi l hl
    have hrows : ((restatedDb.labor 7).invoices.flatMap LaborInvoice.lines).map LaborLine.quantity = [2] := by
      decide +kernel
    have hmem : l.quantity ∈ ((restatedDb.labor 7).invoices.flatMap LaborInvoice.lines).map LaborLine.quantity :=
      List.mem_map_of_mem (List.mem_flatMap.mpr ⟨i, hi, hl⟩)
    rw [hrows, List.mem_singleton] at hmem
    exact hmem ▸ ⟨200, by norm_num⟩

theorem claim_is_billed_restated :
    claimedMan ((buildCloseoutLines utcZone restatedDb 3 7 restated none).1.labor 7) 3 restated = 3 / 2 ∧
      (((buildCloseoutLines utcZone restatedDb 3 7 restated none).2.filter fun l => l.attested).map
        fun l => l.quantity).sum = 5 / 2 :=
  ⟨by decide +kernel, (claim_is_billed utcZone restatedDb 3 7 restated none rfl restatedDb_columns
    (by decide +kernel) (by decide +kernel)).trans (by decide +kernel)⟩

end Gdx
