import GdxDispatch.Billing.CloseoutHours

/-! One first hour per job.

    Every attested line the builder writes is a whole number of half hours. A first-hour line is written
    only when no other live invoice has one. A build that finds the first hour charged finds at least half
    an hour elsewhere and adds at least half an hour; one that does not tops the job up to one hour. -/

namespace Gdx

open Lib

/-! ### Half hours -/

/-- A whole number of half hours. -/
def HalfHours (x : ℚ) : Prop := ∃ n : ℤ, x = n / 2

theorem HalfHours.zero : HalfHours 0 := ⟨0, by simp⟩

theorem HalfHours.one : HalfHours 1 := ⟨2, by norm_num⟩

theorem HalfHours.add {x y : ℚ} (hx : HalfHours x) (hy : HalfHours y) : HalfHours (x + y) := by
  obtain ⟨m, rfl⟩ := hx
  obtain ⟨n, rfl⟩ := hy
  exact ⟨m + n, by push_cast; ring⟩

theorem HalfHours.sub {x y : ℚ} (hx : HalfHours x) (hy : HalfHours y) : HalfHours (x - y) := by
  obtain ⟨m, rfl⟩ := hx
  obtain ⟨n, rfl⟩ := hy
  exact ⟨m - n, by push_cast; ring⟩

theorem HalfHours.max {x y : ℚ} (hx : HalfHours x) (hy : HalfHours y) : HalfHours (max x y) := by
  rcases max_choice x y with h | h <;> rwa [h]

theorem HalfHours.min {x y : ℚ} (hx : HalfHours x) (hy : HalfHours y) : HalfHours (min x y) := by
  rcases min_choice x y with h | h <;> rwa [h]

theorem HalfHours.sum {xs : List ℚ} (h : ∀ x ∈ xs, HalfHours x) : HalfHours xs.sum := by
  induction xs with
  | nil => exact HalfHours.zero
  | cons x xs ih =>
    rw [List.sum_cons]
    exact (h x (by simp)).add (ih fun y hy => h y (by simp [hy]))

theorem HalfHours.half_le {x : ℚ} (h : HalfHours x) (hpos : 0 < x) : 1 / 2 ≤ x := by
  obtain ⟨n, rfl⟩ := h
  have hn : 0 < n := by
    by_contra hle
    have hle' : (n : ℚ) ≤ 0 := by exact_mod_cast (by omega : n ≤ 0)
    linarith
  have hone : (1 : ℚ) ≤ n := by exact_mod_cast hn
  linarith

theorem HalfHours.crew {x : ℚ} (h : HalfHours x) (k : ℤ) : HalfHours (x * k) := by
  obtain ⟨n, rfl⟩ := h
  exact ⟨n * k, by push_cast; ring⟩

theorem halfHours_roundup (x : ℚ) : HalfHours (roundupToHalf x) := ⟨⌈x * 2⌉, rfl⟩

theorem halfHours_closeout (c : CloseoutRow) : HalfHours (closeoutManHours c) := by
  unfold closeoutManHours
  split
  · exact HalfHours.zero
  · exact (halfHours_roundup _).crew _

theorem halfHours_rowsMan (dayRows : List DayRow) : HalfHours (rowsMan dayRows) :=
  ⟨(((rowMinutes dayRows + 29) / 30 : ℕ) : ℤ), by rw [rowsMan, Int.cast_natCast]⟩

/-- Half hours are whole hundredths. -/
theorem HalfHours.quantize {x : ℚ} (h : HalfHours x) : quantizeHours x = x := by
  obtain ⟨n, rfl⟩ := h
  have hcents : (n : ℚ) / 2 * 100 = ((50 * n : ℤ) : ℚ) := by push_cast; ring
  unfold quantizeHours
  simp only [hcents, Int.floor_intCast, sub_self]
  rw [if_pos (by norm_num)]
  push_cast
  ring

/-! ### Descriptions -/

theorem printedHundredths_head (n : ℤ) :
    ∃ d rest, printedHundredths n = d :: rest ∧ (d = '-' ∨ d.isDigit = true) := by
  unfold printedHundredths
  by_cases hn : n < 0
  · exact ⟨'-', _, by rw [if_pos hn]; rfl, Or.inl rfl⟩
  · rw [if_neg hn, List.nil_append]
    cases hd : numeral (n.natAbs / 100) with
    | nil => exact absurd hd (numeral_ne_nil _)
    | cons d ds =>
      refine ⟨d, _, rfl, Or.inr ?_⟩
      exact isDigit_of_mem_numeral (n := n.natAbs / 100) (by rw [hd]; simp)

/-- A text that states its hours is not the first-hour text. -/
theorem statedHours_ne_firstHour (x : ℚ) (rest : Text) :
    ("Service labor — ".toList ++ printedFixed x ++ rest).take 500 ≠ firstHourDescription := by
  obtain ⟨d, ds, hd, hdig⟩ := printedHundredths_head (roundHalfUp (x * 100))
  intro h
  have hsplit : firstHourDescription = "Service labor — ".toList ++ "first hour".toList := by decide
  rw [printedFixed, hd, List.append_assoc, List.cons_append, hsplit, List.take_append,
    List.take_of_length_le (by decide)] at h
  have htail := List.append_cancel_left h
  have hlen : 500 - "Service labor — ".toList.length = 483 + 1 := by decide
  rw [hlen, List.take_succ_cons] at htail
  have hchar : d = 'f' := (List.cons.inj (htail.trans rfl)).1
  rcases hdig with hdash | hdigit
  · exact absurd (hchar.symm.trans hdash) (by decide)
  · rw [hchar] at hdigit
    exact absurd hdigit (by decide)

/-! ### The builder -/

/-- What live claims hold is counted in half hours. -/
def HalfClaims (s : LaborBook) : Prop :=
  ∀ c ∈ s.closeouts, ∀ x ∈ c.manHoursBilled, HalfHours x

section Builder

variable {s : LaborBook}

theorem halfHours_billedOver (h : HalfClaims s) (rows : List CloseoutRow) : HalfHours (billedOver s rows) := by
  refine HalfHours.sum fun x hx => ?_
  obtain ⟨c, -, rfl⟩ := List.mem_map.mp hx
  unfold claimManHours
  cases hrow : s.closeout? c.id with
  | none => exact halfHours_closeout c
  | some row =>
    cases hb : row.manHoursBilled with
    | none => simpa [hb] using halfHours_closeout c
    | some b => simpa [hb] using h row (List.mem_of_find?_eq_some hrow) b hb

theorem halfHours_finalDay (h : HalfClaims s) (closeout : Option CloseoutRow) (invoiceId : Option ℕ) :
    HalfHours (finalDay s closeout invoiceId).man := by
  unfold finalDay
  cases closeout with
  | none => exact HalfHours.zero
  | some c =>
    dsimp only
    generalize offeredHours s c invoiceId = hours
    have hman : HalfHours (if 0 < hours then roundupToHalf hours * crewOf c.techsOnSite else 0) := by
      split
      · exact (halfHours_roundup _).crew _
      · exact HalfHours.zero
    generalize (if 0 < hours then roundupToHalf hours * crewOf c.techsOnSite else 0) = man at hman
    have hcarried : HalfHours (if 0 < man then closeoutHoursBilledBefore s c else 0) := by
      split
      · exact halfHours_billedOver h _
      · exact HalfHours.zero
    generalize (if 0 < man then closeoutHoursBilledBefore s c else 0) = carried at hcarried
    split
    · exact HalfHours.zero.max (hman.sub hcarried)
    · exact hman

/-- The man-hours a build attests, before the floor of the first hour. -/
def attestedMan (s : LaborBook) (closeout : Option CloseoutRow) (invoiceId : Option ℕ)
    (dayRows : List DayRow) : ℚ :=
  (finalDay s closeout invoiceId).man + rowsMan dayRows

/-- The man-hours a build bills. -/
def billedMan (s : LaborBook) (closeout : Option CloseoutRow) (invoiceId : Option ℕ)
    (dayRows : List DayRow) : ℚ :=
  quantizeHours (flooredMan (firstHourElsewhere s invoiceId).1 (firstHourElsewhere s invoiceId).2
    (attestedMan s closeout invoiceId dayRows))

/-- The three shapes of a build that returns lines, for its man-hours: all of them on one line, a first
    hour alone, or a first hour and the rest. -/
theorem jobLaborLines_shape (zone : ShopZone) (closeout : Option CloseoutRow) (k : Option ℕ)
    (dayRows : List DayRow) (hne : jobLaborLines zone s closeout k dayRows ≠ []) :
    0 < attestedMan s closeout k dayRows ∧
      ((∃ b, jobLaborLines zone s closeout k dayRows = [b] ∧
          b.quantity = billedMan s closeout k dayRows ∧
          ((firstHourElsewhere s k).1 = true → b.description ≠ firstHourDescription)) ∨
        ((firstHourElsewhere s k).1 = false ∧ billedMan s closeout k dayRows ≤ 1 ∧
          ∃ b, jobLaborLines zone s closeout k dayRows = [b] ∧
            b.quantity = min 1 (billedMan s closeout k dayRows)) ∨
        ((firstHourElsewhere s k).1 = false ∧ 1 < billedMan s closeout k dayRows ∧
          ∃ b r, jobLaborLines zone s closeout k dayRows = [b, r] ∧
            b.quantity = min 1 (billedMan s closeout k dayRows) ∧
            r.quantity = billedMan s closeout k dayRows - 1)) := by
  unfold jobLaborLines at hne ⊢
  by_cases hlane : s.lane ≠ .service
  · simp [hlane] at hne
  rw [if_neg hlane] at hne ⊢
  dsimp only at hne ⊢
  rw [← attestedMan] at hne ⊢
  by_cases hpos : attestedMan s closeout k dayRows ≤ 0
  · simp [hpos] at hne
  clear hne
  rw [if_neg hpos]
  push Not at hpos
  refine ⟨hpos, ?_⟩
  rw [← billedMan]
  generalize billedMan s closeout k dayRows = man
  by_cases hone : ((firstHourElsewhere s k).1 ||
      decide ((serviceRates s.settings).1 = (serviceRates s.settings).2)) = true
  · rw [if_pos hone]
    refine Or.inl ⟨_, rfl, rfl, fun hcharged => ?_⟩
    simp only [hcharged, Bool.not_true, Bool.false_and, Bool.false_eq_true, if_false]
    rw [List.append_assoc, List.append_assoc, List.append_assoc]
    exact statedHours_ne_firstHour _ _
  · have hfree : (firstHourElsewhere s k).1 = false := by
      rw [Bool.not_eq_true, Bool.or_eq_false_iff] at hone
      exact hone.1
    rw [if_neg hone]
    by_cases hrest : 0 < man - 1
    · rw [if_pos hrest]
      exact Or.inr (Or.inr ⟨hfree, by linarith, _, _, rfl, rfl, rfl⟩)
    · rw [if_neg hrest]
      exact Or.inr (Or.inl ⟨hfree, by linarith, _, rfl, rfl⟩)

/-- What a build returns: lines of at least half an hour that come to the floored man-hours, and no
    first-hour line beside one that stands elsewhere. -/
theorem jobLaborLines_spec (h : HalfClaims s) (zone : ShopZone) (closeout : Option CloseoutRow)
    (k : Option ℕ) (dayRows : List DayRow) (helse : HalfHours (firstHourElsewhere s k).2)
    (hne : jobLaborLines zone s closeout k dayRows ≠ []) :
    (∃ attested : ℚ, 1 / 2 ≤ attested ∧
      ((jobLaborLines zone s closeout k dayRows).map BuiltLine.quantity).sum =
        flooredMan (firstHourElsewhere s k).1 (firstHourElsewhere s k).2 attested) ∧
      (∀ b ∈ jobLaborLines zone s closeout k dayRows, HalfHours b.quantity ∧ 0 < b.quantity) ∧
      ((firstHourElsewhere s k).1 = true → ∀ b ∈ jobLaborLines zone s closeout k dayRows,
        b.description ≠ firstHourDescription) := by
  obtain ⟨hpos, hshape⟩ := jobLaborLines_shape zone closeout k dayRows hne
  have hattested : HalfHours (attestedMan s closeout k dayRows) :=
    (halfHours_finalDay h closeout k).add (halfHours_rowsMan dayRows)
  have hfloor : HalfHours (flooredMan (firstHourElsewhere s k).1 (firstHourElsewhere s k).2
      (attestedMan s closeout k dayRows)) := by
    unfold flooredMan
    split
    · exact hattested
    · exact (HalfHours.one.sub (HalfHours.one.min (HalfHours.zero.max helse))).max hattested
  rw [billedMan, hfloor.quantize] at hshape
  have hle : attestedMan s closeout k dayRows ≤ flooredMan (firstHourElsewhere s k).1
      (firstHourElsewhere s k).2 (attestedMan s closeout k dayRows) := by
    unfold flooredMan
    split
    · exact le_refl _
    · exact le_max_right _ _
  refine ⟨⟨_, hattested.half_le hpos, ?_⟩, ?_⟩
  all_goals
    generalize flooredMan (firstHourElsewhere s k).1 (firstHourElsewhere s k).2
      (attestedMan s closeout k dayRows) = man at *
  · rcases hshape with ⟨b, heq, hb, -⟩ | ⟨-, hsmall, b, heq, hb⟩ | ⟨-, hlarge, b, r, heq, hb, hr⟩
    · simp [heq, hb]
    · simp [heq, hb, hsmall]
    · simp [heq, hb, hr, min_eq_left hlarge.le]
  · have hmanpos : 0 < man := hpos.trans_le hle
    have hfirst : HalfHours (min 1 man) ∧ 0 < min 1 man :=
      ⟨HalfHours.one.min hfloor, lt_min one_pos hmanpos⟩
    rcases hshape with ⟨b, heq, hb, htext⟩ | ⟨hfree, -, b, heq, hb⟩ |
      ⟨hfree, hlarge, b, r, heq, hb, hr⟩
    · rw [heq]
      simpa [hb] using ⟨⟨hfloor, hmanpos⟩, htext⟩
    · rw [heq, hfree]
      simpa [hb] using hfirst
    · rw [heq, hfree]
      have hrest : HalfHours (man - 1) ∧ 0 < man - 1 := ⟨hfloor.sub HalfHours.one, by linarith⟩
      refine ⟨fun x hx => ?_, by simp⟩
      rcases List.mem_pair.mp hx with rfl | rfl
      · rw [hb]
        exact hfirst
      · rw [hr]
        exact hrest

end Builder

/-! ### The job's invoices -/

/-- A line of the invoice says it is the first hour. -/
def LaborInvoice.carriesFirstHour (i : LaborInvoice) : Bool :=
  i.lines.any fun l => !l.deleted && l.description = firstHourDescription

/-- The attested hours on the invoice. -/
def LaborInvoice.attestedHours (i : LaborInvoice) : ℚ :=
  ((i.lines.filter fun l => l.attested && !l.deleted).map LaborLine.quantity).sum

/-- The attested hours on the job's live invoices. -/
def LaborBook.attestedHours (s : LaborBook) : ℚ :=
  ((s.invoices.filter LaborInvoice.live).map LaborInvoice.attestedHours).sum

/-- A line as the builder writes it. -/
structure LaborLine.Built (l : LaborLine) : Prop where
  attested : l.attested = true
  kept : l.deleted = false
  half : HalfHours l.quantity
  pos : 0 < l.quantity

structure FirstHourOk (s : LaborBook) : Prop where
  numbered : InvoicesNumbered s
  claims : HalfClaims s
  lines : ∀ i ∈ s.invoices, ∀ l ∈ i.lines, l.Built
  once : ∀ i ∈ s.invoices, ∀ j ∈ s.invoices, i.live = true → j.live = true →
    i.carriesFirstHour = true → j.carriesFirstHour = true → i = j

section Invoices

variable {s s' : LaborBook}

theorem hoursOf_siblingLines (s : LaborBook) (k : Option ℕ) :
    hoursOf (s.siblingLines k) =
      ((s.invoices.filter fun i => i.live && some i.id ≠ k).map LaborInvoice.attestedHours).sum := by
  unfold hoursOf LaborBook.siblingLines
  induction s.invoices.filter fun i => i.live && some i.id ≠ k with
  | nil => rfl
  | cons i rest ih =>
    rw [List.flatMap_cons, List.map_append, List.sum_append, ih, List.map_cons, List.sum_cons, List.map_map]
    rfl

theorem mem_siblingLines {k : ℕ} {i : LaborInvoice} {l : LaborLine} (hi : i ∈ s.invoices)
    (hlive : i.live = true) (hne : i.id ≠ k) (hl : l ∈ i.lines) (hbuilt : l.Built) :
    (l, i.createdAt) ∈ s.siblingLines (some k) := by
  refine List.mem_flatMap.mpr ⟨i, List.mem_filter.mpr ⟨hi, by simp [hlive, hne]⟩, ?_⟩
  refine List.mem_map.mpr ⟨l, List.mem_filter.mpr ⟨hl, ?_⟩, rfl⟩
  simp [hbuilt.attested, hbuilt.kept]

theorem FirstHourOk.sibling (h : FirstHourOk s) {k : Option ℕ} {r : LaborLine × Option ℤ}
    (hr : r ∈ s.siblingLines k) : r.1.Built := by
  obtain ⟨i, hi, hr⟩ := List.mem_flatMap.mp hr
  obtain ⟨l, hl, rfl⟩ := List.mem_map.mp hr
  exact h.lines i (List.mem_of_mem_filter hi) l (List.mem_of_mem_filter hl)

theorem FirstHourOk.half_elsewhere (h : FirstHourOk s) (k : Option ℕ) :
    HalfHours (firstHourElsewhere s k).2 := by
  change HalfHours (hoursOf (s.siblingLines k))
  refine HalfHours.sum fun x hx => ?_
  obtain ⟨r, hr, rfl⟩ := List.mem_map.mp hx
  exact (h.sibling hr).half

/-- When the first hour is charged elsewhere there is at least half an hour elsewhere. -/
theorem FirstHourOk.half_le_elsewhere (h : FirstHourOk s) {k : Option ℕ}
    (hcharged : (firstHourElsewhere s k).1 = true) : 1 / 2 ≤ (firstHourElsewhere s k).2 := by
  have hrows : s.siblingLines k ≠ [] := by
    intro hnil
    norm_num [firstHourElsewhere, hnil, hoursOf] at hcharged
  refine (h.half_elsewhere k).half_le ?_
  change 0 < hoursOf (s.siblingLines k)
  refine List.sum_pos _ (fun x hx => ?_) (by simpa using hrows)
  obtain ⟨r, hr, rfl⟩ := List.mem_map.mp hx
  exact (h.sibling hr).pos

/-- A live invoice with a first-hour line charges it for every other one. -/
theorem FirstHourOk.charged (h : FirstHourOk s) {k : ℕ} {i : LaborInvoice} (hi : i ∈ s.invoices)
    (hlive : i.live = true) (hne : i.id ≠ k) (hcarries : i.carriesFirstHour = true) :
    (firstHourElsewhere s (some k)).1 = true := by
  obtain ⟨l, hl, hsel⟩ := List.any_eq_true.mp hcarries
  simp only [Bool.and_eq_true, decide_eq_true_eq] at hsel
  have hmem := mem_siblingLines hi hlive hne hl (h.lines i hi l hl)
  have hany : (s.siblingLines (some k)).any (fun r => r.1.description = firstHourDescription) = true :=
    List.any_eq_true.mpr ⟨_, hmem, by simpa using hsel.2⟩
  simp [firstHourElsewhere, hany]

/-- The lines saved from a build. -/
theorem attestedHours_saved (i : LaborInvoice) (built : List BuiltLine) :
    ({ i with lines := built.map BuiltLine.saved } : LaborInvoice).attestedHours =
      (built.map BuiltLine.quantity).sum := by
  unfold LaborInvoice.attestedHours
  have hall : (built.map BuiltLine.saved).filter (fun l => l.attested && !l.deleted) =
      built.map BuiltLine.saved := by
    refine List.filter_eq_self.mpr fun l hl => ?_
    obtain ⟨b, -, rfl⟩ := List.mem_map.mp hl
    rfl
  rw [hall, List.map_map]
  rfl

theorem map_update_absent {k : ℕ} {g : LaborInvoice → LaborInvoice} {invoices : List LaborInvoice}
    (h : k ∉ invoices.map LaborInvoice.id) :
    invoices.map (fun i => if i.id = k then g i else i) = invoices := by
  refine (List.map_congr_left fun i hi => ?_).trans (List.map_id' invoices)
  refine if_neg fun hid => h ?_
  rw [← hid]
  exact List.mem_map_of_mem hi

/-- New lines on one live invoice: the job has its other invoices' hours and the new ones. -/
theorem sum_updateLines (k : ℕ) (lines : List LaborLine) (t : ℚ)
    (ht : ∀ i : LaborInvoice, ({ i with lines := lines } : LaborInvoice).attestedHours = t) :
    ∀ invoices : List LaborInvoice, (invoices.map LaborInvoice.id).Nodup →
      (∃ i ∈ invoices, i.id = k ∧ i.live = true) →
      (((invoices.map fun i => if i.id = k then { i with lines := lines } else i).filter
        LaborInvoice.live).map LaborInvoice.attestedHours).sum =
      ((invoices.filter fun i => i.live && some i.id ≠ some k).map LaborInvoice.attestedHours).sum + t := by
  intro invoices
  induction invoices with
  | nil => simp
  | cons i rest ih =>
    intro hids hlive
    rw [List.map_cons, List.nodup_cons] at hids
    by_cases hid : i.id = k
    · have habsent : k ∉ rest.map LaborInvoice.id := hid ▸ hids.1
      have hi : i.live = true := by
        obtain ⟨j, hj, hjk, hjlive⟩ := hlive
        rcases List.mem_cons.mp hj with rfl | hj
        · exact hjlive
        · exact absurd (hjk ▸ List.mem_map_of_mem hj) habsent
      have hrest : rest.filter (fun i => i.live && some i.id ≠ some k) =
          rest.filter LaborInvoice.live := by
        refine List.filter_congr fun j hj => ?_
        have hne : j.id ≠ k := fun heq => habsent (heq ▸ List.mem_map_of_mem hj)
        simp [hne]
      have hi' : ({ i with lines := lines } : LaborInvoice).live = true := hi
      rw [List.map_cons, if_pos hid, map_update_absent habsent, List.filter_cons_of_pos hi',
        List.map_cons, List.sum_cons, ht, List.filter_cons_of_neg (by simp [hid]), hrest, add_comm]
    · have hlive' : ∃ j ∈ rest, j.id = k ∧ j.live = true := by
        obtain ⟨j, hj, hjk, hjlive⟩ := hlive
        rcases List.mem_cons.mp hj with rfl | hj
        · exact absurd hjk hid
        · exact ⟨j, hj, hjk, hjlive⟩
      have hrec := ih hids.2 hlive'
      rw [List.map_cons, if_neg hid]
      by_cases hi : i.live = true
      · rw [List.filter_cons_of_pos hi, List.map_cons, List.sum_cons, hrec,
          List.filter_cons_of_pos (by simp [hi, hid]), List.map_cons, List.sum_cons, add_assoc]
      · rw [List.filter_cons_of_neg hi, hrec, List.filter_cons_of_neg (by simp [hi])]

/-! ### One step -/

/-- What a build does: nothing, or the lines it returns saved on a live invoice. -/
theorem buildLabor_cases (zone : ShopZone) (s : LaborBook) (k : ℕ) (dayRows : List DayRow)
    (sent : Option ℚ) : buildLabor zone s k dayRows sent = (s, []) ∨
      ∃ built, built = jobLaborLines zone s (s.held sent) (some k) dayRows ∧
        (∃ i ∈ s.invoices, i.id = k ∧ i.live = true) ∧
        buildLabor zone s k dayRows sent =
          (s.updateInvoice k fun i => { i with lines := built.map BuiltLine.saved }, built) := by
  unfold buildLabor
  split
  · rename_i hany
    obtain ⟨i, hi, hsel⟩ := List.any_eq_true.mp hany
    simp only [Bool.and_eq_true, decide_eq_true_eq] at hsel
    exact Or.inr ⟨_, rfl, ⟨i, hi, hsel.1.1, hsel.1.2⟩, rfl⟩
  · exact Or.inl rfl

theorem mem_updateInvoice {k : ℕ} {g : LaborInvoice → LaborInvoice} {x : LaborInvoice}
    (hx : x ∈ (s.updateInvoice k g).invoices) :
    (∃ i ∈ s.invoices, i.id = k ∧ x = g i) ∨ (x ∈ s.invoices ∧ x.id ≠ k) := by
  obtain ⟨i, hi, rfl⟩ := List.mem_map.mp hx
  by_cases hid : i.id = k
  · rw [if_pos hid]
    exact Or.inl ⟨i, hi, hid, rfl⟩
  · rw [if_neg hid]
    exact Or.inr ⟨hi, hid⟩

theorem HalfClaims.map (h : HalfClaims s) {f : CloseoutRow → CloseoutRow}
    (hf : ∀ c, (f c).manHoursBilled = c.manHoursBilled) (heq : s'.closeouts = s.closeouts.map f) :
    HalfClaims s' := by
  intro c hc x hx
  rw [heq] at hc
  obtain ⟨r, hr, rfl⟩ := List.mem_map.mp hc
  exact h r hr x (hf r ▸ hx)

theorem HalfClaims.release (h : HalfClaims s) (k : ℕ) : HalfClaims (releaseCloseoutHours s k) := by
  refine h.map (f := fun c => if c.billedInvoiceId = some k then { c with billedInvoiceId := none } else c)
    (fun c => ?_) rfl
  split <;> rfl

theorem HalfClaims.closeout (h : HalfClaims s) (hours : ℚ) (techs : Option ℤ) (now : ℤ) :
    HalfClaims (closeoutJob s hours techs now) := by
  intro c hc
  rcases List.mem_cons.mp hc with rfl | hc
  · simp
  · obtain ⟨r, hr, rfl⟩ := List.mem_map.mp hc
    intro x hx
    refine h r hr x ?_
    split at hx <;> exact hx

theorem HalfClaims.claim (h : HalfClaims s) (k : ℕ) (closeout : Option CloseoutRow) :
    HalfClaims (claimCloseoutHours s k closeout).1 := by
  unfold claimCloseoutHours
  cases closeout with
  | none => exact h
  | some c =>
    have hhalf : HalfHours (closeoutManHoursToBill s c) :=
      HalfHours.zero.max ((halfHours_closeout c).sub (halfHours_billedOver h _))
    dsimp only
    split
    · exact h
    · split
      · exact h
      · split
        · exact h
        · intro r hr x hx
          obtain ⟨q, hq, rfl⟩ := List.mem_map.mp hr
          split at hx
          · obtain rfl : closeoutManHoursToBill s c = x := by simpa using hx
            exact hhalf
          · exact h q hq x hx

/-- Steps that leave the invoices as they are. -/
theorem FirstHourOk.of_invoices (h : FirstHourOk s) (hnumbered : InvoicesNumbered s') (hclaims : HalfClaims s')
    (heq : s'.invoices = s.invoices) : FirstHourOk s' :=
  ⟨hnumbered, hclaims, heq ▸ h.lines, heq ▸ h.once⟩

/-- The end of an invoice. -/
theorem FirstHourOk.end_invoice (h : FirstHourOk s) (k : ℕ) {g : LaborInvoice → LaborInvoice}
    (hlines : ∀ i, (g i).lines = i.lines) (hdead : ∀ i, (g i).live = false)
    (hnumbered : InvoicesNumbered ((releaseCloseoutHours s k).updateInvoice k g)) :
    FirstHourOk ((releaseCloseoutHours s k).updateInvoice k g) := by
  refine ⟨hnumbered, h.claims.release k, ?_, ?_⟩
  · intro x hx
    rcases mem_updateInvoice hx with ⟨i, hi, -, rfl⟩ | ⟨hx, -⟩
    · rw [hlines]
      exact h.lines i hi
    · exact h.lines x hx
  · intro x hx y hy hxlive hylive hxc hyc
    rcases mem_updateInvoice hx with ⟨i, -, -, rfl⟩ | ⟨hx, -⟩
    · rw [hdead] at hxlive
      simp at hxlive
    rcases mem_updateInvoice hy with ⟨i, -, -, rfl⟩ | ⟨hy, -⟩
    · rw [hdead] at hylive
      simp at hylive
    exact h.once x hx y hy hxlive hylive hxc hyc

/-- A build keeps one first hour: it writes the line only when no other live invoice has it. -/
theorem FirstHourOk.build (h : FirstHourOk s) (zone : ShopZone) (k : ℕ) (dayRows : List DayRow)
    (sent : Option ℚ) (hnumbered : InvoicesNumbered (buildLabor zone s k dayRows sent).1) : FirstHourOk (buildLabor zone s k dayRows sent).1 := by
  rcases buildLabor_cases zone s k dayRows sent with heq | ⟨built, hbuilt, -, heq⟩
  · rw [heq]
    exact h
  have hspec : (∀ b ∈ built, HalfHours b.quantity ∧ 0 < b.quantity) ∧
      ((firstHourElsewhere s (some k)).1 = true → ∀ b ∈ built, b.description ≠ firstHourDescription) := by
    by_cases hne : built = []
    · simp [hne]
    · subst hbuilt
      exact (jobLaborLines_spec h.claims zone _ _ dayRows (h.half_elsewhere _) hne).2
  rw [heq] at hnumbered ⊢
  -- a new line on `k` and a first hour on another live invoice cannot both stand
  have hclash : ∀ i j : LaborInvoice, j ∈ s.invoices → j.live = true → j.id ≠ k →
      j.carriesFirstHour = true →
      ({ i with lines := built.map BuiltLine.saved } : LaborInvoice).carriesFirstHour = true → False := by
    intro i j hj hjlive hjk hjc hic
    obtain ⟨l, hl, hsel⟩ := List.any_eq_true.mp hic
    obtain ⟨b, hb, rfl⟩ := List.mem_map.mp hl
    simp only [Bool.and_eq_true, decide_eq_true_eq] at hsel
    exact hspec.2 (h.charged hj hjlive hjk hjc) b hb hsel.2
  refine ⟨hnumbered, h.claims, ?_, ?_⟩
  · intro x hx
    rcases mem_updateInvoice hx with ⟨i, -, -, rfl⟩ | ⟨hx, -⟩
    · intro l hl
      obtain ⟨b, hb, rfl⟩ := List.mem_map.mp hl
      exact ⟨rfl, rfl, (hspec.1 b hb).1, (hspec.1 b hb).2⟩
    · exact h.lines x hx
  · intro x hx y hy hxlive hylive hxc hyc
    rcases mem_updateInvoice hx with ⟨i, hi, hik, rfl⟩ | ⟨hx, hxk⟩ <;>
      rcases mem_updateInvoice hy with ⟨j, hj, hjk, rfl⟩ | ⟨hy, hyk⟩
    · rw [List.inj_on_of_nodup_map h.numbered.ids hi hj (hik.trans hjk.symm)]
    · exact (hclash i y hy hylive hyk hyc hxc).elim
    · exact (hclash j x hx hxlive hxk hxc hyc).elim
    · exact h.once x hx y hy hxlive hylive hxc hyc

theorem FirstHourOk.step (h : FirstHourOk s) (zone : ShopZone) (step : LaborStep) :
    FirstHourOk (laborStep zone s step) := by
  have hnumbered := h.numbered.step zone step
  cases step with
  | closeout hours techs now => exact h.of_invoices hnumbered (h.claims.closeout hours techs now) rfl
  | uncomplete now => exact h.of_invoices hnumbered h.claims rfl
  | newInvoice createdAt =>
    have hempty : ∀ x ∈ (laborStep zone s (.newInvoice createdAt)).invoices,
        x ∈ s.invoices ∨ x.lines = [] := by
      intro x hx
      rcases List.mem_append.mp hx with hx | hx
      · exact Or.inl hx
      · exact Or.inr (by rw [List.mem_singleton.mp hx])
    have hold : ∀ x ∈ (laborStep zone s (.newInvoice createdAt)).invoices,
        x.carriesFirstHour = true → x ∈ s.invoices := by
      intro x hx hxc
      rcases hempty x hx with hx | hx
      · exact hx
      · simp [LaborInvoice.carriesFirstHour, hx] at hxc
    refine ⟨hnumbered, h.claims, ?_, ?_⟩
    · intro x hx
      rcases hempty x hx with hx | hx
      · exact h.lines x hx
      · simp [hx]
    · intro x hx y hy hxlive hylive hxc hyc
      exact h.once x (hold x hx hxc) y (hold y hy hyc) hxlive hylive hxc hyc
  | claim k sent =>
    rw [laborStep] at hnumbered ⊢
    split
    · rename_i hlive
      rw [if_pos hlive] at hnumbered
      exact h.of_invoices hnumbered (h.claims.claim k _) (claim_invoices s k _).1
    · exact h
  | release k => exact h.of_invoices hnumbered (h.claims.release k) rfl
  | build k dayRows sent => exact h.build zone k dayRows sent hnumbered
  | void k => exact h.end_invoice k (fun _ => rfl) (fun _ => by simp [LaborInvoice.live]) hnumbered
  | delete k => exact h.end_invoice k (fun _ => rfl) (fun _ => by simp [LaborInvoice.live]) hnumbered
  | saveSettings settings => exact h.of_invoices hnumbered h.claims rfl

theorem firstHourOk_fresh (lane : PricingLane) (settings : Option PricingSettings) :
    FirstHourOk (LaborBook.fresh lane settings) := by
  refine ⟨invoicesNumbered_fresh lane settings, ?_, ?_, ?_⟩ <;> simp [LaborBook.fresh, HalfClaims]

theorem runLabor_firstHour (zone : ShopZone) (h : FirstHourOk s) :
    ∀ steps : List LaborStep, FirstHourOk (runLabor zone s steps) := by
  intro steps
  induction steps generalizing s with
  | nil => exact h
  | cons step steps ih => exact ih (h.step zone step)

/-- A build that returns lines leaves at least an hour on the job's live invoices. -/
theorem FirstHourOk.hour_after_build (h : FirstHourOk s) (zone : ShopZone) (k : ℕ) (dayRows : List DayRow)
    (sent : Option ℚ) (hne : (buildLabor zone s k dayRows sent).2 ≠ []) : 1 ≤ (buildLabor zone s k dayRows sent).1.attestedHours := by
  rcases buildLabor_cases zone s k dayRows sent with heq | ⟨built, hbuilt, hlive, heq⟩
  · rw [heq] at hne
    exact absurd rfl hne
  rw [heq] at hne ⊢
  subst hbuilt
  obtain ⟨⟨attested, hhalf, hsum⟩, -, -⟩ :=
    jobLaborLines_spec h.claims zone _ _ dayRows (h.half_elsewhere _) hne
  have htotal := sum_updateLines k ((jobLaborLines zone s (s.held sent) (some k) dayRows).map BuiltLine.saved) _
    (fun i => attestedHours_saved i _) s.invoices h.numbered.ids hlive
  rw [← hoursOf_siblingLines] at htotal
  have helse : hoursOf (s.siblingLines (some k)) = (firstHourElsewhere s (some k)).2 := rfl
  refine le_of_le_of_eq ?_ htotal.symm
  rw [hsum, helse]
  cases hcharged : (firstHourElsewhere s (some k)).1 with
  | true =>
    have := h.half_le_elsewhere hcharged
    rw [flooredMan, if_pos rfl]
    linarith
  | false =>
    have hnonneg : 0 ≤ (firstHourElsewhere s (some k)).2 := by
      refine List.sum_nonneg fun x hx => ?_
      obtain ⟨r, hr, rfl⟩ := List.mem_map.mp hx
      exact (h.sibling hr).pos.le
    rw [flooredMan, if_neg (by simp), max_eq_right hnonneg]
    have h1 := le_max_left (1 - min 1 (firstHourElsewhere s (some k)).2) attested
    have h2 := min_le_right 1 (firstHourElsewhere s (some k)).2
    linarith

/-- One first hour per job: after any closeouts, builds, voids, deletions and saves of the settings, at
    most one live invoice of a service job has a first-hour line, and a build that returns lines leaves at
    least one attested hour on its live invoices. -/
theorem one_first_hour_per_job (zone : ShopZone) (settings : Option PricingSettings)
    (steps : List LaborStep) :
    let s := runLabor zone (LaborBook.fresh .service settings) steps
    (∀ i ∈ s.invoices, ∀ j ∈ s.invoices, i.live = true → j.live = true →
      i.carriesFirstHour = true → j.carriesFirstHour = true → i = j) ∧
      ∀ k dayRows sent, (buildLabor zone s k dayRows sent).2 ≠ [] →
        1 ≤ (buildLabor zone s k dayRows sent).1.attestedHours := by
  have h := runLabor_firstHour zone (firstHourOk_fresh .service settings) steps
  exact ⟨h.once, fun k dayRows sent hne => h.hour_after_build zone k dayRows sent hne⟩

/-- Half an hour billed at a first hour of 150.00, then the rates made equal, and half an hour more. -/
def halfHourTwice : List LaborStep :=
  [.saveSettings { firstHourPrice := some 150, hourlyRate := some 100, template := fun _ => none
                   updatedAt := some 0 },
    .closeout (1 / 2) (some 1) 10, .newInvoice (some 20), .claim 0 none, .build 0 [] none,
    .saveSettings { firstHourPrice := some 100, hourlyRate := some 100, template := fun _ => none
                    updatedAt := some 30 },
    .newInvoice (some 40)]

theorem one_first_hour_per_job_rates_changed :
    let s := runLabor utcZone (LaborBook.fresh .service none) halfHourTwice
    let day : DayRow := { id := 7, clockIn := 35, minutes := 25 }
    s.invoices.map LaborInvoice.carriesFirstHour = [true, false] ∧
      (buildLabor utcZone s 1 [day] none).2.map BuiltLine.quantity = [1 / 2] ∧
      1 ≤ (buildLabor utcZone s 1 [day] none).1.attestedHours := by
  refine ⟨by decide +kernel, by decide +kernel, ?_⟩
  exact (one_first_hour_per_job utcZone none halfHourTwice).2 1 _ none (by decide +kernel)

end Invoices

end Gdx
