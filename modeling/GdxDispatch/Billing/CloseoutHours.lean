import GdxDispatch.Billing.LaborBook

/-! A restated day is billed once.

    The closeouts of a job form a chain, each naming the one it supersedes, and a run of restatements is
    a stretch of that chain. A claim bills the current closeout's man-hours less what live invoices hold
    of the earlier rows of its run, so the run's total becomes the current closeout's figure. Voids,
    deletions and releases only lower what is held. -/

namespace Gdx

open Lib

/-! ### The chain of closeouts -/

/-- Closeouts, newest first, each naming the next as the one it supersedes. -/
def Chained : List CloseoutRow → Prop
  | [] => True
  | c :: ps => c.supersedesId = ps.head?.map CloseoutRow.id ∧ Chained ps

/-- The rows behind a closeout that it restates, directly or through others. -/
def priorRun (s : LaborBook) : CloseoutRow → List CloseoutRow → List CloseoutRow
  | _, [] => []
  | c, p :: ps => if restates s c p then p :: priorRun s p ps else []

section Chain

variable {s : LaborBook}

theorem closeout?_of_mem (hids : (s.closeouts.map CloseoutRow.id).Nodup) {c : CloseoutRow}
    (hc : c ∈ s.closeouts) : s.closeout? c.id = some c := by
  unfold LaborBook.closeout?
  cases hfind : s.closeouts.find? fun r => r.id = c.id with
  | none =>
    have := List.find?_eq_none.mp hfind c hc
    simp at this
  | some r =>
    have hid : r.id = c.id := by simpa using List.find?_some hfind
    rw [List.inj_on_of_nodup_map hids (List.mem_of_find?_eq_some hfind) hc hid]

/-- The walk through the table follows the chain. -/
theorem restatedFrom_eq (hids : (s.closeouts.map CloseoutRow.id).Nodup) :
    ∀ (ps : List CloseoutRow) (c : CloseoutRow) (fuel : ℕ) (seen : List ℕ),
    c.supersedesId = ps.head?.map CloseoutRow.id → Chained ps → (∀ p ∈ ps, p ∈ s.closeouts) →
    (ps.map CloseoutRow.id).Nodup → (∀ p ∈ ps, p.id ∉ seen) → ps.length ≤ fuel →
    restatedFrom s fuel seen c = priorRun s c ps
  | [], c, fuel, seen, hlink, _, _, _, _, _ => by
    cases fuel with
    | zero => rfl
    | succ fuel => simp [restatedFrom, priorRun, hlink]
  | p :: ps, c, fuel, seen, hlink, hchain, hmem, hnodup, hseen, hfuel => by
    cases fuel with
    | zero => simp at hfuel
    | succ fuel =>
      have hp := closeout?_of_mem hids (hmem p (by simp))
      have hlink' : c.supersedesId = some p.id := by simpa using hlink
      rw [List.map_cons, List.nodup_cons] at hnodup
      have hrec := restatedFrom_eq hids ps p fuel (p.id :: seen) hchain.1 hchain.2
        (fun q hq => hmem q (by simp [hq])) hnodup.2 ?_ (by simpa using hfuel)
      · rw [restatedFrom, hlink']
        simp only [if_neg (hseen p (by simp)), hp, priorRun, hrec]
      · intro q hq
        rw [List.mem_cons, not_or]
        refine ⟨fun heq => ?_, hseen q (by simp [hq])⟩
        exact hnodup.1 (heq ▸ List.mem_map_of_mem hq)

/-- What a row adds to the billed hours of its run. -/
def heldHours (s : LaborBook) (r : CloseoutRow) : ℚ :=
  if r.billedInvoiceId.any s.isLive then r.manHoursBilled.getD (closeoutManHours r) else 0

theorem billedOver_eq (hids : (s.closeouts.map CloseoutRow.id).Nodup) :
    ∀ (rows : List CloseoutRow), (∀ r ∈ rows, r ∈ s.closeouts) →
    billedOver s rows = (rows.map (heldHours s)).sum
  | [], _ => rfl
  | r :: rows, hmem => by
    have hr := closeout?_of_mem hids (hmem r (by simp))
    have hrest := billedOver_eq hids rows fun x hx => hmem x (by simp [hx])
    have hholder : (closeoutHoursHolder s r).isSome = r.billedInvoiceId.any s.isLive := by
      simp only [closeoutHoursHolder, hr]
      cases r.billedInvoiceId with
      | none => rfl
      | some i => cases hi : s.isLive i <;> simp [Option.filter, hi]
    have hclaim : claimManHours s r = r.manHoursBilled.getD (closeoutManHours r) := by
      rw [claimManHours, hr]
      cases hb : r.manHoursBilled <;> simp [hb]
    unfold billedOver at hrest ⊢
    rw [List.filter_cons, hholder, List.map_cons, List.sum_cons, ← hrest, heldHours]
    split
    · rw [List.map_cons, List.sum_cons, hclaim]
    · rw [zero_add]

theorem priorRun_subset : ∀ (c : CloseoutRow) (ps : List CloseoutRow), priorRun s c ps ⊆ ps
  | _, [] => by simp [priorRun]
  | c, p :: ps => by
    rw [priorRun]
    split
    · exact List.cons_subset_cons p (priorRun_subset p ps)
    · exact List.nil_subset _

theorem closeoutManHours_nonneg (c : CloseoutRow) : 0 ≤ closeoutManHours c := by
  unfold closeoutManHours
  split
  · exact le_refl _
  · rename_i hpos
    push Not at hpos
    have hcrew : (0 : ℚ) ≤ crewOf c.techsOnSite := by
      have : 1 ≤ crewOf c.techsOnSite := le_max_left _ _
      exact_mod_cast (by omega : 0 ≤ crewOf c.techsOnSite)
    have hround : (0 : ℚ) ≤ roundupToHalf c.hoursWorked := by
      unfold roundupToHalf
      have : 0 ≤ ⌈c.hoursWorked * 2⌉ := Int.ceil_nonneg (by linarith)
      have : (0 : ℚ) ≤ (⌈c.hoursWorked * 2⌉ : ℚ) := by exact_mod_cast this
      linarith
    exact mul_nonneg hround hcrew

/-- The largest man-hours of some closeouts. -/
def peakHours (rows : List CloseoutRow) : ℚ := rows.foldr (fun r m => max (closeoutManHours r) m) 0

/-! ### The invariant -/

/-- Along the chain, what live invoices hold of each run is at most its largest closeout. -/
def RunsOk (s : LaborBook) : List CloseoutRow → Prop
  | [] => True
  | c :: ps => ((c :: priorRun s c ps).map (heldHours s)).sum ≤ peakHours (c :: priorRun s c ps) ∧
      RunsOk s ps

/-- Only the newest closeout is not superseded. -/
def Newest : List CloseoutRow → Prop
  | [] => True
  | c :: ps => c.superseded = false ∧ ∀ p ∈ ps, p.superseded = true

structure HoursOk (s : LaborBook) : Prop where
  ids : (s.closeouts.map CloseoutRow.id).Nodup
  idLt : ∀ c ∈ s.closeouts, c.id < s.nextCloseout
  chained : Chained s.closeouts
  newest : Newest s.closeouts
  flagged : ∀ c ∈ s.closeouts, c.isRestatement.isSome = true
  stamps : ∀ c ∈ s.closeouts, ∀ i ∈ c.billedInvoiceId, i < s.nextInvoice
  nonneg : ∀ c ∈ s.closeouts, ∀ h ∈ c.manHoursBilled, 0 ≤ h
  runs : RunsOk s s.closeouts

/-- A change that leaves what a closeout attests and its place in the chain. -/
structure SameAttestation (f : CloseoutRow → CloseoutRow) : Prop where
  id : ∀ c, (f c).id = c.id
  hours : ∀ c, (f c).hoursWorked = c.hoursWorked
  techs : ∀ c, (f c).techsOnSite = c.techsOnSite
  supersedes : ∀ c, (f c).supersedesId = c.supersedesId
  flag : ∀ c, (f c).isRestatement = c.isRestatement

theorem restates_of_flagged {c p : CloseoutRow} (h : c.isRestatement.isSome = true) :
    restates s c p = c.isRestatement.getD false := by
  unfold restates
  cases hc : c.isRestatement with
  | none => simp [hc] at h
  | some b => rfl

variable {f : CloseoutRow → CloseoutRow} {s' : LaborBook}

theorem SameAttestation.manHours (hf : SameAttestation f) (c : CloseoutRow) :
    closeoutManHours (f c) = closeoutManHours c := by
  rw [closeoutManHours, closeoutManHours, hf.hours, hf.techs]

theorem SameAttestation.chained (hf : SameAttestation f) : ∀ {rows : List CloseoutRow},
    Chained rows → Chained (rows.map f)
  | [], _ => trivial
  | c :: ps, ⟨hlink, hrest⟩ => by
    refine ⟨?_, hf.chained hrest⟩
    rw [hf.supersedes, hlink, List.head?_map, Option.map_map]
    congr 1
    funext p
    exact (hf.id p).symm

theorem SameAttestation.priorRun (hf : SameAttestation f) : ∀ (c : CloseoutRow) (ps : List CloseoutRow),
    (∀ r ∈ c :: ps, r.isRestatement.isSome = true) →
    Gdx.priorRun s' (f c) (ps.map f) = (Gdx.priorRun s c ps).map f
  | _, [], _ => rfl
  | c, p :: ps, hflag => by
    have hc := hflag c (by simp)
    have hrec := hf.priorRun p ps fun r hr => hflag r (List.mem_cons_of_mem _ hr)
    have hc' : (f c).isRestatement.isSome = true := by rw [hf.flag]; exact hc
    rw [List.map_cons, Gdx.priorRun, Gdx.priorRun, restates_of_flagged hc, restates_of_flagged hc',
      hf.flag, hrec]
    split <;> rfl

theorem SameAttestation.peakHours (hf : SameAttestation f) (rows : List CloseoutRow) :
    Gdx.peakHours (rows.map f) = Gdx.peakHours rows := by
  unfold Gdx.peakHours
  rw [List.foldr_map]
  congr 1
  funext r m
  rw [hf.manHours]

theorem sum_map_le {g h : CloseoutRow → ℚ} : ∀ {rows : List CloseoutRow}, (∀ r ∈ rows, g r ≤ h r) →
    (rows.map g).sum ≤ (rows.map h).sum
  | [], _ => le_refl _
  | r :: rows, hle => by
    have h1 := hle r (by simp)
    have h2 := sum_map_le fun x hx => hle x (List.mem_cons_of_mem r hx)
    rw [List.map_cons, List.map_cons, List.sum_cons, List.sum_cons]
    linarith

/-- Runs stay within bounds when no row holds more than it did. -/
theorem RunsOk.map (hf : SameAttestation f) : ∀ {rows : List CloseoutRow}, RunsOk s rows →
    (∀ r ∈ rows, r.isRestatement.isSome = true) →
    (∀ r ∈ rows, heldHours s' (f r) ≤ heldHours s r) → RunsOk s' (rows.map f)
  | [], _, _, _ => trivial
  | c :: ps, ⟨hrun, hrest⟩, hflag, hheld => by
    refine ⟨?_, hrest.map hf (fun r hr => hflag r (by simp [hr])) fun r hr => hheld r (by simp [hr])⟩
    have hsub : ∀ r ∈ c :: Gdx.priorRun s c ps, r ∈ c :: ps := fun r hr =>
      List.cons_subset_cons c (priorRun_subset c ps) hr
    have hmap : f c :: Gdx.priorRun s' (f c) (ps.map f) = (c :: Gdx.priorRun s c ps).map f := by
      rw [hf.priorRun (s := s) c ps hflag, List.map_cons]
    rw [hmap, hf.peakHours, List.map_map]
    exact (sum_map_le fun r hr => hheld r (hsub r hr)).trans hrun

/-- The invariant survives a change of stamps that gives no row more than it held. -/
theorem HoursOk.map (h : HoursOk s) (hf : SameAttestation f) (hsup : ∀ c, (f c).superseded = c.superseded)
    (hcloseouts : s'.closeouts = s.closeouts.map f) (hnext : s'.nextCloseout = s.nextCloseout)
    (hstamps : ∀ c ∈ s.closeouts, ∀ i ∈ (f c).billedInvoiceId, i < s'.nextInvoice)
    (hnonneg : ∀ c ∈ s.closeouts, ∀ x ∈ (f c).manHoursBilled, 0 ≤ x)
    (hheld : ∀ c ∈ s.closeouts, heldHours s' (f c) ≤ heldHours s c) : HoursOk s' := by
  have hmem : ∀ {P : CloseoutRow → Prop}, (∀ c ∈ s.closeouts, P (f c)) → ∀ c ∈ s'.closeouts, P c := by
    intro P hP c hc
    rw [hcloseouts] at hc
    obtain ⟨r, hr, rfl⟩ := List.mem_map.mp hc
    exact hP r hr
  refine ⟨?_, hmem ?_, ?_, ?_, hmem ?_, hmem hstamps, hmem hnonneg, ?_⟩
  · rw [hcloseouts, List.map_map]
    exact (List.map_congr_left fun c _ => hf.id c) ▸ h.ids
  · intro c hc
    rw [hf.id, hnext]
    exact h.idLt c hc
  · rw [hcloseouts]
    exact hf.chained h.chained
  · rw [hcloseouts]
    have hnewest := h.newest
    cases hs : s.closeouts with
    | nil => trivial
    | cons c ps =>
      rw [hs] at hnewest
      refine ⟨by rw [hsup]; exact hnewest.1, ?_⟩
      intro p hp
      obtain ⟨r, hr, rfl⟩ := List.mem_map.mp hp
      rw [hsup]
      exact hnewest.2 r hr
  · intro c hc
    rw [hf.flag]
    exact h.flagged c hc
  · rw [hcloseouts]
    exact h.runs.map hf h.flagged hheld

theorem SameAttestation.refl : SameAttestation fun c => c :=
  ⟨fun _ => rfl, fun _ => rfl, fun _ => rfl, fun _ => rfl, fun _ => rfl⟩

/-- The invariant reads the closeouts and which invoices are live, and nothing else. -/
theorem HoursOk.congr (h : HoursOk s) (hcloseouts : s'.closeouts = s.closeouts)
    (hnext : s'.nextCloseout = s.nextCloseout) (hinv : s.nextInvoice ≤ s'.nextInvoice)
    (hlive : ∀ i < s.nextInvoice, s'.isLive i = s.isLive i) : HoursOk s' := by
  refine h.map SameAttestation.refl (fun _ => rfl) (by rw [hcloseouts, List.map_id']) hnext ?_ h.nonneg ?_
  · exact fun c hc i hi => (h.stamps c hc i hi).trans_le hinv
  · intro c hc
    unfold heldHours
    cases hb : c.billedInvoiceId with
    | none => simp
    | some i => simp [hlive i (h.stamps c hc i hb)]

/-! ### One step -/

theorem HoursOk.current_eq (h : HoursOk s) : s.current = s.closeouts.head? := by
  unfold LaborBook.current
  cases hs : s.closeouts with
  | nil => rfl
  | cons c ps =>
    have hnewest := h.newest
    rw [hs] at hnewest
    simp [hnewest.1]

theorem heldHours_nonneg {c : CloseoutRow} (h : ∀ x ∈ c.manHoursBilled, 0 ≤ x) : 0 ≤ heldHours s c := by
  unfold heldHours
  split
  · cases hb : c.manHoursBilled with
    | none => exact closeoutManHours_nonneg c
    | some x => exact h x hb
  · exact le_refl _

theorem le_peakHours_cons (c : CloseoutRow) (rows : List CloseoutRow) :
    closeoutManHours c ≤ peakHours (c :: rows) ∧ peakHours rows ≤ peakHours (c :: rows) :=
  ⟨le_max_left _ _, le_max_right _ _⟩

/-- A live invoice after an update of one that keeps or ends it was live before. -/
theorem isLive_updateInvoice {k : ℕ} {g : LaborInvoice → LaborInvoice} (hid : ∀ i, (g i).id = i.id)
    (hdead : ∀ i, (g i).live = true → i.live = true) {j : ℕ}
    (h : (s.updateInvoice k g).isLive j = true) : s.isLive j = true := by
  unfold LaborBook.isLive LaborBook.updateInvoice at *
  rw [List.any_map] at h
  refine List.any_eq_true.mpr ?_
  obtain ⟨i, hi, hlive⟩ := List.any_eq_true.mp h
  refine ⟨i, hi, ?_⟩
  simp only [Function.comp_apply, Bool.and_eq_true, decide_eq_true_eq] at hlive ⊢
  split at hlive
  · exact ⟨hid i ▸ hlive.1, hdead i hlive.2⟩
  · exact hlive

theorem SameAttestation.unstamp (k : ℕ) : SameAttestation fun c =>
    if c.billedInvoiceId = some k then { c with billedInvoiceId := none } else c := by
  constructor <;> intro c <;> split <;> rfl

/-- A release, with or without the end of an invoice, lowers what is held. -/
theorem HoursOk.release (h : HoursOk s) (k : ℕ) {s' : LaborBook}
    (hcloseouts : s'.closeouts = (releaseCloseoutHours s k).closeouts)
    (hnext : s'.nextCloseout = s.nextCloseout) (hinv : s'.nextInvoice = s.nextInvoice)
    (hlive : ∀ i, s'.isLive i = true → s.isLive i = true) : HoursOk s' := by
  refine h.map (SameAttestation.unstamp k) ?_ hcloseouts hnext ?_ ?_ ?_
  · intro c
    split <;> rfl
  · intro c hc i hi
    rw [hinv]
    split at hi
    · simp at hi
    · exact h.stamps c hc i hi
  · intro c hc x hx
    split at hx
    · exact h.nonneg c hc x hx
    · exact h.nonneg c hc x hx
  · intro c hc
    have hpos := heldHours_nonneg (s := s) (h.nonneg c hc)
    split
    · exact hpos
    · unfold heldHours at hpos ⊢
      cases hb : c.billedInvoiceId with
      | none => simp
      | some i =>
        rw [hb] at hpos
        simp only [Option.any_some] at hpos ⊢
        by_cases hl : s'.isLive i = true
        · simp [hl, hlive i hl]
        · rw [if_neg hl]
          exact hpos

theorem SameAttestation.supersede (k : Option ℕ) :
    SameAttestation fun c => if some c.id = k then { c with superseded := true } else c := by
  constructor <;> intro c <;> split <;> rfl

theorem supersede_current {c : CloseoutRow} {ps : List CloseoutRow}
    (hsup : ∀ p ∈ ps, p.superseded = true) :
    ∀ r ∈ (c :: ps).map (fun r => if some r.id = some c.id then { r with superseded := true } else r),
      r.superseded = true := by
  intro r hr
  obtain ⟨q, hq, rfl⟩ := List.mem_map.mp hr
  split
  · rfl
  · rename_i hne
    rcases List.mem_cons.mp hq with rfl | hq
    · exact absurd rfl hne
    · exact hsup q hq

/-- A new closeout holds nothing, so its run holds what the run it restates holds. -/
theorem HoursOk.closeout (h : HoursOk s) (hours : ℚ) (techs : Option ℤ) (now : ℤ) :
    HoursOk (closeoutJob s hours techs now) := by
  set f : CloseoutRow → CloseoutRow := fun c =>
    if some c.id = s.current.map CloseoutRow.id then { c with superseded := true } else c with hf
  have hsame : SameAttestation f := SameAttestation.supersede _
  have hfields : ∀ c, (f c).billedInvoiceId = c.billedInvoiceId ∧
      (f c).manHoursBilled = c.manHoursBilled := by
    intro c
    rw [hf]
    dsimp only
    split <;> exact ⟨rfl, rfl⟩
  set s' := closeoutJob s hours techs now with hs'
  have hcloseouts : s'.closeouts = _ :: s.closeouts.map f := rfl
  have hlive : ∀ i, s'.isLive i = s.isLive i := fun _ => rfl
  have hheld : ∀ c, heldHours s' (f c) = heldHours s c := by
    intro c
    rw [heldHours, heldHours, (hfields c).1, (hfields c).2, hsame.manHours]
    rfl
  have hrest : RunsOk s' (s.closeouts.map f) :=
    h.runs.map hsame h.flagged fun r _ => (hheld r).le
  have hmem : ∀ {P : CloseoutRow → Prop}, (∀ c ∈ s.closeouts, P (f c)) →
      ∀ c ∈ s.closeouts.map f, P c := by
    intro P hP c hc
    obtain ⟨r, hr, rfl⟩ := List.mem_map.mp hc
    exact hP r hr
  have hmapIds : (s.closeouts.map f).map CloseoutRow.id = s.closeouts.map CloseoutRow.id := by
    rw [List.map_map]
    exact List.map_congr_left fun c _ => hsame.id c
  refine ⟨?_, ?_, ?_, ?_, ?_, ?_, ?_, ?_⟩
  · rw [hcloseouts, List.map_cons, List.nodup_cons, hmapIds]
    refine ⟨fun hmem' => ?_, h.ids⟩
    obtain ⟨c, hc, hid⟩ := List.mem_map.mp hmem'
    exact (h.idLt c hc).ne hid
  · rw [hcloseouts, List.forall_mem_cons]
    refine ⟨Nat.lt_succ_self _, hmem fun c hc => ?_⟩
    rw [hsame.id]
    exact Nat.lt_succ_of_lt (h.idLt c hc)
  · rw [hcloseouts]
    refine ⟨?_, hsame.chained h.chained⟩
    change s.current.map CloseoutRow.id = _
    rw [h.current_eq, List.head?_map, Option.map_map]
    congr 1
    funext c
    exact (hsame.id c).symm
  · rw [hcloseouts]
    refine ⟨rfl, ?_⟩
    cases hs : s.closeouts with
    | nil => simp
    | cons c ps =>
      have hcur : s.current.map CloseoutRow.id = some c.id := by rw [h.current_eq, hs]; rfl
      have hnewest := h.newest
      rw [hs] at hnewest
      rw [hf, hcur]
      exact supersede_current hnewest.2
  · rw [hcloseouts, List.forall_mem_cons]
    exact ⟨rfl, hmem fun c hc => by rw [hsame.flag]; exact h.flagged c hc⟩
  · rw [hcloseouts, List.forall_mem_cons]
    exact ⟨by simp, hmem fun c hc i hi => h.stamps c hc i ((hfields c).1 ▸ hi)⟩
  · rw [hcloseouts, List.forall_mem_cons]
    exact ⟨by simp, hmem fun c hc x hx => h.nonneg c hc x ((hfields c).2 ▸ hx)⟩
  · rw [hcloseouts]
    refine ⟨?_, hrest⟩
    rw [List.map_cons, List.sum_cons]
    have hzero : ∀ r : CloseoutRow, r.billedInvoiceId = none → heldHours s' r = 0 := by
      intro r hr
      simp [heldHours, hr]
    rw [hzero _ rfl, zero_add]
    refine le_trans ?_ (le_peakHours_cons _ _).2
    cases hs : s.closeouts.map f with
    | nil => exact le_refl _
    | cons p ps =>
      rw [hs] at hrest
      rw [priorRun]
      split
      · exact hrest.1
      · exact le_refl _

/-! ### A claim -/

theorem HoursOk.restatedRun_eq (h : HoursOk s) (pre : List CloseoutRow) {ps : List CloseoutRow} {c : CloseoutRow}
    (hs : s.closeouts = pre ++ c :: ps) : restatedRun s c = priorRun s c ps := by
  have hchain : ∀ {l : List CloseoutRow}, Chained (l ++ c :: ps) → Chained (c :: ps) := by
    intro l
    induction l with
    | nil => exact fun hl => hl
    | cons a l ih => exact fun hl => ih hl.2
  obtain ⟨hlink, hrest⟩ := hchain (hs ▸ h.chained)
  have hsub : (c :: ps).Sublist s.closeouts := hs ▸ List.sublist_append_right _ _
  have hnodup : ((c :: ps).map CloseoutRow.id).Nodup := h.ids.sublist (hsub.map _)
  rw [List.map_cons, List.nodup_cons] at hnodup
  refine restatedFrom_eq h.ids ps c _ [] hlink hrest ?_ hnodup.2 (by simp) ?_
  · exact fun p hp => hsub.subset (List.mem_cons_of_mem _ hp)
  · have := hsub.length_le
    simp only [List.length_cons] at this
    omega

/-- What live invoices hold of a closeout and the rows it restates. -/
def runBilled (s : LaborBook) (c : CloseoutRow) : ℚ := billedOver s (c :: restatedRun s c)

/-- The largest man-hours of a closeout and the rows it restates. -/
def runPeak (s : LaborBook) (c : CloseoutRow) : ℚ := peakHours (c :: restatedRun s c)

theorem HoursOk.runBilled_eq (h : HoursOk s) (pre : List CloseoutRow) {ps : List CloseoutRow} {c : CloseoutRow}
    (hs : s.closeouts = pre ++ c :: ps) :
    runBilled s c = ((c :: priorRun s c ps).map (heldHours s)).sum := by
  rw [runBilled, h.restatedRun_eq pre hs, billedOver_eq h.ids]
  have hsub : (c :: ps).Sublist s.closeouts := hs ▸ List.sublist_append_right _ _
  exact fun r hr => hsub.subset (List.cons_subset_cons c (priorRun_subset c ps) hr)

/-- In every run the live invoices hold at most the largest closeout. -/
theorem HoursOk.runBilled_le (h : HoursOk s) {c : CloseoutRow} (hc : c ∈ s.closeouts) :
    runBilled s c ≤ runPeak s c := by
  obtain ⟨pre, ps, hs⟩ := List.append_of_mem hc
  have hruns : ∀ {l : List CloseoutRow}, RunsOk s (l ++ c :: ps) → RunsOk s (c :: ps) := by
    intro l
    induction l with
    | nil => exact fun hl => hl
    | cons a l ih => exact fun hl => ih hl.2
  rw [h.runBilled_eq pre hs, runPeak, h.restatedRun_eq pre hs]
  exact (hruns (hs ▸ h.runs)).1

/-- The stamp of a claim. -/
def stamped (c : CloseoutRow) (invoiceId : ℕ) (hours : ℚ) : CloseoutRow :=
  { c with billedInvoiceId := some invoiceId, manHoursBilled := some hours }

theorem HoursOk.update_head (h : HoursOk s) {c : CloseoutRow} {ps : List CloseoutRow}
    (hs : s.closeouts = c :: ps) (g : CloseoutRow → CloseoutRow) :
    s.updateCloseout c.id g = { s with closeouts := g c :: ps } := by
  have hids := h.ids
  rw [hs, List.map_cons, List.nodup_cons] at hids
  have hrest : ps.map (fun p => if p.id = c.id then g p else p) = ps := by
    refine (List.map_congr_left fun p hp => ?_).trans (List.map_id' ps)
    refine if_neg fun hid => hids.1 ?_
    exact hid ▸ List.mem_map_of_mem hp
  rw [LaborBook.updateCloseout, hs, List.map_cons, if_pos rfl, hrest]

/-- What a successful claim does: it had hours to bill, nobody live held the row, and it is stamped. -/
theorem HoursOk.claim_eq (h : HoursOk s) {i : ℕ} {c : CloseoutRow} {ps : List CloseoutRow}
    (hs : s.closeouts = c :: ps) :
    (claimCloseoutHours s i (some c)).2 = false ∧ (claimCloseoutHours s i (some c)).1 = s ∨
      (claimCloseoutHours s i (some c)).2 = true ∧ 0 < closeoutManHoursToBill s c ∧
        c.billedInvoiceId.any s.isLive = false ∧
        (claimCloseoutHours s i (some c)).1 =
          { s with closeouts := stamped c i (closeoutManHoursToBill s c) :: ps } := by
  have hc := closeout?_of_mem h.ids (hs ▸ List.mem_cons_self : c ∈ s.closeouts)
  simp only [claimCloseoutHours, hc]
  split
  · exact Or.inl ⟨rfl, rfl⟩
  · rename_i hpos
    push Not at hpos
    split
    · exact Or.inl ⟨rfl, rfl⟩
    · rename_i hfree
      refine Or.inr ⟨rfl, hpos, by simpa using hfree, ?_⟩
      rw [h.update_head hs]
      rfl

section Claim

variable {i : ℕ} {c : CloseoutRow} {ps : List CloseoutRow} {t : ℚ}

theorem heldHours_stamped (hlive : s.isLive i = true) (rows : List CloseoutRow) :
    heldHours { s with closeouts := rows } (stamped c i t) = t := by
  have hlive' : ({ s with closeouts := rows } : LaborBook).isLive i = true := hlive
  simp [heldHours, stamped, hlive']

theorem priorRun_congr (hc : c.isRestatement.isSome = true)
    (hps : ∀ p ∈ ps, p.isRestatement.isSome = true) {c' : CloseoutRow}
    (hflag : c'.isRestatement = c.isRestatement) : priorRun s' c' ps = priorRun s c ps := by
  induction ps generalizing c c' with
  | nil => rfl
  | cons p ps ih =>
    have hc' : c'.isRestatement.isSome = true := by rw [hflag]; exact hc
    have hp := hps p (by simp)
    rw [priorRun, priorRun, restates_of_flagged hc, restates_of_flagged hc', hflag,
      ih hp (fun q hq => hps q (by simp [hq])) rfl]

/-- The rows of the claimed run after the claim hold the current closeout's figure. -/
theorem HoursOk.claimed_sum (h : HoursOk s) (hs : s.closeouts = c :: ps) (hlive : s.isLive i = true)
    (hpos : 0 < closeoutManHoursToBill s c) :
    ((stamped c i (closeoutManHoursToBill s c) :: priorRun s c ps).map
      (heldHours { s with closeouts := stamped c i (closeoutManHoursToBill s c) :: ps })).sum =
      closeoutManHours c := by
  have hbefore : closeoutHoursBilledBefore s c = ((priorRun s c ps).map (heldHours s)).sum := by
    rw [closeoutHoursBilledBefore, h.restatedRun_eq [] hs, billedOver_eq h.ids]
    exact fun r hr => hs ▸ List.mem_cons_of_mem _ (priorRun_subset c ps hr)
  rw [List.map_cons, List.sum_cons, heldHours_stamped hlive]
  have hrest : (priorRun s c ps).map
      (heldHours { s with closeouts := stamped c i (closeoutManHoursToBill s c) :: ps }) =
      (priorRun s c ps).map (heldHours s) := List.map_congr_left fun r _ => rfl
  rw [hrest, ← hbefore]
  unfold closeoutManHoursToBill at hpos ⊢
  rcases lt_max_iff.mp hpos with hlt | hlt
  · exact absurd hlt (lt_irrefl _)
  · rw [max_eq_right hlt.le]
    ring

theorem HoursOk.claimed (h : HoursOk s) (hs : s.closeouts = c :: ps) (hlive : s.isLive i = true)
    (hinv : i < s.nextInvoice) (hpos : 0 < closeoutManHoursToBill s c) :
    HoursOk { s with closeouts := stamped c i (closeoutManHoursToBill s c) :: ps } := by
  have hflag := h.flagged
  have hnewest := h.newest
  have hids := h.ids
  have hidLt := h.idLt
  have hstamps := h.stamps
  have hnonneg := h.nonneg
  have hchained := h.chained
  have hruns := h.runs
  rw [hs, List.forall_mem_cons] at hflag hidLt hstamps hnonneg
  rw [hs] at hnewest hids hchained hruns
  refine ⟨hids, ?_, hchained, hnewest, ?_, ?_, ?_, ?_, ?_⟩
  · exact List.forall_mem_cons.mpr hidLt
  · exact List.forall_mem_cons.mpr hflag
  · refine List.forall_mem_cons.mpr ⟨?_, hstamps.2⟩
    intro j hj
    obtain rfl : i = j := by simpa [stamped] using hj
    exact hinv
  · refine List.forall_mem_cons.mpr ⟨?_, hnonneg.2⟩
    intro x hx
    obtain rfl : closeoutManHoursToBill s c = x := by simpa [stamped] using hx
    exact hpos.le
  · have hrun : priorRun { s with closeouts := stamped c i (closeoutManHoursToBill s c) :: ps }
        (stamped c i (closeoutManHoursToBill s c)) ps = priorRun s c ps :=
      priorRun_congr hflag.1 hflag.2 rfl
    rw [hrun, h.claimed_sum hs hlive hpos]
    exact (le_peakHours_cons (stamped c i _) _).1
  · have hmap : RunsOk { s with closeouts := stamped c i (closeoutManHoursToBill s c) :: ps } (ps.map fun r => r) :=
      hruns.2.map SameAttestation.refl hflag.2 (fun r _ => le_refl (heldHours s r))
    rwa [List.map_id'] at hmap

end Claim

theorem HoursOk.claim (h : HoursOk s) {i : ℕ} (hlive : s.isLive i = true) (hinv : i < s.nextInvoice) :
    HoursOk (claimCloseoutHours s i s.current).1 := by
  rw [h.current_eq]
  cases hs : s.closeouts with
  | nil => exact h
  | cons c ps =>
    rcases h.claim_eq (i := i) hs with ⟨-, heq⟩ | ⟨-, hpos, -, heq⟩
    · rw [List.head?_cons, heq]
      exact h
    · rw [List.head?_cons, heq]
      exact h.claimed hs hlive hinv hpos

/-! ### The hours as sent -/

/-- The half hours that an hour count bills, for one of the crew. -/
def halvesOf (hours : ℚ) : ℚ := if hours ≤ 0 then 0 else roundupToHalf hours

/-- The hours bill what their column's value bills. -/
def BillsAsStored (sent : Option ℚ) : Prop := ∀ hours ∈ sent, halvesOf (hoursColumn hours) = halvesOf hours

/-- A claim in the request that records the closeout bills what the row attests. -/
def LaborStep.AsStored : LaborStep → Prop
  | .claim _ sent => BillsAsStored sent
  | _ => True

theorem manHours_with (c : CloseoutRow) (hours : ℚ) :
    closeoutManHours { c with hoursWorked := hours } = halvesOf hours * crewOf c.techsOnSite := by
  rw [closeoutManHours, halvesOf]
  split_ifs
  · rw [zero_mul]
  · rfl

theorem manHours_held {sent : Option ℚ} (hsent : BillsAsStored sent) (c : CloseoutRow) :
    closeoutManHours { c with hoursWorked :=
      (sent.filter fun hours => hoursColumn hours = c.hoursWorked).getD c.hoursWorked } = closeoutManHours c := by
  cases hheld : sent.filter fun hours => hoursColumn hours = c.hoursWorked with
  | none => rfl
  | some hours =>
    obtain ⟨hmem, hcolumn⟩ := Option.filter_eq_some_iff.mp hheld
    rw [decide_eq_true_eq] at hcolumn
    rw [Option.getD_some, manHours_with, ← hsent hours hmem, hcolumn, ← manHours_with]

/-- Then the claim is that of the row. -/
theorem claim_held {sent : Option ℚ} (hsent : BillsAsStored sent) (i : ℕ) :
    claimCloseoutHours s i (s.held sent) = claimCloseoutHours s i s.current := by
  unfold LaborBook.held
  cases s.current with
  | none => rfl
  | some c =>
    have hbefore : ∀ hours, closeoutHoursBilledBefore s { c with hoursWorked := hours } =
        closeoutHoursBilledBefore s c := by
      intro hours
      unfold closeoutHoursBilledBefore restatedRun
      cases s.closeouts.length <;> rfl
    simp only [Option.map_some, claimCloseoutHours, closeoutManHoursToBill, manHours_held hsent, hbefore]
    rfl

/-! ### Runs -/

/-- The invoices have numbers of their own. -/
structure InvoicesNumbered (s : LaborBook) : Prop where
  below : ∀ i ∈ s.invoices, i.id < s.nextInvoice
  ids : (s.invoices.map LaborInvoice.id).Nodup

/-- The closeouts are in order, and so are the invoices. -/
structure BookOk (s : LaborBook) : Prop where
  hours : HoursOk s
  invoices : InvoicesNumbered s

theorem InvoicesNumbered.live_lt (h : InvoicesNumbered s) {i : ℕ} (hlive : s.isLive i = true) : i < s.nextInvoice := by
  obtain ⟨inv, hinv, hsel⟩ := List.any_eq_true.mp hlive
  simp only [Bool.and_eq_true, decide_eq_true_eq] at hsel
  exact hsel.1 ▸ h.below inv hinv

theorem InvoicesNumbered.update (h : InvoicesNumbered s) {k : ℕ} {g : LaborInvoice → LaborInvoice}
    (hid : ∀ i, (g i).id = i.id) : InvoicesNumbered (s.updateInvoice k g) := by
  have hids : (s.updateInvoice k g).invoices.map LaborInvoice.id = s.invoices.map LaborInvoice.id := by
    rw [LaborBook.updateInvoice, List.map_map]
    refine List.map_congr_left fun i _ => ?_
    simp only [Function.comp_apply]
    split
    · exact hid i
    · rfl
  refine ⟨fun i hi => ?_, hids ▸ h.ids⟩
  have hmem : i.id ∈ s.invoices.map LaborInvoice.id := hids ▸ List.mem_map_of_mem hi
  obtain ⟨j, hj, heq⟩ := List.mem_map.mp hmem
  exact heq ▸ h.below j hj

/-- The end of an invoice, with its stamps released. -/
theorem HoursOk.end_invoice (h : HoursOk s) (k : ℕ) {g : LaborInvoice → LaborInvoice}
    (hid : ∀ i, (g i).id = i.id) (hdead : ∀ i, (g i).live = true → i.live = true) :
    HoursOk ((releaseCloseoutHours s k).updateInvoice k g) :=
  h.release k rfl rfl rfl fun _ hi => isLive_updateInvoice (s := releaseCloseoutHours s k) hid hdead hi

/-- A build changes the lines of an invoice and nothing the closeouts read. -/
theorem buildLabor_book (zone : ShopZone) (s : LaborBook) (k : ℕ) (dayRows : List DayRow) (sent : Option ℚ) :
    ∃ lines, (buildLabor zone s k dayRows sent).1 = s ∨
      (buildLabor zone s k dayRows sent).1 = s.updateInvoice k fun i => { i with lines := lines } := by
  unfold buildLabor
  split
  · exact ⟨_, Or.inr rfl⟩
  · exact ⟨[], Or.inl rfl⟩

theorem isLive_updateLines {k : ℕ} {lines : List LaborLine} (j : ℕ) :
    (s.updateInvoice k fun i => { i with lines := lines }).isLive j = s.isLive j := by
  unfold LaborBook.isLive LaborBook.updateInvoice
  rw [List.any_map]
  congr 1
  funext i
  simp only [Function.comp_apply]
  split <;> rfl

/-- A claim stamps a closeout and leaves the invoices. -/
theorem claim_invoices (s : LaborBook) (k : ℕ) (closeout : Option CloseoutRow) :
    (claimCloseoutHours s k closeout).1.invoices = s.invoices ∧
      (claimCloseoutHours s k closeout).1.nextInvoice = s.nextInvoice := by
  unfold claimCloseoutHours
  split
  · exact ⟨rfl, rfl⟩
  · dsimp only
    split
    · exact ⟨rfl, rfl⟩
    · split
      · exact ⟨rfl, rfl⟩
      · split <;> exact ⟨rfl, rfl⟩

theorem InvoicesNumbered.step (h : InvoicesNumbered s) (zone : ShopZone) (step : LaborStep) :
    InvoicesNumbered (laborStep zone s step) := by
  cases step with
  | closeout hours techs now => exact ⟨h.below, h.ids⟩
  | uncomplete now => exact ⟨h.below, h.ids⟩
  | newInvoice createdAt =>
    refine ⟨fun i hi => ?_, ?_⟩
    · rcases List.mem_append.mp hi with hi | hi
      · exact Nat.lt_succ_of_lt (h.below i hi)
      · rw [List.mem_singleton.mp hi]
        exact Nat.lt_succ_self _
    · rw [laborStep, List.map_append, List.nodup_append]
      refine ⟨h.ids, by simp, ?_⟩
      rintro a ha b hb rfl
      obtain ⟨i, hi, rfl⟩ := List.mem_map.mp ha
      have heq : i.id = s.nextInvoice := by simpa using hb
      exact (h.below i hi).ne heq
  | claim k sent =>
    rw [laborStep]
    split
    · obtain ⟨hsame, hnext⟩ := claim_invoices s k (s.held sent)
      exact ⟨hsame ▸ hnext ▸ h.below, hsame ▸ h.ids⟩
    · exact h
  | release k => exact ⟨h.below, h.ids⟩
  | build k dayRows sent =>
    obtain ⟨lines, heq | heq⟩ := buildLabor_book zone s k dayRows sent <;> rw [laborStep, heq]
    · exact h
    · exact h.update fun _ => rfl
  | void k => exact InvoicesNumbered.update (s := releaseCloseoutHours s k) ⟨h.below, h.ids⟩ fun _ => rfl
  | delete k => exact InvoicesNumbered.update (s := releaseCloseoutHours s k) ⟨h.below, h.ids⟩ fun _ => rfl
  | saveSettings settings => exact ⟨h.below, h.ids⟩

theorem BookOk.step (h : BookOk s) (zone : ShopZone) {step : LaborStep} (hstored : step.AsStored) :
    BookOk (laborStep zone s step) := by
  refine ⟨?_, h.invoices.step zone step⟩
  cases step with
  | closeout hours techs now => exact h.hours.closeout hours techs now
  | uncomplete now => exact h.hours.congr rfl rfl (le_refl _) fun _ _ => rfl
  | newInvoice createdAt =>
    refine h.hours.congr rfl rfl (Nat.le_succ _) fun i hi => ?_
    have hne : ¬s.nextInvoice = i := hi.ne'
    simp [LaborBook.isLive, laborStep, hne]
  | claim k sent =>
    rw [laborStep, claim_held hstored]
    split
    · rename_i hlive
      exact h.hours.claim hlive (h.invoices.live_lt hlive)
    · exact h.hours
  | release k => exact h.hours.release k rfl rfl rfl fun _ hi => hi
  | build k dayRows sent =>
    obtain ⟨lines, heq | heq⟩ := buildLabor_book zone s k dayRows sent <;> rw [laborStep, heq]
    · exact h.hours
    · exact h.hours.congr rfl rfl (le_refl _) fun i _ => isLive_updateLines i
  | void k => exact h.hours.end_invoice k (fun _ => rfl) fun i hi => by simp [LaborInvoice.live] at hi
  | delete k => exact h.hours.end_invoice k (fun _ => rfl) fun i hi => by simp [LaborInvoice.live] at hi
  | saveSettings settings => exact h.hours.congr rfl rfl (le_refl _) fun _ _ => rfl

theorem invoicesNumbered_fresh (lane : PricingLane) (settings : Option PricingSettings) :
    InvoicesNumbered (LaborBook.fresh lane settings) := by
  constructor <;> simp [LaborBook.fresh]

theorem bookOk_fresh (lane : PricingLane) (settings : Option PricingSettings) :
    BookOk (LaborBook.fresh lane settings) := by
  refine ⟨⟨?_, ?_, trivial, trivial, ?_, ?_, ?_, trivial⟩, invoicesNumbered_fresh lane settings⟩ <;> simp [LaborBook.fresh]

theorem runLabor_ok (zone : ShopZone) {s : LaborBook} (h : BookOk s) :
    ∀ steps : List LaborStep, (∀ step ∈ steps, step.AsStored) → BookOk (runLabor zone s steps) := by
  intro steps hsteps
  induction steps generalizing s with
  | nil => exact h
  | cons step steps ih =>
    obtain ⟨hstep, hrest⟩ := List.forall_mem_cons.mp hsteps
    exact ih (h.step zone hstep) hrest

/-- The walk and the lookups go by id, so a row before its claim stands for the row after it. -/
theorem runBilled_stamped (s : LaborBook) (c : CloseoutRow) (i : ℕ) (t : ℚ) :
    runBilled s c = runBilled s (stamped c i t) := by
  have hrun : restatedRun s (stamped c i t) = restatedRun s c := by
    unfold restatedRun
    cases s.closeouts.length <;> rfl
  have hholder : closeoutHoursHolder s (stamped c i t) = closeoutHoursHolder s c := rfl
  have hclaim : claimManHours s (stamped c i t) = claimManHours s c := rfl
  rw [runBilled, runBilled, hrun, billedOver, billedOver, List.filter_cons, List.filter_cons, hholder]
  split
  · rw [List.map_cons, List.map_cons, hclaim]
  · rfl

/-- A restated day is billed once: after any closeouts, reopenings, claims, releases, builds, voids and
    deletions on a job, where the hours that a claim bills as they were sent bill what their column's value bills, in
    every run of restatements live invoices hold at most the largest closeout of the run, and a claim of the current
    closeout by a live invoice, when it succeeds, brings what they hold to the larger of its man-hours and what the run
    had billed. -/
theorem restated_day_billed_once (zone : ShopZone) (lane : PricingLane)
    (settings : Option PricingSettings) (steps : List LaborStep) (hsteps : ∀ step ∈ steps, step.AsStored) :
    let s := runLabor zone (LaborBook.fresh lane settings) steps
    (∀ c ∈ s.closeouts, runBilled s c ≤ runPeak s c) ∧
      ∀ i sent c, BillsAsStored sent → s.isLive i = true → s.current = some c →
        (claimCloseoutHours s i (s.held sent)).2 = true →
        runBilled (claimCloseoutHours s i (s.held sent)).1 c = max (closeoutManHours c) (runBilled s c) := by
  have hbook := runLabor_ok zone (bookOk_fresh lane settings) steps hsteps
  have h := hbook.hours
  refine ⟨fun c hc => h.runBilled_le hc, ?_⟩
  intro i sent c hsent hlive hcur hok
  generalize runLabor zone (LaborBook.fresh lane settings) steps = s at *
  rw [claim_held hsent, hcur] at hok ⊢
  obtain ⟨ps, hs⟩ : ∃ ps, s.closeouts = c :: ps := by
    rw [h.current_eq] at hcur
    exact List.head?_eq_some_iff.mp hcur
  rcases h.claim_eq (i := i) hs with ⟨hfalse, -⟩ | ⟨-, hpos, hfree, heq⟩
  · rw [hfalse] at hok
    simp at hok
  · have hafter := h.claimed hs hlive (hbook.invoices.live_lt hlive) hpos
    have hflag := h.flagged
    rw [hs, List.forall_mem_cons] at hflag
    have hrun : priorRun { s with closeouts := stamped c i (closeoutManHoursToBill s c) :: ps }
        (stamped c i (closeoutManHoursToBill s c)) ps = priorRun s c ps :=
      priorRun_congr hflag.1 hflag.2 rfl
    rw [heq, runBilled_stamped _ c i (closeoutManHoursToBill s c), hafter.runBilled_eq [] rfl,
      hrun, h.claimed_sum hs hlive hpos]
    have hbefore : runBilled s c = closeoutHoursBilledBefore s c := by
      rw [h.runBilled_eq [] hs, List.map_cons, List.sum_cons, closeoutHoursBilledBefore,
        h.restatedRun_eq [] hs, billedOver_eq h.ids]
      · simp [heldHours, hfree]
      · exact fun r hr => hs ▸ List.mem_cons_of_mem _ (priorRun_subset c ps hr)
    have hlt : closeoutHoursBilledBefore s c < closeoutManHours c := by
      unfold closeoutManHoursToBill at hpos
      rcases lt_max_iff.mp hpos with hlt | hlt
      · exact absurd hlt (lt_irrefl _)
      · linarith
    rw [hbefore, max_eq_left hlt.le]

/-- Two hours closed out and claimed by one invoice, then restated as three, with a second invoice open. -/
def restatedOnce : List LaborStep :=
  [.closeout 2 (some 1) 0, .newInvoice none, .claim 0 none, .closeout 3 (some 1) 1, .newInvoice none]

theorem restatedOnce_asStored : ∀ step ∈ restatedOnce, step.AsStored := by
  simp [restatedOnce, LaborStep.AsStored, BillsAsStored]

theorem restated_day_billed_once_three_hours :
    let s := runLabor utcZone (LaborBook.fresh .service none) restatedOnce
    s.closeouts.map (fun c => (closeoutManHours c, runBilled s c)) = [(3, 2), (2, 2)] ∧
      ∀ c, s.current = some c →
        runBilled (claimCloseoutHours s 1 (s.held (some 3))).1 c = max (closeoutManHours c) (runBilled s c) := by
  refine ⟨by decide +kernel, fun c hc => ?_⟩
  have hsent : BillsAsStored (some 3) := by
    rintro hours ⟨⟩
    decide +kernel
  exact (restated_day_billed_once utcZone .service none restatedOnce restatedOnce_asStored).2 1 (some 3) c hsent
    (by decide +kernel) hc (by decide +kernel)

/-- A draft made as the closeout is recorded bills 2.004 hours as two and a half; the row keeps two. -/
theorem sent_hours_overbilled :
    let s := runLabor utcZone (LaborBook.fresh .service none)
      [.closeout (2004 / 1000) (some 1) 0, .newInvoice none, .claim 0 (some (2004 / 1000))]
    s.closeouts.map (fun c => (runBilled s c, runPeak s c)) = [(5 / 2, 2)] ∧
      ¬∀ c ∈ s.closeouts, runBilled s c ≤ runPeak s c := by
  decide +kernel

end Chain

end Gdx
