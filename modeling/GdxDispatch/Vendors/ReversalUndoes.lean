import GdxDispatch.Vendors.LineEffects

/-! Reversing a line undoes confirming it.

    Over every run, stock, expenses and checklist hold what the confirmed lines put there and nothing of the lines taken
    back. The notes of a linked part do as well, as long as each reversal finds the marker of its bill once in notes that
    splitting and joining leaves alone: the text of the notes is all a reversal has to go by. -/

namespace Gdx
open Lib

variable {H : ContentHash} {base : ℕ} {start desk desk' : BillDesk} {line : VendorInvoiceLine}
  {g : VendorInvoiceLine → VendorInvoiceLine}

/-! ### Markers -/

/-- The number of a bill. -/
def BillDesk.numberOf (desk : BillDesk) (bill : ℕ) : Option Text := (desk.bill bill).map (·.invoiceNumber)

/-- The marker a line of the bill leaves on a part. -/
def BillDesk.markerOf (desk : BillDesk) (l : VendorInvoiceLine) : Text :=
  "Billed on vendor invoice ".toList ++ (desk.numberOf l.vendorInvoiceId).getD []

theorem markerOf_ne_nil (desk : BillDesk) (l : VendorInvoiceLine) : desk.markerOf l ≠ [] :=
  List.append_ne_nil_of_left_ne_nil (by decide) _

theorem markerOf_bill {bill : VendorInvoice} (h : desk.bill line.vendorInvoiceId = some bill) :
    desk.markerOf line = billedMarker bill := by
  unfold BillDesk.markerOf BillDesk.numberOf
  rw [h]
  rfl

theorem markerOf_congr (h : ∀ bill, desk'.numberOf bill = desk.numberOf bill) (l : VendorInvoiceLine) :
    desk'.markerOf l = desk.markerOf l := by
  unfold BillDesk.markerOf
  rw [h]

/-- The confirmed lines linked to the part. -/
def BillDesk.linkedTo (desk : BillDesk) (part : ℕ) : List VendorInvoiceLine :=
  desk.lines.filter fun l => l.confirmed && l.jobPartNeededId == some part

/-- The notes of the part are those it started with, and a marker for each confirmed line linked to it. -/
def NotesFollow (start desk : BillDesk) : Prop :=
  ∀ p ∈ start.parts, ∀ p' ∈ desk.parts, p'.id = p.id → ∃ order : List VendorInvoiceLine,
    order.Perm (desk.linkedTo p.id) ∧ p'.notes.getD [] = marked (p.notes.getD []) (order.map desk.markerOf)

theorem linkedTo_mem (h : PartsOk start desk) {l : VendorInvoiceLine} (hl : l ∈ desk.lines) {part : ℕ}
    (hpart : l.jobPartNeededId = some part) : (l.confirmed && l.jobPartNeededId == some part) = true := by
  have hitemed := (h.linked l hl part hpart).1
  unfold VendorInvoiceLine.itemed at hitemed
  simp only [Bool.and_eq_true] at hitemed
  rw [hitemed.1.1, hpart]
  simp

/-- A line that is not linked to a part of the start, before and after. -/
theorem NotesFollow.other (h : NotesFollow start desk) (hchanged : Changed line g desk desk')
    (hbefore : ∀ p ∈ start.parts, line.jobPartNeededId ≠ some p.id)
    (hafter : ∀ p ∈ start.parts, (g line).jobPartNeededId ≠ some p.id)
    (hparts : ∀ p ∈ start.parts, ∀ p' ∈ desk'.parts, p'.id = p.id → p' ∈ desk.parts)
    (hnumbers : ∀ bill, desk'.numberOf bill = desk.numberOf bill) : NotesFollow start desk' := by
  intro p hp p' hp' hid
  obtain ⟨order, hperm, hnotes⟩ := h p hp p' (hparts p hp p' hp' hid) hid
  refine ⟨order, ?_, ?_⟩
  · obtain ⟨rest, hold, hnew⟩ := hchanged.filter fun l => l.confirmed && l.jobPartNeededId == some p.id
    have hout : ∀ l : VendorInvoiceLine, l.jobPartNeededId ≠ some p.id →
        (l.confirmed && l.jobPartNeededId == some p.id) = false := by
      intro l hne
      simp [hne]
    rw [hout line (hbefore p hp)] at hold
    rw [hout (g line) (hafter p hp)] at hnew
    exact hperm.trans (hold.trans hnew.symm)
  · rw [hnotes]
    congr 1
    exact List.map_congr_left fun l _ => (markerOf_congr hnumbers l).symm

/-- The notes of one part changed. -/
theorem mem_setPart {id : ℕ} {f : JobPartNeeded → JobPartNeeded} {p' : JobPartNeeded}
    (h : p' ∈ (desk.setPart id f).parts) : ∃ p ∈ desk.parts, p' = if p.id = id then f p else p := by
  obtain ⟨p, hp, heq⟩ := List.mem_map.mp h
  exact ⟨p, hp, heq.symm⟩

/-- A line is linked to a part: its marker goes behind the notes. -/
theorem NotesFollow.linked {part : JobPartNeeded} (h : NotesFollow start desk)
    (hchanged : Changed line g desk desk') (hopen : line.confirmed = false)
    (hconfirmed : (g line).confirmed = true) (hlink : (g line).jobPartNeededId = some part.id)
    (hparts : desk'.parts = (desk.setPart part.id fun p =>
      { p with notes := some (withMarker p.notes (desk.markerOf line)) }).parts)
    (hnumbers : ∀ bill, desk'.numberOf bill = desk.numberOf bill) : NotesFollow start desk' := by
  intro p hp p' hp' hid
  rw [hparts] at hp'
  obtain ⟨q, hq, rfl⟩ := mem_setPart hp'
  have hqid : q.id = p.id := by
    rw [← hid]
    split <;> rfl
  obtain ⟨order, hperm, hnotes⟩ := h p hp q hq hqid
  obtain ⟨rest, hold, hnew⟩ := hchanged.filter fun l => l.confirmed && l.jobPartNeededId == some p.id
  have hclosed : (line.confirmed && line.jobPartNeededId == some p.id) = false := by
    rw [hopen]
    rfl
  rw [hclosed] at hold
  have hmarkers : order.map desk'.markerOf = order.map desk.markerOf :=
    List.map_congr_left fun l _ => markerOf_congr hnumbers l
  by_cases hone : q.id = part.id
  · have hnow : ((g line).confirmed && (g line).jobPartNeededId == some p.id) = true := by
      rw [hconfirmed, hlink, ← hone, hqid]
      simp
    rw [hnow] at hnew
    refine ⟨order ++ [g line], ?_, ?_⟩
    · refine List.perm_append_comm.trans ?_
      exact ((hperm.trans hold).append_left [g line]).trans hnew.symm
    · have hmarker : desk'.markerOf (g line) = desk.markerOf line := by
        rw [markerOf_congr hnumbers]
        unfold BillDesk.markerOf
        rw [hchanged.keeps.bill]
      rw [if_pos hone, List.map_append, hmarkers, List.map_singleton, hmarker]
      unfold marked
      rw [List.foldl_append]
      show withMarker q.notes _ = withMarker (some (marked _ _)) _
      rw [← hnotes]
      cases q.notes with
      | none => rfl
      | some text => rfl
  · have hnow : ((g line).confirmed && (g line).jobPartNeededId == some p.id) = false := by
      rw [hlink]
      have : part.id ≠ p.id := fun heq => hone (hqid.trans heq.symm)
      simp [this]
    rw [hnow] at hnew
    refine ⟨order, hperm.trans (hold.trans hnew.symm), ?_⟩
    rw [if_neg hone, hmarkers]
    exact hnotes

/-- A line linked to a part is taken back: its marker goes, where the notes hold it once. -/
theorem NotesFollow.unlinked {part : JobPartNeeded} (h : NotesFollow start desk) (hok : PartsOk start desk)
    (hchanged : Changed line VendorInvoiceLine.reset desk desk') (hpart : part ∈ desk.parts)
    (hlink : line.jobPartNeededId = some part.id)
    (honce : MarkedOnce (part.notes.getD []) (desk.markerOf line))
    (hparts : desk'.parts = (desk.setPart part.id fun p =>
      { p with notes := withoutMarker p.notes (desk.markerOf line) }).parts)
    (hnumbers : ∀ bill, desk'.numberOf bill = desk.numberOf bill) : NotesFollow start desk' := by
  intro p hp p' hp' hid
  rw [hparts] at hp'
  obtain ⟨q, hq, rfl⟩ := mem_setPart hp'
  have hqid : q.id = p.id := by
    rw [← hid]
    split <;> rfl
  obtain ⟨order, hperm, hnotes⟩ := h p hp q hq hqid
  obtain ⟨rest, hold, hnew⟩ := hchanged.filter fun l => l.confirmed && l.jobPartNeededId == some p.id
  have hreset : (line.reset.confirmed && line.reset.jobPartNeededId == some p.id) = false := rfl
  rw [hreset] at hnew
  by_cases hone : q.id = part.id
  · obtain rfl := hok.eq_of_id hq hpart hone
    have hin := linkedTo_mem hok hchanged.mem (hqid ▸ hlink)
    rw [hin] at hold
    have hmem : line ∈ order := by
      rw [(hperm.trans hold).mem_iff]
      exact List.mem_cons_self
    obtain ⟨before, behind, rfl⟩ := List.append_of_mem hmem
    refine ⟨before ++ behind, ?_, ?_⟩
    · have hcons : (line :: (before ++ behind)).Perm (line :: rest) := List.perm_middle.symm.trans (hperm.trans hold)
      exact (List.Perm.cons_inv hcons).trans hnew.symm
    · rw [if_pos rfl, List.map_append]
      rw [List.map_append, List.map_cons] at hnotes
      have hfull : q.notes = some (q.notes.getD []) := by
        cases hq : q.notes with
        | none =>
          rw [hq] at honce
          exact absurd honce.1.filled (by decide)
        | some text => rfl
      have hmarkers : ∀ ls : List VendorInvoiceLine, ls.map desk'.markerOf = ls.map desk.markerOf :=
        fun ls => List.map_congr_left fun l _ => markerOf_congr hnumbers l
      have hne : ∀ k ∈ before.map desk.markerOf ++ desk.markerOf line :: behind.map desk.markerOf, k ≠ [] := by
        rw [← List.map_cons, ← List.map_append]
        intro k hk
        obtain ⟨l, -, rfl⟩ := List.mem_map.mp hk
        exact markerOf_ne_nil desk l
      rw [hmarkers, hmarkers]
      show (withoutMarker q.notes _).getD [] = _
      rw [hfull, hnotes]
      rw [hnotes] at honce
      exact withoutMarker_marked hne honce
  · have hout : (line.confirmed && line.jobPartNeededId == some p.id) = false := by
      rw [hlink]
      have : part.id ≠ p.id := fun heq => hone (hqid.trans heq.symm)
      simp [this]
    rw [hout] at hold
    refine ⟨order, hperm.trans (hold.trans hnew.symm), ?_⟩
    rw [if_neg hone, hnotes]
    congr 1
    exact List.map_congr_left fun l _ => (markerOf_congr hnumbers l).symm

/-! ### Calls that leave lines, stock and checklist -/

/-- The two desks agree on lines, stock and checklist, and on what names bills and expenses. -/
structure SameShelf (desk desk' : BillDesk) : Prop where
  lines : desk'.lines = desk.lines
  items : desk'.items = desk.items
  adjustments : desk'.adjustments = desk.adjustments
  parts : desk'.parts = desk.parts
  labels : desk'.expenses.map (·.label) = desk.expenses.map (·.label)
  numbers : ∀ bill, desk'.numberOf bill = desk.numberOf bill
  nextId : desk.nextId ≤ desk'.nextId

theorem SameShelf.stock (h : SameShelf desk desk') (hok : StockOk start desk) : StockOk start desk' := by
  have hunits : ∀ item, desk'.stockOf item = desk.stockOf item := by
    intro item
    unfold BillDesk.stockOf
    rw [h.lines]
  constructor
  · rw [h.lines]
    intro l hl a ha
    obtain ⟨hconfirmed, hstock, hfiled⟩ := hok.held l hl a ha
    refine ⟨hconfirmed, hstock, ?_⟩
    rw [h.items, h.adjustments]
    exact hfiled
  · rw [h.lines]
    exact hok.counted
  · rw [h.adjustments]
    exact fun a ha => Nat.lt_of_lt_of_le (hok.ids a ha) h.nextId
  · rw [h.items, hok.sum]
    exact List.map_congr_left fun i _ => by rw [hunits]

theorem SameShelf.partsOk (h : SameShelf desk desk') (hok : PartsOk start desk) : PartsOk start desk' := by
  refine hok.renoted h.lines h.nextId ?_ ?_ ?_
  · rw [h.parts]
  · unfold BillDesk.minted
    rw [h.parts]
  · unfold BillDesk.recorded
    rw [h.parts]

theorem SameShelf.notes (h : SameShelf desk desk') (hok : NotesFollow start desk) : NotesFollow start desk' := by
  intro p hp p' hp' hid
  rw [h.parts] at hp'
  obtain ⟨order, hperm, hnotes⟩ := hok p hp p' hp' hid
  refine ⟨order, ?_, ?_⟩
  · unfold BillDesk.linkedTo
    rw [h.lines]
    exact hperm
  · rw [hnotes]
    congr 1
    exact List.map_congr_left fun l _ => (markerOf_congr h.numbers l).symm

/-- A confirmed line that made an expense. -/
def VendorInvoiceLine.costed (l : VendorInvoiceLine) : Bool :=
  l.confirmed && (l.disposition == .job || l.disposition == .overhead)

/-- What every call keeps, beside the books. -/
structure EffectsOk (base : ℕ) (start desk : BillDesk) : Prop where
  stock : StockOk start desk
  parts : PartsOk start desk
  costed : ∀ l ∈ desk.lines, l.expenseId ≠ none ↔ l.costed = true
  sources : ∀ x ∈ desk.expenses, x.source = EXPENSE_SOURCE → base ≤ x.id

theorem sources_of_labels (h : desk'.expenses.map (·.label) = desk.expenses.map (·.label))
    (hsources : ∀ x ∈ desk.expenses, x.source = EXPENSE_SOURCE → base ≤ x.id) :
    ∀ x ∈ desk'.expenses, x.source = EXPENSE_SOURCE → base ≤ x.id := by
  intro x hx hsource
  have hmem : x.label ∈ desk.expenses.map (·.label) := by
    rw [← h]
    exact List.mem_map_of_mem hx
  obtain ⟨y, hy, hlabel⟩ := List.mem_map.mp hmem
  have hid : y.id = x.id := congrArg Prod.fst hlabel
  have hsame : y.source = x.source := congrArg Prod.snd hlabel
  rw [← hid]
  exact hsources y hy (hsame.trans hsource)

theorem SameShelf.effects (h : SameShelf desk desk') (hok : EffectsOk base start desk) : EffectsOk base start desk' := by
  refine ⟨h.stock hok.stock, h.partsOk hok.parts, ?_, sources_of_labels h.labels hok.sources⟩
  rw [h.lines]
  exact hok.costed

theorem numberOf_recompute (desk : BillDesk) (id bill : ℕ) : (desk.recomputeStatus id).numberOf bill = desk.numberOf bill := by
  unfold BillDesk.numberOf BillDesk.bill BillDesk.recomputeStatus
  rw [find?_map_id (fun b => by split <;> rfl), Option.map_map]
  congr 1
  funext b
  show VendorInvoice.invoiceNumber (if b.id = id then _ else b) = b.invoiceNumber
  split <;> rfl

theorem record_shelf {today : ℤ} {req : PaymentRequest} (h : recordBillPayment H today req desk = .ok desk') :
    SameShelf desk desk' := by
  obtain ⟨bill, L, xs, -, -, -, -, hlabels, rfl⟩ := recordBillPayment_frame h
  exact ⟨rfl, rfl, rfl, rfl, hlabels, numberOf_recompute _ _, Nat.le_succ _⟩

theorem void_shelf {today : ℤ} {matchConfirmed : ℕ → Bool} {viaUnconfirm : Bool} {id : ℕ}
    (h : voidBillPayment H today matchConfirmed viaUnconfirm id desk = .ok desk') : SameShelf desk desk' := by
  obtain ⟨payment, -, -, ⟨-, rfl⟩ | ⟨-, -, ⟨-, rfl⟩ | ⟨bill, L, xs, -, hlabels, rfl⟩⟩⟩ := voidBillPayment_frame h
  · exact ⟨rfl, rfl, rfl, rfl, rfl, fun _ => rfl, le_rfl⟩
  · exact ⟨rfl, rfl, rfl, rfl, rfl, fun _ => rfl, le_rfl⟩
  · exact ⟨rfl, rfl, rfl, rfl, hlabels, numberOf_recompute _ _, le_rfl⟩

/-! ### Confirming -/

/-- A new expense leaves the shelf and joins the expenses. -/
theorem recordExpense_frame {today : ℤ} {bill : VendorInvoice} {category : Text} {job : Option ℕ} {mid : BillDesk}
    (h : desk.recordExpense H today bill line category job = .ok mid) :
    ∃ x L, x.id = desk.nextId ∧ mid = { desk with
      expenses := desk.expenses ++ [x], ledger := L, nextId := desk.nextId + 1 } := by
  unfold BillDesk.recordExpense at h
  obtain ⟨⟨u, L⟩, -, h⟩ := except_bind_ok.mp h
  cases h
  exact ⟨_, L, rfl, rfl⟩

theorem sources_append {x : BillExpense} (hsources : ∀ y ∈ desk.expenses, y.source = EXPENSE_SOURCE → base ≤ y.id)
    (hbase : base ≤ x.id) : ∀ y ∈ desk.expenses ++ [x], y.source = EXPENSE_SOURCE → base ≤ y.id := by
  intro y hy hsource
  rcases List.mem_append.mp hy with hy | hy
  · exact hsources y hy hsource
  · rw [List.mem_singleton.mp hy]
    exact hbase

/-- The line that changed keeps its expense and its disposition in step. -/
theorem costed_changed (hok : EffectsOk base start desk) (hchanged : Changed line g desk desk')
    (hline : (g line).expenseId ≠ none ↔ (g line).costed = true) :
    ∀ l ∈ desk'.lines, l.expenseId ≠ none ↔ l.costed = true :=
  hchanged.all hok.costed (fun _ _ _ hl => hl) hline

theorem itemed_of_kind {l : VendorInvoiceLine} (h : l.kind ≠ .item) : l.itemed = false := by
  unfold VendorInvoiceLine.itemed
  simp [h]

theorem itemed_of_disposition {l : VendorInvoiceLine} (h : l.disposition ≠ .job) : l.itemed = false := by
  unfold VendorInvoiceLine.itemed
  simp [h]

/-- The line is confirmed to a job: what it costs and makes, before the line itself changes. -/
theorem onJob_itemed {expense job : ℕ} {part : Option ℕ} (h : line.kind = .item) :
    (line.onJob expense job part).itemed = true := by
  unfold VendorInvoiceLine.itemed VendorInvoiceLine.onJob
  simp [h]

/-- What a confirm keeps, and that it marks the notes of the part it links. -/
theorem Confirmed.effects {today : ℤ} {bill : VendorInvoice} (hok : EffectsOk base start desk)
    (hnodup : (desk.lines.map (·.id)).Nodup) (hbase : base ≤ desk.nextId) (hline : line ∈ desk.lines)
    (hopen : line.confirmed = false) (hcost : line.expenseId = none)
    (hbill : desk.bill line.vendorInvoiceId = some bill) (h : Confirmed H today desk bill line desk') :
    EffectsOk base start desk' ∧ (NotesFollow start desk → NotesFollow start desk') := by
  have hnopart := hok.parts.open_none hline hopen
  have hnostock := hok.stock.open_none hline hopen
  have hnone : ∀ p ∈ start.parts, line.jobPartNeededId ≠ some p.id := by
    intro p _ heq
    rw [hnopart] at heq
    cases heq
  cases h with
  | @linked mid job part recorded item mem own =>
    obtain ⟨x, L, hx, rfl⟩ := recordExpense_frame recorded
    rw [← markerOf_bill hbill]
    set g := VendorInvoiceLine.onJob desk.nextId job (some part.id) with hg
    set mid := { desk with expenses := desk.expenses ++ [x], ledger := L, nextId := desk.nextId + 1 } with hmid
    set shelf := mid.setPart part.id fun p => { p with notes := some (withMarker p.notes (desk.markerOf line)) } with hshelf
    have hpartsShelf : PartsOk start shelf := by
      obtain ⟨hparts, hminted, hrecorded⟩ := setPart_notes mid part.id
        (f := fun p => { p with notes := some (withMarker p.notes (desk.markerOf line)) }) fun _ => rfl
      exact hok.parts.renoted rfl (Nat.le_succ _) hparts hminted hrecorded
    have hchanged : Changed line g shelf (shelf.setLine line.id g) :=
      ⟨hnodup, hline, ⟨fun _ => rfl, fun _ => rfl⟩, rfl⟩
    have hchanged' : Changed line g desk (shelf.setLine line.id g) :=
      ⟨hnodup, hline, ⟨fun _ => rfl, fun _ => rfl⟩, rfl⟩
    have hmem : part ∈ desk.parts := mem
    have hhas : start.hasPart (some part.id) = true := (hok.parts.hasPart_iff hmem).mpr own
    have hitemed : (g line).itemed = true := onJob_itemed item
    refine ⟨⟨?_, ?_, ?_, ?_⟩, ?_⟩
    · exact hok.stock.idle hchanged' hnostock hnostock (fun _ => by simp [hg, VendorInvoiceLine.onJob]) rfl rfl
        (Nat.le_succ _)
    · refine hpartsShelf.uncounted hchanged ?_ ?_ ?_ ?_ rfl le_rfl
      · unfold VendorInvoiceLine.mints VendorInvoiceLine.itemed
        rw [hopen]
        rfl
      · unfold VendorInvoiceLine.mints
        rw [show (g line).jobPartNeededId = some part.id from rfl, hhas, Bool.not_true, Bool.and_false]
      · intro id hid
        refine ⟨hitemed, ?_⟩
        obtain rfl : part.id = id := Option.some.inj hid
        obtain ⟨hparts, -, -⟩ := setPart_notes mid part.id
          (f := fun p => { p with notes := some (withMarker p.notes (desk.markerOf line)) }) fun _ => rfl
        have hin : part.unnoted ∈ shelf.parts.map (·.unnoted) := by
          rw [hparts]
          exact List.mem_map_of_mem hmem
        obtain ⟨q, hq, hsame⟩ := List.mem_map.mp hin
        exact ⟨q, hq, JobPartNeeded.id_of_unnoted hsame⟩
      · intro _
        exact Option.some_ne_none _
    · refine costed_changed hok hchanged' ?_
      simp [hg, VendorInvoiceLine.onJob, VendorInvoiceLine.costed]
    · exact sources_append hok.sources (hx ▸ hbase)
    · intro hnotes
      exact hnotes.linked hchanged' hopen rfl rfl rfl fun _ => rfl
  | @minted mid job part recorded item id source unbilled =>
    obtain ⟨x, L, hx, rfl⟩ := recordExpense_frame recorded
    set g := VendorInvoiceLine.onJob desk.nextId job (some part.id) with hg
    set mid := { desk with expenses := desk.expenses ++ [x], ledger := L, nextId := desk.nextId + 1 } with hmid
    set after := { mid with parts := mid.parts ++ [part], nextId := mid.nextId + 1 } with hafter
    have hpartsMid : PartsOk start mid := hok.parts.renoted rfl (Nat.le_succ _) rfl rfl rfl
    have hchanged : Changed line g mid (after.setLine line.id g) :=
      ⟨hnodup, hline, ⟨fun _ => rfl, fun _ => rfl⟩, rfl⟩
    have hchanged' : Changed line g desk (after.setLine line.id g) :=
      ⟨hnodup, hline, ⟨fun _ => rfl, fun _ => rfl⟩, rfl⟩
    have hnew : ∀ p ∈ start.parts, p.id ≠ part.id := by
      intro p hp heq
      have := hpartsMid.start_lt p hp
      omega
    refine ⟨⟨?_, ?_, ?_, ?_⟩, ?_⟩
    · exact hok.stock.idle hchanged' hnostock hnostock (fun _ => by simp [hg, VendorInvoiceLine.onJob]) rfl rfl
        (Nat.le_succ_of_le (Nat.le_succ _))
    · exact hpartsMid.mint hchanged hopen id source (onJob_itemed item) rfl rfl rfl
    · refine costed_changed hok hchanged' ?_
      simp [hg, VendorInvoiceLine.onJob, VendorInvoiceLine.costed]
    · exact sources_append hok.sources (hx ▸ hbase)
    · intro hnotes
      refine hnotes.other hchanged' hnone ?_ ?_ fun _ => rfl
      · intro p hp heq
        exact hnew p hp (Option.some.inj heq).symm
      · intro p hp p' hp' hid
        rcases List.mem_append.mp (show p' ∈ desk.parts ++ [part] from hp') with hp' | hp'
        · exact hp'
        · rw [List.mem_singleton.mp hp'] at hid
          exact absurd hid.symm (hnew p hp)
  | @costOnly mid job recorded kind =>
    obtain ⟨x, L, hx, rfl⟩ := recordExpense_frame recorded
    set g := VendorInvoiceLine.onJob desk.nextId job none with hg
    set mid := { desk with expenses := desk.expenses ++ [x], ledger := L, nextId := desk.nextId + 1 } with hmid
    have hchanged : Changed line g desk (mid.setLine line.id g) :=
      ⟨hnodup, hline, ⟨fun _ => rfl, fun _ => rfl⟩, rfl⟩
    refine ⟨⟨?_, ?_, ?_, ?_⟩, ?_⟩
    · exact hok.stock.idle hchanged hnostock hnostock (fun _ => by simp [hg, VendorInvoiceLine.onJob]) rfl rfl
        (Nat.le_succ _)
    · exact hok.parts.idle hchanged hnopart hnopart (itemed_of_kind kind) rfl (Nat.le_succ _)
    · refine costed_changed hok hchanged ?_
      simp [hg, VendorInvoiceLine.onJob, VendorInvoiceLine.costed]
    · exact sources_append hok.sources (hx ▸ hbase)
    · intro hnotes
      exact hnotes.other hchanged hnone hnone (fun _ _ _ hp' _ => hp') fun _ => rfl
  | @stocked item items units kind known whole counts =>
    have hunits : line.quantity / 100 = units := by
      unfold stockUnits at whole
      split at whole
      · cases whole
      · exact Except.ok.inj whole
    set g : VendorInvoiceLine → VendorInvoiceLine := fun l => { l with
      inventoryItemId := some item, stockAdjustmentId := some desk.nextId, disposition := .stock, confirmed := true } with hg
    set after := { desk.applyStockDelta item units with items := items } with hafter
    have hchanged : Changed line g desk (after.setLine line.id g) :=
      ⟨hnodup, hline, ⟨fun _ => rfl, fun _ => rfl⟩, rfl⟩
    refine ⟨⟨?_, ?_, ?_, hok.sources⟩, ?_⟩
    · exact hok.stock.stocked hchanged hopen known hunits rfl rfl rfl rfl rfl counts rfl rfl
    · exact hok.parts.idle hchanged hnopart hnopart (itemed_of_disposition (by simp [hg])) rfl (Nat.le_succ _)
    · refine costed_changed hok hchanged ?_
      simp [hg, VendorInvoiceLine.costed, hcost]
    · intro hnotes
      exact hnotes.other hchanged hnone hnone (fun _ _ _ hp' _ => hp') fun _ => rfl
  | @overhead mid recorded =>
    obtain ⟨x, L, hx, rfl⟩ := recordExpense_frame recorded
    set g : VendorInvoiceLine → VendorInvoiceLine := fun l => { l with
      expenseId := some desk.nextId, disposition := .overhead, confirmed := true } with hg
    set mid := { desk with expenses := desk.expenses ++ [x], ledger := L, nextId := desk.nextId + 1 } with hmid
    have hchanged : Changed line g desk (mid.setLine line.id g) :=
      ⟨hnodup, hline, ⟨fun _ => rfl, fun _ => rfl⟩, rfl⟩
    refine ⟨⟨?_, ?_, ?_, ?_⟩, ?_⟩
    · exact hok.stock.idle hchanged hnostock hnostock (fun _ => by simp [hg]) rfl rfl (Nat.le_succ _)
    · exact hok.parts.idle hchanged hnopart hnopart (itemed_of_disposition (by simp [hg])) rfl (Nat.le_succ _)
    · refine costed_changed hok hchanged ?_
      simp [hg, VendorInvoiceLine.costed]
    · exact sources_append hok.sources (hx ▸ hbase)
    · intro hnotes
      exact hnotes.other hchanged hnone hnone (fun _ _ _ hp' _ => hp') fun _ => rfl
  | @skipped reason =>
    set g : VendorInvoiceLine → VendorInvoiceLine := fun l => { l with
      skipReason := some reason, disposition := .skip, confirmed := true } with hg
    have hchanged : Changed line g desk (desk.setLine line.id g) :=
      ⟨hnodup, hline, ⟨fun _ => rfl, fun _ => rfl⟩, rfl⟩
    refine ⟨⟨?_, ?_, ?_, hok.sources⟩, ?_⟩
    · exact hok.stock.idle hchanged hnostock hnostock (fun _ => by simp [hg]) rfl rfl le_rfl
    · exact hok.parts.idle hchanged hnopart hnopart (itemed_of_disposition (by simp [hg])) rfl le_rfl
    · refine costed_changed hok hchanged ?_
      simp [hg, VendorInvoiceLine.costed, hcost]
    · intro hnotes
      exact hnotes.other hchanged hnone hnone (fun _ _ _ hp' _ => hp') fun _ => rfl

/-! ### Reversing -/

/-- What a reversal does to the checklist. -/
theorem dropPart_cases {bill : VendorInvoice} (hok : PartsOk start desk) (hline : line ∈ desk.lines)
    (h : desk.dropPart bill line = .ok desk') :
    (line.jobPartNeededId = none ∧ desk' = desk) ∨ ∃ part ∈ desk.parts, line.jobPartNeededId = some part.id ∧
      ((part.source = EXPENSE_SOURCE ∧ desk' = { desk with parts := desk.parts.filter (·.id != part.id) }) ∨
        (part.source ≠ EXPENSE_SOURCE ∧ desk' = desk.setPart part.id fun p =>
          { p with notes := withoutMarker p.notes (billedMarker bill) })) := by
  unfold BillDesk.dropPart at h
  split at h
  · rename_i hnone
    cases h
    refine .inl ⟨?_, rfl⟩
    cases hid : line.jobPartNeededId with
    | none => rfl
    | some id =>
      obtain ⟨-, p, hp, rfl⟩ := hok.linked line hline id hid
      rw [hid, Option.bind_some, hok.find hp] at hnone
      cases hnone
  · rename_i part hfound
    obtain ⟨id, hid, hfind⟩ := Option.bind_eq_some_iff.mp hfound
    have hpid : part.id = id := by simpa using List.find?_some hfind
    refine .inr ⟨part, List.mem_of_find?_eq_some hfind, hpid ▸ hid, ?_⟩
    split_ifs at h with hbilled hsource
    · cases h
      exact .inl ⟨hsource, rfl⟩
    · cases h
      exact .inr ⟨hsource, rfl⟩

/-- The call finds the marker of its bill once in the notes of the part its line is linked to, and the notes are tidy. -/
def BillDesk.FindsMarker (desk : BillDesk) : BillEvent → Prop
  | .reverse _ _ billId lineId => ∀ bill, desk.bill billId = some bill → ∀ l ∈ desk.lines, l.vendorInvoiceId = billId →
      l.id = lineId → ∀ part ∈ desk.parts, l.jobPartNeededId = some part.id → part.source ≠ EXPENSE_SOURCE →
      MarkedOnce (part.notes.getD []) (billedMarker bill)
  | _ => True

theorem reverse_effects {today : ℤ} {actor : Option Text} {billId lineId : ℕ} (hbooks : BillsOk H base desk)
    (hok : EffectsOk base start desk) (h : reverseConfirmedLine today actor billId lineId desk = .ok desk') :
    EffectsOk base start desk' ∧
      (desk.FindsMarker (.reverse today actor billId lineId) → NotesFollow start desk → NotesFollow start desk') := by
  obtain ⟨bill, line, mid, mid', hbill, hline, hown, hid, hmid, hmid', rfl⟩ := reverseConfirmedLine_cases h
  have hbase : ∀ id, line.expenseId = some id → base ≤ id := fun id hid => (hbooks.lines.expense line hline id hid).1
  obtain ⟨-, L, rfl⟩ := dropExpense_ok hbooks.expenses hbase hmid
  set mid := { desk with ledger := L, expenses := desk.expenses.map (dropExpenseIf line.expenseId) } with hdef
  have hlabels : mid.expenses.map (·.label) = desk.expenses.map (·.label) := by
    show (desk.expenses.map _).map _ = _
    rw [List.map_map]
    refine List.map_congr_left fun x _ => ?_
    show (dropExpenseIf line.expenseId x).label = x.label
    unfold dropExpenseIf
    split <;> rfl
  have hshelf : SameShelf desk mid := ⟨rfl, rfl, rfl, rfl, hlabels, fun _ => rfl, le_rfl⟩
  have hokmid := hshelf.effects hok
  obtain ⟨hstock, hstocklines⟩ := dropStock_same line mid
  have hstockparts : (mid.dropStock line).parts = mid.parts := by
    unfold BillDesk.dropStock
    split
    · split <;> rfl
    · rfl
  have hpartsmid : PartsOk start (mid.dropStock line) := by
    refine hokmid.parts.renoted hstocklines hstock.nextId ?_ ?_ ?_
    · rw [hstockparts]
    · unfold BillDesk.minted
      rw [hstockparts]
    · unfold BillDesk.recorded
      rw [hstockparts]
  have hlinemid : line ∈ (mid.dropStock line).lines := by
    rw [hstocklines]
    exact hline
  obtain ⟨hpart, hpartlines⟩ := dropPart_same hmid'
  have hnumbers : ∀ b, (mid'.setLine line.id VendorInvoiceLine.reset).numberOf b = desk.numberOf b := by
    intro b
    have hbills : mid'.bills = desk.bills := hpart.bills.trans hstock.bills
    show (mid'.bills.find? _).map _ = (desk.bills.find? _).map _
    rw [hbills]
  have hlines : mid'.lines = desk.lines := hpartlines.trans hstocklines
  have hchanged : ∀ d : BillDesk, d.lines = desk.lines →
      Changed line VendorInvoiceLine.reset d (mid'.setLine line.id VendorInvoiceLine.reset) := by
    intro d hd
    refine ⟨hd ▸ hbooks.lines.nodup, hd ▸ hline, ⟨fun _ => rfl, fun _ => rfl⟩, ?_⟩
    show mid'.lines.map _ = _
    rw [hlines, hd]
  -- The checklist's store and the stock's are not touched by each other's part of the call.
  have hitems : mid'.items = (mid.dropStock line).items ∧ mid'.adjustments = (mid.dropStock line).adjustments ∧
      mid'.nextId = (mid.dropStock line).nextId := by
    rcases dropPart_cases hpartsmid hlinemid hmid' with ⟨-, rfl⟩ | ⟨part, -, -, ⟨-, rfl⟩ | ⟨-, rfl⟩⟩ <;>
      exact ⟨rfl, rfl, rfl⟩
  have hstockok : StockOk start (mid'.setLine line.id VendorInvoiceLine.reset) :=
    hokmid.stock.reversed (hchanged mid rfl) hitems.1 hitems.2.1 hitems.2.2
  have hcosted := costed_changed (g := VendorInvoiceLine.reset) hok (hchanged desk rfl)
    (by simp [VendorInvoiceLine.reset, VendorInvoiceLine.costed])
  have hsources : ∀ x ∈ (mid'.setLine line.id VendorInvoiceLine.reset).expenses, x.source = EXPENSE_SOURCE → base ≤ x.id := by
    refine sources_of_labels ?_ hok.sources
    show mid'.expenses.map _ = _
    rw [hpart.expenses, hstock.expenses]
    exact hlabels
  have hchangedstock := hchanged (mid.dropStock line) hstocklines
  rcases dropPart_cases hpartsmid hlinemid hmid' with ⟨hnone, rfl⟩ | ⟨part, hpartmem, hlink, ⟨hsource, rfl⟩ | ⟨hsource, rfl⟩⟩
  · refine ⟨⟨hstockok, ?_, hcosted, hsources⟩, ?_⟩
    · exact hpartsmid.idle hchangedstock hnone rfl rfl rfl le_rfl
    · intro _ hnotes
      refine hnotes.other (hchanged desk rfl) ?_ ?_ ?_ hnumbers
      · intro p _ heq
        rw [hnone] at heq
        cases heq
      · intro p _ heq
        cases heq
      · intro p _ p' hp' _
        rw [show p' ∈ desk.parts ↔ p' ∈ (mid.dropStock line).parts by rw [hstockparts]]
        exact hp'
  · refine ⟨⟨hstockok, ?_, hcosted, hsources⟩, ?_⟩
    · exact hpartsmid.unmint hchangedstock hpartmem hsource hlink rfl le_rfl
    · intro _ hnotes
      refine hnotes.other (hchanged desk rfl) ?_ ?_ ?_ hnumbers
      · intro p hp heq
        rw [hlink, Option.some.injEq] at heq
        exact (hpartsmid.hasPart_iff hpartmem).mp (hasPart_eq_true.mpr ⟨p, hp, heq.symm⟩) hsource
      · intro p _ heq
        cases heq
      · intro p _ p' hp' _
        rw [show p' ∈ desk.parts ↔ p' ∈ (mid.dropStock line).parts by rw [hstockparts]]
        exact List.mem_of_mem_filter hp'
  · have hpartmem' : part ∈ desk.parts := by
      rw [hstockparts] at hpartmem
      exact hpartmem
    have hmarker : desk.markerOf line = billedMarker bill := markerOf_bill (hown ▸ hbill)
    refine ⟨⟨hstockok, ?_, hcosted, hsources⟩, ?_⟩
    · obtain ⟨hparts, hminted, hrecorded⟩ := setPart_notes (mid.dropStock line) part.id
        (f := fun p => { p with notes := withoutMarker p.notes (billedMarker bill) }) fun _ => rfl
      have hrenoted : PartsOk start ((mid.dropStock line).setPart part.id fun p =>
          { p with notes := withoutMarker p.notes (billedMarker bill) }) :=
        hpartsmid.renoted rfl le_rfl hparts hminted hrecorded
      refine hrenoted.uncounted (hchanged _ hstocklines) ?_ rfl ?_ ?_ rfl le_rfl
      · unfold VendorInvoiceLine.mints
        rw [hlink, (hpartsmid.hasPart_iff hpartmem).mpr hsource, Bool.not_true, Bool.and_false]
      · intro id hreset
        cases hreset
      · intro hreset
        cases hreset
    · intro hfinds hnotes
      have honce := hfinds bill hbill line hline hown hid part hpartmem' hlink hsource
      rw [← hmarker] at honce
      refine hnotes.unlinked hok.parts (hchanged desk rfl) hpartmem' hlink honce ?_ hnumbers
      rw [hmarker]
      show (mid.dropStock line).parts.map _ = desk.parts.map _
      rw [hstockparts]

/-! ### Runs -/

/-- The condition holds at each call of a run, in the state before it. -/
def BillDesk.Along (H : ContentHash) (C : BillDesk → BillEvent → Prop) : BillDesk → List BillEvent → Prop
  | _, [] => True
  | desk, e :: events => C desk e ∧ BillDesk.Along H C (desk.step H e) events

theorem step_effects (hbooks : BillsOk H base desk) (hok : EffectsOk base start desk)
    (e : BillEvent) :
    EffectsOk base start (desk.step H e) ∧
      (desk.FindsMarker e → NotesFollow start desk → NotesFollow start (desk.step H e)) := by
  unfold BillDesk.step
  split
  · rename_i desk' hcall
    cases e with
    | confirm today req =>
      rcases confirmLine_cases hcall with rfl | ⟨bill, line, hbill, hline, hown, hopen, hconfirmed⟩
      · exact ⟨hok, fun _ hnotes => hnotes⟩
      · have hcost := hbooks.lines.unconfirmed line hline hopen
        obtain ⟨hok', hnotes⟩ := hconfirmed.effects hok hbooks.lines.nodup hbooks.expenses.base_le hline hopen hcost
          (hown ▸ hbill)
        exact ⟨hok', fun _ => hnotes⟩
    | reverse today actor billId lineId => exact reverse_effects hbooks hok hcall
    | record today req =>
      have hshelf := record_shelf hcall
      exact ⟨hshelf.effects hok, fun _ => hshelf.notes⟩
    | void today matchConfirmed viaUnconfirm id =>
      have hshelf := void_shelf hcall
      exact ⟨hshelf.effects hok, fun _ => hshelf.notes⟩
    | lock date =>
      cases hcall
      have hshelf : SameShelf desk { desk with
          ledger := { desk.ledger with locks := desk.ledger.locks ++ [⟨date, desk.company⟩] } } :=
        ⟨rfl, rfl, rfl, rfl, rfl, fun _ => rfl, le_rfl⟩
      exact ⟨hshelf.effects hok, fun _ => hshelf.notes⟩
  · exact ⟨hok, fun _ hnotes => hnotes⟩

theorem run_effects (hfree : H.CollisionFree) (hbooks : BillsOk H base desk) (hok : EffectsOk base start desk)
    (events : List BillEvent) :
    EffectsOk base start (desk.run H events) ∧
      (desk.Along H BillDesk.FindsMarker events → NotesFollow start desk → NotesFollow start (desk.run H events)) := by
  unfold BillDesk.run
  induction events generalizing desk with
  | nil => exact ⟨hok, fun _ hnotes => hnotes⟩
  | cons e events ih =>
    obtain ⟨hstep, hnotes⟩ := step_effects hbooks hok e
    obtain ⟨hrun, hnotes'⟩ := ih (hbooks.step hfree e) hstep
    exact ⟨hrun, fun hall hstart => hnotes' hall.2 (hnotes hall.1 hstart)⟩

/-- A desk on which nothing was confirmed yet. -/
structure BillDesk.Untouched (H : ContentHash) (desk : BillDesk) : Prop where
  opening : desk.Opening H
  no_expense : ∀ x ∈ desk.expenses, x.source ≠ EXPENSE_SOURCE
  no_part : ∀ p ∈ desk.parts, p.source ≠ EXPENSE_SOURCE
  unlinked : ∀ l ∈ desk.lines, l.jobPartNeededId = none ∧ l.stockAdjustmentId = none
  parts : (desk.parts.map (·.id)).Nodup
  part_ids : ∀ p ∈ desk.parts, p.id < desk.nextId
  adjustment_ids : ∀ a ∈ desk.adjustments, a.id < desk.nextId

theorem BillDesk.Untouched.effects (h : desk.Untouched H) : EffectsOk desk.nextId desk desk := by
  have hopen := fun l hl => (h.opening.unconfirmed l hl).1
  refine ⟨⟨?_, ?_, h.adjustment_ids, ?_⟩, ⟨h.parts, h.part_ids, ?_, ?_, ?_, ?_⟩, ?_, ?_⟩
  · intro l hl a ha
    rw [(h.unlinked l hl).2] at ha
    cases ha
  · intro l hl hconfirmed
    rw [hopen l hl] at hconfirmed
    cases hconfirmed
  · refine List.map_congr_left fun i _ => ?_
    have hzero : desk.stockOf i.id = 0 := by
      unfold BillDesk.stockOf
      refine List.sum_eq_zero fun n hn => ?_
      obtain ⟨l, hl, rfl⟩ := List.mem_map.mp hn
      refine stocked_other fun hconfirmed => ?_
      rw [hopen l hl] at hconfirmed
      cases hconfirmed
    rw [hzero, add_zero]
  · intro l hl id hid
    rw [(h.unlinked l hl).1] at hid
    cases hid
  · intro l hl hitemed
    unfold VendorInvoiceLine.itemed at hitemed
    rw [hopen l hl] at hitemed
    cases hitemed
  · have hminted : desk.minted = [] := by
      refine List.filter_eq_nil_iff.mpr fun p hp => ?_
      simpa using h.no_part p hp
    have hunlinked : BillDesk.unlinked desk desk = [] := by
      refine List.filter_eq_nil_iff.mpr fun l hl => ?_
      unfold VendorInvoiceLine.itemed
      rw [hopen l hl]
      simp
    rw [hminted, hunlinked]
    exact List.Perm.refl _
  · have hrecorded : desk.recorded = desk.parts := by
      refine List.filter_eq_self.mpr fun p hp => ?_
      simpa using h.no_part p hp
    rw [hrecorded]
  · intro l hl
    unfold VendorInvoiceLine.costed
    rw [hopen l hl, (h.opening.unconfirmed l hl).2]
    simp
  · intro x hx hsource
    exact absurd hsource (h.no_expense x hx)

theorem BillDesk.Untouched.notes (h : desk.Untouched H) : NotesFollow desk desk := by
  intro p hp p' hp' hid
  refine ⟨[], ?_, ?_⟩
  · have hnone : desk.linkedTo p.id = [] := by
      refine List.filter_eq_nil_iff.mpr fun l hl => ?_
      rw [(h.unlinked l hl).1]
      simp
    rw [hnone]
  · rw [List.inj_on_of_nodup_map h.parts hp' hp hid]
    rfl

/-! ### Reversing undoes confirming -/

/-- The live expenses of bills. -/
def BillDesk.billExpenses (desk : BillDesk) : List BillExpense :=
  desk.expenses.filter fun x => x.source == EXPENSE_SOURCE && !x.deleted

/-- The desk holds what its confirmed lines put there, and nothing of the others. -/
structure HoldsConfirmed (start desk : BillDesk) : Prop where
  stock : desk.items.map (fun i => (i.id, i.quantity.getD 0)) =
    start.items.map fun i => (i.id, i.quantity.getD 0 + desk.stockOf i.id)
  expenses : (desk.billExpenses.map fun x => some x.id).Perm ((desk.lines.filter (·.costed)).map (·.expenseId))
  dropped : ∀ x ∈ desk.expenses, x.source = EXPENSE_SOURCE → x.deleted = true → NotBooked desk.ledger x.id
  minted : (desk.minted.map fun p => some p.id).Perm ((BillDesk.unlinked start desk).map (·.jobPartNeededId))
  recorded : desk.recorded.map (·.unnoted) = start.parts.map (·.unnoted)

theorem mem_billExpenses {x : BillExpense} :
    x ∈ desk.billExpenses ↔ x ∈ desk.expenses ∧ x.source = EXPENSE_SOURCE ∧ x.deleted = false := by
  unfold BillDesk.billExpenses
  simp only [List.mem_filter, Bool.and_eq_true, beq_iff_eq, Bool.not_eq_true']

theorem expenses_perm (hbooks : BillsOk H base desk) (hok : EffectsOk base start desk) :
    (desk.billExpenses.map fun x => some x.id).Perm ((desk.lines.filter (·.costed)).map (·.expenseId)) := by
  refine (List.perm_ext_iff_of_nodup ?_ ?_).mpr ?_
  · have hids : (desk.billExpenses.map (·.id)).Nodup := hbooks.expenses.nodup.sublist (List.filter_sublist.map _)
    have hsome := hids.map (Option.some_injective ℕ)
    rwa [List.map_map] at hsome
  · refine List.Nodup.map_on ?_ ((hbooks.lines.nodup.of_map _).filter _)
    intro l hl l' hl' heq
    obtain ⟨hl, hcosted⟩ := List.mem_filter.mp hl
    obtain ⟨hl', -⟩ := List.mem_filter.mp hl'
    obtain ⟨id, hid⟩ := Option.ne_none_iff_exists'.mp ((hok.costed l hl).mpr hcosted)
    exact hbooks.lines.owner l hl l' hl' id hid (heq ▸ hid)
  · intro o
    simp only [List.mem_map, List.mem_filter, mem_billExpenses]
    constructor
    · rintro ⟨x, ⟨hx, hsource, hlive⟩, rfl⟩
      obtain ⟨l, hl, hlx⟩ := hbooks.lines.reached x hx (hok.sources x hx hsource) hlive
      refine ⟨l, ⟨hl, ?_⟩, hlx⟩
      rw [← hok.costed l hl, hlx]
      exact Option.some_ne_none _
    · rintro ⟨l, ⟨hl, hcosted⟩, rfl⟩
      obtain ⟨id, hid⟩ := Option.ne_none_iff_exists'.mp ((hok.costed l hl).mpr hcosted)
      obtain ⟨-, x, hx, hxid, hlive, hsource⟩ := hbooks.lines.expense l hl id hid
      exact ⟨x, ⟨hx, hsource, hlive⟩, by rw [hid, hxid]⟩

/-- In every run each store holds what the confirmed lines put there and nothing of the others; and where each reversal
    finds its marker once, so do the notes of the parts. -/
theorem reversal_undoes_confirm (hfree : H.CollisionFree) (huntouched : desk.Untouched H) (events : List BillEvent) :
    HoldsConfirmed desk (desk.run H events) ∧
      (desk.Along H BillDesk.FindsMarker events → NotesFollow desk (desk.run H events)) := by
  have hbooks := huntouched.opening.billsOk
  have hbooks' := hbooks.run hfree events
  obtain ⟨hok, hnotes⟩ := run_effects hfree hbooks huntouched.effects events
  refine ⟨⟨hok.stock.sum, expenses_perm hbooks' hok, ?_, hok.parts.minted, hok.parts.kept⟩, ?_⟩
  · intro x hx hsource hdeleted
    have hbase := hok.sources x hx hsource
    obtain ⟨-, -, hreflects⟩ := hbooks'.expenses.rows x hx hbase
    refine notBooked_of_empty hbooks'.expenses.tracked (MadeSince.of_le hbase) (hreflects.unbooked ?_)
    rintro ⟨-, hlive, -⟩
    rw [hdeleted] at hlive
    cases hlive
  · exact fun hall => hnotes hall huntouched.notes

/-- A part the crew recorded. -/
def doorPart (notes : Text) : JobPartNeeded :=
  ⟨6, 5, "spring", 1, [], "tech".toList, some notes, none⟩

def springBill (id : ℕ) (number : Text) : VendorInvoice :=
  ⟨id, none, .name "acme".toList, "Acme".toList, number, some 10, 10000, .opened, none, none, false⟩

def springLine (id bill : ℕ) : VendorInvoiceLine :=
  ⟨id, bill, some id, .item, "spring", 100, 1000000, 5000, .pending, none, none, none, none, none, none, false⟩

/-- Two lines, on the bills given, and one job with the part. -/
def springDesk (bills : List VendorInvoice) (lines : List VendorInvoiceLine) : BillDesk :=
  ⟨0, supplySettings, bills, lines, [], [], Ledger.seeded, [⟨5, false⟩], [doorPart "left".toList], [], [], 10⟩

def toPart (bill line : ℕ) : ConfirmRequest := ⟨bill, line, .job, some 5, none, none, false, some 6⟩

theorem springDesk_untouched (bills : List VendorInvoice) {lines : List VendorInvoiceLine}
    (hnodup : (lines.map (·.id)).Nodup)
    (hlines : ∀ l ∈ lines, (l.confirmed = false ∧ l.expenseId = none) ∧ l.jobPartNeededId = none ∧ l.stockAdjustmentId = none) :
    (springDesk bills lines).Untouched plainHash where
  opening := {
    journal := seeded_journalInv plainHash
    unposted := fun e he => absurd he List.not_mem_nil
    expenses := List.nodup_nil
    expense_ids := fun x hx => absurd hx List.not_mem_nil
    lines := hnodup
    unconfirmed := fun l hl => (hlines l hl).1
    payments := List.nodup_nil
    payment_ids := fun p hp => absurd hp List.not_mem_nil }
  no_expense := fun x hx => absurd hx List.not_mem_nil
  no_part := fun p hp => by
    rw [List.mem_singleton.mp hp]
    decide
  unlinked := fun l hl => (hlines l hl).2
  parts := List.nodup_singleton _
  part_ids := fun p hp => by
    rw [List.mem_singleton.mp hp]
    show 6 < 10
    decide
  adjustment_ids := fun a ha => absurd ha List.not_mem_nil

/-- Lines of two bills are linked to one part, and one is taken back. -/
def twoBills : BillDesk :=
  springDesk [springBill 1 "A-1".toList, springBill 7 "A-2".toList] [springLine 2 1, springLine 3 7]

def linkTwo : List BillEvent := [.confirm 12 (toPart 1 2), .confirm 12 (toPart 7 3)]

/-- The marker of the other bill stays. -/
theorem reversal_undoes_confirm_two_bills :
    HoldsConfirmed twoBills (twoBills.run plainHash (linkTwo ++ [.reverse 13 none 1 2])) ∧
      NotesFollow twoBills (twoBills.run plainHash (linkTwo ++ [.reverse 13 none 1 2])) ∧
      (twoBills.run plainHash (linkTwo ++ [.reverse 13 none 1 2])).parts =
        [doorPart "left | Billed on vendor invoice A-2".toList] := by
  have huntouched : twoBills.Untouched plainHash := springDesk_untouched _ (by decide) (by decide)
  have hparts : (twoBills.run plainHash linkTwo).parts =
      [doorPart "left | Billed on vendor invoice A-1 | Billed on vendor invoice A-2".toList] := by
    decide +kernel
  have hbill : (twoBills.run plainHash linkTwo).bill 1 = some (springBill 1 "A-1".toList) := by decide +kernel
  have hfinds : (twoBills.run plainHash linkTwo).FindsMarker (.reverse 13 none 1 2) := by
    intro bill hfound l _ _ _ part hpart _ _
    rw [hbill, Option.some.injEq] at hfound
    rw [hparts, List.mem_singleton] at hpart
    rw [← hfound, hpart]
    exact ⟨⟨by decide +kernel, by decide +kernel⟩, by decide +kernel⟩
  obtain ⟨hholds, hnotes⟩ := reversal_undoes_confirm plainHash_collisionFree huntouched (linkTwo ++ [.reverse 13 none 1 2])
  exact ⟨hholds, hnotes ⟨trivial, trivial, hfinds, trivial⟩, by decide +kernel⟩

/-- Two lines of one bill are linked to one part, and one is taken back. -/
def oneBill : BillDesk := springDesk [springBill 1 "A-1".toList] [springLine 2 1, springLine 3 1]

/-- The other line is still confirmed and linked, and its marker is gone. -/
theorem reversal_drops_both_markers :
    oneBill.Untouched plainHash ∧ ¬ NotesFollow oneBill (oneBill.run plainHash
      [.confirm 12 (toPart 1 2), .confirm 12 (toPart 1 3), .reverse 13 none 1 2]) := by
  refine ⟨springDesk_untouched _ (by decide) (by decide), fun hnotes => ?_⟩
  set after := oneBill.run plainHash [.confirm 12 (toPart 1 2), .confirm 12 (toPart 1 3), .reverse 13 none 1 2] with hafter
  have hparts : after.parts = [doorPart "left".toList] := by decide +kernel
  have hlinked : (after.linkedTo 6).map (·.id) = [3] := by decide +kernel
  obtain ⟨order, hperm, hfollow⟩ := hnotes (doorPart "left".toList) List.mem_cons_self (doorPart "left".toList)
    (by rw [hparts]; exact List.mem_cons_self) rfl
  have hlen : (order.map after.markerOf).length = 1 := by
    rw [List.length_map, hperm.length_eq, ← List.length_map (f := (·.id))]
    exact congrArg List.length hlinked
  obtain ⟨m, hm⟩ := List.length_eq_one_iff.mp hlen
  rw [hm] at hfollow
  have hlonger := congrArg List.length hfollow
  have hne : m ≠ [] := by
    have hmem : m ∈ order.map after.markerOf := by
      rw [hm]
      exact List.mem_cons_self
    obtain ⟨l, -, rfl⟩ := List.mem_map.mp hmem
    exact markerOf_ne_nil after l
  have hmarked : (marked (((doorPart "left".toList).notes).getD []) [m]).length = 4 + 3 + m.length := by
    simp [marked, doorPart, withMarker, NOTE_GAP]
    omega
  rw [hmarked] at hlonger
  have hshort : ((doorPart "left".toList).notes.getD []).length = 4 := rfl
  omega

end Gdx
