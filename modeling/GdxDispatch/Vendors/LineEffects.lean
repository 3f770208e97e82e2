import GdxDispatch.Lib.Pieces
import GdxDispatch.Vendors.DeskRuns

/-! What the confirmed lines put into stock and onto the checklist.

    Each store is followed on its own. Stock holds what it started with and the whole units of the lines received into
    it; the checklist holds the parts it started with and one part for each line that made its own; the notes of a part
    are those it started with and a marker for each line linked to it. -/

namespace Gdx
open Lib

variable {start desk desk' : BillDesk} {line : VendorInvoiceLine} {g : VendorInvoiceLine → VendorInvoiceLine}

/-- One row of a table with a key is changed: the others stand beside what it was and beside what it is. -/
theorem perm_changed {α : Type} (key : α → ℕ) {rows : List α} {r : α} (f : α → α) (hnodup : (rows.map key).Nodup)
    (hr : r ∈ rows) :
    ∃ rest, rows.Perm (r :: rest) ∧ (rows.map fun x => if key x = key r then f x else x).Perm (f r :: rest) := by
  obtain ⟨before, behind, rfl⟩ := List.append_of_mem hr
  refine ⟨before ++ behind, List.perm_middle, ?_⟩
  rw [List.map_append, List.map_cons, List.nodup_append] at hnodup
  obtain ⟨-, hbehind, hbefore⟩ := hnodup
  have hsame : ∀ xs : List α, (∀ x ∈ xs, key x ≠ key r) → (xs.map fun x => if key x = key r then f x else x) = xs := by
    intro xs hxs
    conv_rhs => rw [← List.map_id xs]
    exact List.map_congr_left fun x hx => if_neg (hxs x hx)
  rw [List.map_append, List.map_cons, if_pos rfl, hsame before, hsame behind]
  · exact List.perm_middle
  · intro x hx heq
    exact (List.nodup_cons.mp hbehind).1 (heq ▸ List.mem_map_of_mem hx)
  · intro x hx heq
    exact hbefore (key x) (List.mem_map_of_mem hx) (key r) List.mem_cons_self heq

/-- The rows of the lines before and after one of them changes. -/
structure Changed (line : VendorInvoiceLine) (g : VendorInvoiceLine → VendorInvoiceLine) (desk desk' : BillDesk) :
    Prop where
  nodup : (desk.lines.map (·.id)).Nodup
  mem : line ∈ desk.lines
  keeps : KeepsLine g
  lines : desk'.lines = desk.lines.map fun l => if l.id = line.id then g l else l

theorem Changed.perm (h : Changed line g desk desk') :
    ∃ rest, desk.lines.Perm (line :: rest) ∧ desk'.lines.Perm (g line :: rest) := by
  rw [h.lines]
  exact perm_changed (·.id) g h.nodup h.mem

/-- One line changed, so a selection of the lines changes by the line. -/
theorem Changed.filter (h : Changed line g desk desk') (q : VendorInvoiceLine → Bool) :
    ∃ rest, (desk.lines.filter q).Perm ((if q line then [line] else []) ++ rest) ∧
      (desk'.lines.filter q).Perm ((if q (g line) then [g line] else []) ++ rest) := by
  obtain ⟨others, hold, hnew⟩ := h.perm
  refine ⟨others.filter q, ?_, ?_⟩
  · refine (hold.filter _).trans (.of_eq ?_)
    rw [List.filter_cons]
    split <;> rfl
  · refine (hnew.filter _).trans (.of_eq ?_)
    rw [List.filter_cons]
    split <;> rfl

/-- What holds of the other lines and of the line as it is now holds of all. -/
theorem Changed.all {P Q : VendorInvoiceLine → Prop} (h : Changed line g desk desk') (hold : ∀ l ∈ desk.lines, P l)
    (hothers : ∀ l ∈ desk.lines, l ≠ line → P l → Q l) (hline : Q (g line)) : ∀ l ∈ desk'.lines, Q l := by
  intro l hl
  rw [h.lines] at hl
  obtain ⟨k, hk, rfl⟩ := List.mem_map.mp hl
  by_cases hid : k.id = line.id
  · rw [if_pos hid, List.inj_on_of_nodup_map h.nodup hk h.mem hid]
    exact hline
  · rw [if_neg hid]
    exact hothers k hk (fun heq => hid (heq ▸ rfl)) (hold k hk)

/-! ### Stock -/

/-- The units the line holds in stock of the item. -/
def VendorInvoiceLine.stocked (item : ℕ) (l : VendorInvoiceLine) : ℤ :=
  if l.confirmed ∧ l.disposition = .stock ∧ l.inventoryItemId = some item then l.quantity / 100 else 0

/-- The units of the item that confirmed lines put into stock. -/
def BillDesk.stockOf (desk : BillDesk) (item : ℕ) : ℤ := (desk.lines.map (·.stocked item)).sum

/-- The adjustment of a line in stock is on file, for its item and its units. -/
structure InStock (desk : BillDesk) (l : VendorInvoiceLine) (adjustment : ℕ) : Prop where
  confirmed : l.confirmed = true
  disposition : l.disposition = .stock
  filed : ∃ item, l.inventoryItemId = some item ∧ (∃ i ∈ desk.items, i.id = item) ∧
    desk.adjustments.find? (·.id == adjustment) = some ⟨adjustment, item, l.quantity / 100⟩

/-- Stock is what it was and what the confirmed lines put into it. -/
structure StockOk (start desk : BillDesk) : Prop where
  held : ∀ l ∈ desk.lines, ∀ a, l.stockAdjustmentId = some a → InStock desk l a
  counted : ∀ l ∈ desk.lines, l.confirmed = true → l.disposition = .stock → l.stockAdjustmentId ≠ none
  ids : ∀ a ∈ desk.adjustments, a.id < desk.nextId
  sum : desk.items.map (fun i => (i.id, i.quantity.getD 0)) =
    start.items.map fun i => (i.id, i.quantity.getD 0 + desk.stockOf i.id)

theorem StockOk.open_none (h : StockOk start desk) {l : VendorInvoiceLine} (hl : l ∈ desk.lines)
    (hopen : l.confirmed = false) : l.stockAdjustmentId = none := by
  cases ha : l.stockAdjustmentId with
  | none => rfl
  | some a =>
    have := (h.held l hl a ha).confirmed
    rw [hopen] at this
    cases this

/-- One line changed, so the units of an item change by the line's. -/
theorem Changed.stockOf (h : Changed line g desk desk') (item : ℕ) :
    desk'.stockOf item = desk.stockOf item - line.stocked item + (g line).stocked item := by
  obtain ⟨rest, hold, hnew⟩ := h.perm
  unfold BillDesk.stockOf
  rw [(hold.map _).sum_eq, (hnew.map _).sum_eq, List.map_cons, List.map_cons, List.sum_cons, List.sum_cons]
  ring

theorem stocked_other {l : VendorInvoiceLine} {item : ℕ} (h : l.confirmed = true → l.disposition ≠ .stock) :
    l.stocked item = 0 := if_neg fun hin => h hin.1 hin.2.1

/-- A line that is not in stock, before and after. -/
theorem StockOk.idle (h : StockOk start desk) (hchanged : Changed line g desk desk')
    (hbefore : line.stockAdjustmentId = none) (hafter : (g line).stockAdjustmentId = none)
    (hother : (g line).confirmed = true → (g line).disposition ≠ .stock) (hitems : desk'.items = desk.items)
    (hadjustments : desk'.adjustments = desk.adjustments) (hnext : desk.nextId ≤ desk'.nextId) :
    StockOk start desk' := by
  have hout : line.confirmed = true → line.disposition ≠ .stock :=
    fun hconfirmed hstock => h.counted line hchanged.mem hconfirmed hstock hbefore
  constructor
  · refine hchanged.all h.held ?_ ?_
    · rintro l - - hheld a ha
      obtain ⟨hconfirmed, hstock, hfiled⟩ := hheld a ha
      refine ⟨hconfirmed, hstock, ?_⟩
      rw [hitems, hadjustments]
      exact hfiled
    · intro a ha
      rw [hafter] at ha
      cases ha
  · refine hchanged.all h.counted (fun l _ _ hl => hl) ?_
    intro hconfirmed hstock
    exact absurd hstock (hother hconfirmed)
  · rw [hadjustments]
    exact fun a ha => Nat.lt_of_lt_of_le (h.ids a ha) hnext
  · rw [hitems, h.sum]
    refine List.map_congr_left fun i _ => ?_
    rw [hchanged.stockOf, stocked_other hout, stocked_other hother, sub_zero, add_zero]

/-- A delta on one item, seen on all. -/
theorem applyStockDelta_items (desk : BillDesk) (item : ℕ) (delta : ℤ) :
    (desk.applyStockDelta item delta).items.map (fun i => (i.id, i.quantity.getD 0)) =
      (desk.items.map fun i => (i.id, i.quantity.getD 0)).map fun r => (r.1, r.2 + if r.1 = item then delta else 0) := by
  unfold BillDesk.applyStockDelta
  rw [List.map_map, List.map_map]
  refine List.map_congr_left fun i _ => ?_
  by_cases hid : i.id = item
  · simp [hid]
  · simp [hid]

/-- The adjustments on file stay on file, and the new one is there too. -/
theorem find_adjustment (as : List StockAdjustment) (new : StockAdjustment) (hids : ∀ a ∈ as, a.id < new.id) :
    (as ++ [new]).find? (·.id == new.id) = some new ∧
      ∀ k, (∃ a, as.find? (·.id == k) = some a) → (as ++ [new]).find? (·.id == k) = as.find? (·.id == k) := by
  constructor
  · rw [List.find?_append]
    have hnone : as.find? (·.id == new.id) = none := by
      refine List.find?_eq_none.mpr fun a ha => ?_
      have := hids a ha
      simp only [beq_iff_eq]
      omega
    rw [hnone]
    simp
  · rintro k ⟨a, ha⟩
    rw [List.find?_append, ha]
    rfl

/-- A line goes into stock: its units are added to the item, and the adjustment is filed. -/
theorem StockOk.stocked {item : ℕ} {units : ℤ} (h : StockOk start desk) (hchanged : Changed line g desk desk')
    (hopen : line.confirmed = false) (hitem : ∃ i ∈ desk.items, i.id = item) (hunits : line.quantity / 100 = units)
    (hconfirmed : (g line).confirmed = true) (hstock : (g line).disposition = .stock)
    (hinto : (g line).inventoryItemId = some item) (hadj : (g line).stockAdjustmentId = some desk.nextId)
    (hquantity : (g line).quantity = line.quantity)
    (hitems : desk'.items.map (fun i => (i.id, i.quantity)) =
      (desk.applyStockDelta item units).items.map fun i => (i.id, i.quantity))
    (hadjustments : desk'.adjustments = (desk.applyStockDelta item units).adjustments)
    (hnext : desk'.nextId = desk.nextId + 1) : StockOk start desk' := by
  have hcounts : desk'.items.map (fun i => (i.id, i.quantity.getD 0)) =
      (desk.applyStockDelta item units).items.map fun i => (i.id, i.quantity.getD 0) := by
    have := congrArg (List.map fun r : ℕ × Option ℤ => (r.1, r.2.getD 0)) hitems
    rwa [List.map_map, List.map_map] at this
  have hkeeps : ∀ k, (∃ i ∈ desk.items, i.id = k) → ∃ i ∈ desk'.items, i.id = k := by
    rintro k ⟨i, hi, rfl⟩
    have hmem : i.id ∈ desk.items.map (·.id) := List.mem_map_of_mem hi
    have hids : desk'.items.map (·.id) = desk.items.map (·.id) := by
      have := congrArg (List.map Prod.fst) hcounts
      rw [applyStockDelta_items, List.map_map, List.map_map, List.map_map] at this
      exact this
    rw [← hids] at hmem
    obtain ⟨j, hj, hjid⟩ := List.mem_map.mp hmem
    exact ⟨j, hj, hjid⟩
  obtain ⟨hnew, hold⟩ := find_adjustment desk.adjustments ⟨desk.nextId, item, units⟩ h.ids
  have hfiled : desk'.adjustments = desk.adjustments ++ [⟨desk.nextId, item, units⟩] := hadjustments
  constructor
  · refine hchanged.all h.held ?_ ?_
    · rintro l - - hheld a ha
      obtain ⟨hc, hs, item', hinto', hknown, hfind⟩ := hheld a ha
      refine ⟨hc, hs, item', hinto', hkeeps item' hknown, ?_⟩
      rw [hfiled, hold a ⟨_, hfind⟩, hfind]
    · intro a ha
      rw [hadj, Option.some.injEq] at ha
      refine ⟨hconfirmed, hstock, item, hinto, hkeeps item hitem, ?_⟩
      rw [← ha, hfiled, hnew, hquantity, hunits]
  · refine hchanged.all h.counted (fun l _ _ hl => hl) ?_
    intro _ _
    rw [hadj]
    exact Option.some_ne_none _
  · rw [hfiled, hnext]
    intro a ha
    rcases List.mem_append.mp ha with ha | ha
    · exact Nat.lt_succ_of_lt (h.ids a ha)
    · rw [List.mem_singleton.mp ha]
      exact Nat.lt_succ_self _
  · rw [hcounts, applyStockDelta_items, h.sum, List.map_map]
    refine List.map_congr_left fun i _ => ?_
    have hout : line.confirmed = true → line.disposition ≠ .stock := fun hc => by rw [hopen] at hc; cases hc
    have hin : (g line).stocked i.id = if i.id = item then units else 0 := by
      unfold VendorInvoiceLine.stocked
      simp only [hconfirmed, hstock, hinto, hquantity, hunits, Option.some.injEq, true_and, eq_comm]
    rw [hchanged.stockOf, stocked_other hout, hin, sub_zero, Function.comp_apply, add_assoc]

/-- A line in stock gives back the units its adjustment recorded. -/
theorem dropStock_held {a : ℕ} (ha : line.stockAdjustmentId = some a) (hheld : InStock desk line a) :
    ∃ item, line.inventoryItemId = some item ∧ desk.dropStock line = desk.applyStockDelta item (-(line.quantity / 100)) := by
  obtain ⟨-, -, item, hitem, ⟨i, hi, hid⟩, hfind⟩ := hheld
  refine ⟨item, hitem, ?_⟩
  have hany : desk.items.any (·.id == item) = true := List.any_eq_true.mpr ⟨i, hi, by simpa using hid⟩
  unfold BillDesk.dropStock
  rw [ha, hitem]
  simp only [hany, if_true, hfind]

theorem dropStock_none (ha : line.stockAdjustmentId = none) : desk.dropStock line = desk := by
  unfold BillDesk.dropStock
  rw [ha]

/-- A line is taken back, and its units with it. -/
theorem StockOk.reversed (h : StockOk start desk) (hchanged : Changed line VendorInvoiceLine.reset desk desk')
    (hitems : desk'.items = (desk.dropStock line).items) (hadjustments : desk'.adjustments = (desk.dropStock line).adjustments)
    (hnext : desk'.nextId = (desk.dropStock line).nextId) : StockOk start desk' := by
  cases ha : line.stockAdjustmentId with
  | none =>
    rw [dropStock_none ha] at hitems hadjustments hnext
    exact h.idle hchanged ha rfl (fun hc => by cases hc) hitems hadjustments (Nat.le_of_eq hnext.symm)
  | some a =>
    have hheld := h.held line hchanged.mem a ha
    obtain ⟨item, hitem, hdrop⟩ := dropStock_held ha hheld
    rw [hdrop] at hitems hadjustments hnext
    have hfiled : desk'.adjustments = desk.adjustments ++ [⟨desk.nextId, item, -(line.quantity / 100)⟩] := hadjustments
    have hsucc : desk'.nextId = desk.nextId + 1 := hnext
    have hcounts : desk'.items.map (fun i => (i.id, i.quantity.getD 0)) =
        (desk.items.map fun i => (i.id, i.quantity.getD 0)).map fun r =>
          (r.1, r.2 + if r.1 = item then -(line.quantity / 100) else 0) := by
      rw [hitems, applyStockDelta_items]
    have hids : desk'.items.map (·.id) = desk.items.map (·.id) := by
      have := congrArg (List.map Prod.fst) hcounts
      rw [List.map_map, List.map_map, List.map_map] at this
      exact this
    obtain ⟨-, hold⟩ := find_adjustment desk.adjustments ⟨desk.nextId, item, -(line.quantity / 100)⟩ h.ids
    constructor
    · refine hchanged.all h.held ?_ ?_
      · rintro l - - hheld' b hb
        obtain ⟨hc, hs, item', hinto, ⟨i, hi, rfl⟩, hfind⟩ := hheld' b hb
        refine ⟨hc, hs, i.id, hinto, ?_, ?_⟩
        · have hmem : i.id ∈ desk'.items.map (·.id) := by
            rw [hids]
            exact List.mem_map_of_mem hi
          obtain ⟨j, hj, hjid⟩ := List.mem_map.mp hmem
          exact ⟨j, hj, hjid⟩
        · rw [hfiled, hold b ⟨_, hfind⟩, hfind]
      · intro b hb
        cases hb
    · refine hchanged.all h.counted (fun l _ _ hl => hl) ?_
      intro hc
      cases hc
    · rw [hfiled, hsucc]
      intro b hb
      rcases List.mem_append.mp hb with hb | hb
      · exact Nat.lt_succ_of_lt (h.ids b hb)
      · rw [List.mem_singleton.mp hb]
        exact Nat.lt_succ_self _
    · rw [hcounts, h.sum, List.map_map]
      refine List.map_congr_left fun i _ => ?_
      have hout : line.reset.stocked i.id = 0 := stocked_other fun hc => by cases hc
      have hin : line.stocked i.id = if i.id = item then line.quantity / 100 else 0 := by
        unfold VendorInvoiceLine.stocked
        simp only [hheld.confirmed, hheld.disposition, hitem, Option.some.injEq, true_and, eq_comm]
      rw [hchanged.stockOf, hout, hin, Function.comp_apply]
      split <;> simp [sub_eq_add_neg, add_assoc]

/-! ### The checklist -/

/-- A confirmed item line of a job. -/
def VendorInvoiceLine.itemed (l : VendorInvoiceLine) : Bool := l.confirmed && l.disposition == .job && l.kind == .item

/-- The desk has the part. -/
def BillDesk.hasPart (desk : BillDesk) (id : Option ℕ) : Bool := desk.parts.any fun p => id == some p.id

/-- The parts that confirms made. -/
def BillDesk.minted (desk : BillDesk) : List JobPartNeeded := desk.parts.filter (·.source == EXPENSE_SOURCE)

/-- The parts that confirms found. -/
def BillDesk.recorded (desk : BillDesk) : List JobPartNeeded := desk.parts.filter (·.source != EXPENSE_SOURCE)

/-- The confirmed item lines of jobs that made their own part. -/
def BillDesk.unlinked (start desk : BillDesk) : List VendorInvoiceLine :=
  desk.lines.filter fun l => l.itemed && !start.hasPart l.jobPartNeededId

/-- The part without its notes. -/
def JobPartNeeded.unnoted (p : JobPartNeeded) : JobPartNeeded := { p with notes := none }

/-- The checklist is what it was, and one part for each line that made its own. -/
structure PartsOk (start desk : BillDesk) : Prop where
  nodup : (desk.parts.map (·.id)).Nodup
  ids : ∀ p ∈ desk.parts, p.id < desk.nextId
  linked : ∀ l ∈ desk.lines, ∀ id, l.jobPartNeededId = some id → l.itemed = true ∧ ∃ p ∈ desk.parts, p.id = id
  itemed : ∀ l ∈ desk.lines, l.itemed = true → l.jobPartNeededId ≠ none
  minted : (desk.minted.map fun p => some p.id).Perm ((BillDesk.unlinked start desk).map (·.jobPartNeededId))
  kept : desk.recorded.map (·.unnoted) = start.parts.map (·.unnoted)

theorem PartsOk.eq_of_id (h : PartsOk start desk) {p p' : JobPartNeeded} (hp : p ∈ desk.parts) (hp' : p' ∈ desk.parts)
    (hid : p.id = p'.id) : p = p' := List.inj_on_of_nodup_map h.nodup hp hp' hid

theorem PartsOk.find (h : PartsOk start desk) {p : JobPartNeeded} (hp : p ∈ desk.parts) :
    desk.parts.find? (·.id == p.id) = some p := by
  cases hfind : desk.parts.find? (·.id == p.id) with
  | none => exact absurd (List.find?_eq_none.mp hfind p hp) (by simp)
  | some q =>
    have hid : q.id = p.id := by simpa using List.find?_some hfind
    rw [h.eq_of_id (List.mem_of_find?_eq_some hfind) hp hid]

theorem PartsOk.open_none (h : PartsOk start desk) {l : VendorInvoiceLine} (hl : l ∈ desk.lines)
    (hopen : l.confirmed = false) : l.jobPartNeededId = none := by
  cases hid : l.jobPartNeededId with
  | none => rfl
  | some id =>
    have := (h.linked l hl id hid).1
    unfold VendorInvoiceLine.itemed at this
    rw [hopen] at this
    cases this

theorem JobPartNeeded.id_of_unnoted {p q : JobPartNeeded} (h : p.unnoted = q.unnoted) : p.id = q.id := by
  have hid := congrArg JobPartNeeded.id h
  exact hid

theorem JobPartNeeded.source_of_unnoted {p q : JobPartNeeded} (h : p.unnoted = q.unnoted) : p.source = q.source := by
  have hsource := congrArg JobPartNeeded.source h
  exact hsource

theorem mem_recorded {p : JobPartNeeded} : p ∈ desk.recorded ↔ p ∈ desk.parts ∧ p.source ≠ EXPENSE_SOURCE := by
  unfold BillDesk.recorded
  rw [List.mem_filter, bne_iff_ne]

theorem hasPart_eq_true {id : ℕ} : start.hasPart (some id) = true ↔ ∃ p ∈ start.parts, p.id = id := by
  unfold BillDesk.hasPart
  rw [List.any_eq_true]
  simp only [beq_iff_eq, Option.some.injEq, eq_comm (a := id)]

theorem PartsOk.found (h : PartsOk start desk) {p : JobPartNeeded} (hp : p ∈ start.parts) :
    ∃ p' ∈ desk.parts, p'.source ≠ EXPENSE_SOURCE ∧ p'.unnoted = p.unnoted := by
  have hmem : p.unnoted ∈ desk.recorded.map (·.unnoted) := by
    rw [h.kept]
    exact List.mem_map_of_mem hp
  obtain ⟨p', hp', hsame⟩ := List.mem_map.mp hmem
  obtain ⟨hp', hsource⟩ := mem_recorded.mp hp'
  exact ⟨p', hp', hsource, hsame⟩

theorem PartsOk.start_lt (h : PartsOk start desk) (p : JobPartNeeded) (hp : p ∈ start.parts) : p.id < desk.nextId := by
  obtain ⟨p', hp', -, hsame⟩ := h.found hp
  rw [← JobPartNeeded.id_of_unnoted hsame]
  exact h.ids p' hp'

/-- The parts found are those of the start. -/
theorem PartsOk.hasPart_iff (h : PartsOk start desk) {p : JobPartNeeded} (hp : p ∈ desk.parts) :
    start.hasPart (some p.id) = true ↔ p.source ≠ EXPENSE_SOURCE := by
  rw [hasPart_eq_true]
  constructor
  · rintro ⟨q, hq, hid⟩
    obtain ⟨q', hq', hsource, hsame⟩ := h.found hq
    rw [← h.eq_of_id hq' hp ((JobPartNeeded.id_of_unnoted hsame).trans hid)]
    exact hsource
  · intro hsource
    have hmem : p.unnoted ∈ start.parts.map (·.unnoted) := by
      rw [← h.kept]
      exact List.mem_map_of_mem (mem_recorded.mpr ⟨hp, hsource⟩)
    obtain ⟨q, hq, hsame⟩ := List.mem_map.mp hmem
    exact ⟨q, hq, JobPartNeeded.id_of_unnoted hsame⟩

/-- One line changed, so the lines that made a part change by the line. -/
theorem Changed.unlinked (h : Changed line g desk desk') (start : BillDesk) :
    ∃ rest, (BillDesk.unlinked start desk).Perm
        ((if line.itemed && !start.hasPart line.jobPartNeededId then [line] else []) ++ rest) ∧
      (BillDesk.unlinked start desk').Perm
        ((if (g line).itemed && !start.hasPart (g line).jobPartNeededId then [g line] else []) ++ rest) :=
  h.filter fun l => l.itemed && !start.hasPart l.jobPartNeededId

/-- The line made a part of its own. -/
def VendorInvoiceLine.mints (start : BillDesk) (l : VendorInvoiceLine) : Bool :=
  l.itemed && !start.hasPart l.jobPartNeededId

/-- A line that made no part, before and after. -/
theorem PartsOk.uncounted (h : PartsOk start desk) (hchanged : Changed line g desk desk')
    (hbefore : line.mints start = false) (hafter : (g line).mints start = false)
    (hlinked : ∀ id, (g line).jobPartNeededId = some id → (g line).itemed = true ∧ ∃ p ∈ desk.parts, p.id = id)
    (hitemed : (g line).itemed = true → (g line).jobPartNeededId ≠ none) (hparts : desk'.parts = desk.parts)
    (hnext : desk.nextId ≤ desk'.nextId) : PartsOk start desk' := by
  constructor
  · rw [hparts]
    exact h.nodup
  · rw [hparts]
    exact fun p hp => Nat.lt_of_lt_of_le (h.ids p hp) hnext
  · rw [hparts]
    exact hchanged.all h.linked (fun l _ _ hl => hl) hlinked
  · exact hchanged.all h.itemed (fun l _ _ hl => hl) hitemed
  · obtain ⟨rest, hold, hnew⟩ := hchanged.unlinked start
    rw [show (line.itemed && !start.hasPart line.jobPartNeededId) = false from hbefore] at hold
    rw [show ((g line).itemed && !start.hasPart (g line).jobPartNeededId) = false from hafter] at hnew
    have hminted : desk'.minted = desk.minted := by
      unfold BillDesk.minted
      rw [hparts]
    rw [hminted]
    exact h.minted.trans ((hold.trans hnew.symm).map _)
  · have hrecorded : desk'.recorded = desk.recorded := by
      unfold BillDesk.recorded
      rw [hparts]
    rw [hrecorded]
    exact h.kept

/-- A line without a part, before and after. -/
theorem PartsOk.idle (h : PartsOk start desk) (hchanged : Changed line g desk desk')
    (hbefore : line.jobPartNeededId = none) (hafter : (g line).jobPartNeededId = none)
    (hother : (g line).itemed = false) (hparts : desk'.parts = desk.parts) (hnext : desk.nextId ≤ desk'.nextId) :
    PartsOk start desk' := by
  have hout : line.itemed = false := by
    by_contra hitemed
    exact h.itemed line hchanged.mem (by simpa using hitemed) hbefore
  refine h.uncounted hchanged ?_ ?_ ?_ ?_ hparts hnext
  · unfold VendorInvoiceLine.mints
    rw [hout]
    rfl
  · unfold VendorInvoiceLine.mints
    rw [hother]
    rfl
  · intro id hid
    rw [hafter] at hid
    cases hid
  · intro hitemed
    rw [hother] at hitemed
    cases hitemed

/-- The notes of one part changed. -/
theorem setPart_notes (desk : BillDesk) (id : ℕ) {f : JobPartNeeded → JobPartNeeded} (hf : ∀ p, (f p).unnoted = p.unnoted) :
    (desk.setPart id f).parts.map (·.unnoted) = desk.parts.map (·.unnoted) ∧
      (desk.setPart id f).minted.map (·.unnoted) = desk.minted.map (·.unnoted) ∧
      (desk.setPart id f).recorded.map (·.unnoted) = desk.recorded.map (·.unnoted) := by
  have hone : ∀ p, (if p.id = id then f p else p).unnoted = p.unnoted := by
    intro p
    split
    · exact hf p
    · rfl
  have hsource : ∀ p, (if p.id = id then f p else p).source = p.source :=
    fun p => JobPartNeeded.source_of_unnoted (hone p)
  unfold BillDesk.minted BillDesk.recorded BillDesk.setPart
  refine ⟨?_, ?_, ?_⟩
  · rw [List.map_map]
    exact List.map_congr_left fun p _ => hone p
  · rw [List.filter_map, List.map_map]
    simp only [Function.comp_def, hsource, hone]
  · rw [List.filter_map, List.map_map]
    simp only [Function.comp_def, hsource, hone]

/-- What the checklist says without its notes is all that this reads. -/
theorem PartsOk.renoted (h : PartsOk start desk) (hlines : desk'.lines = desk.lines) (hnext : desk.nextId ≤ desk'.nextId)
    (hparts : desk'.parts.map (·.unnoted) = desk.parts.map (·.unnoted))
    (hminted : desk'.minted.map (·.unnoted) = desk.minted.map (·.unnoted))
    (hrecorded : desk'.recorded.map (·.unnoted) = desk.recorded.map (·.unnoted)) : PartsOk start desk' := by
  have hids : desk'.parts.map (·.id) = desk.parts.map (·.id) := by
    have := congrArg (List.map JobPartNeeded.id) hparts
    rwa [List.map_map, List.map_map] at this
  constructor
  · rw [hids]
    exact h.nodup
  · intro p hp
    have hmem : p.id ∈ desk.parts.map (·.id) := by
      rw [← hids]
      exact List.mem_map_of_mem hp
    obtain ⟨q, hq, hqid⟩ := List.mem_map.mp hmem
    exact hqid ▸ Nat.lt_of_lt_of_le (h.ids q hq) hnext
  · rw [hlines]
    intro l hl id hid
    obtain ⟨hitemed, p, hp, rfl⟩ := h.linked l hl id hid
    refine ⟨hitemed, ?_⟩
    have hmem : p.id ∈ desk'.parts.map (·.id) := by
      rw [hids]
      exact List.mem_map_of_mem hp
    obtain ⟨q, hq, hqid⟩ := List.mem_map.mp hmem
    exact ⟨q, hq, hqid⟩
  · rw [hlines]
    exact h.itemed
  · have hmids : (desk'.minted.map fun p => some p.id) = desk.minted.map fun p => some p.id := by
      have := congrArg (List.map fun p : JobPartNeeded => some p.id) hminted
      rwa [List.map_map, List.map_map] at this
    have hsame : BillDesk.unlinked start desk' = BillDesk.unlinked start desk := by
      unfold BillDesk.unlinked
      rw [hlines]
    rw [hmids, hsame]
    exact h.minted
  · rw [hrecorded]
    exact h.kept

/-- A line makes its own part. -/
theorem PartsOk.mint {part : JobPartNeeded} (h : PartsOk start desk) (hchanged : Changed line g desk desk')
    (hopen : line.confirmed = false) (hid : part.id = desk.nextId)
    (hsource : part.source = EXPENSE_SOURCE) (hitemed : (g line).itemed = true)
    (hlink : (g line).jobPartNeededId = some part.id) (hparts : desk'.parts = desk.parts ++ [part])
    (hnext : desk'.nextId = desk.nextId + 1) : PartsOk start desk' := by
  have hnew : start.hasPart (some part.id) = false := by
    rw [Bool.eq_false_iff]
    intro hhas
    obtain ⟨p, hp, hpid⟩ := hasPart_eq_true.mp hhas
    have := h.start_lt p hp
    omega
  constructor
  · rw [hparts, List.map_append]
    refine List.nodup_append.mpr ⟨h.nodup, List.nodup_singleton _, ?_⟩
    intro i hi j hj
    obtain ⟨p, hp, rfl⟩ := List.mem_map.mp hi
    rw [List.map_singleton, List.mem_singleton] at hj
    have := h.ids p hp
    omega
  · rw [hparts, hnext]
    intro p hp
    rcases List.mem_append.mp hp with hp | hp
    · exact Nat.lt_succ_of_lt (h.ids p hp)
    · rw [List.mem_singleton.mp hp, hid]
      exact Nat.lt_succ_self _
  · rw [hparts]
    refine hchanged.all h.linked ?_ ?_
    · intro l _ _ hl id hlid
      obtain ⟨hi, p, hp, hpid⟩ := hl id hlid
      exact ⟨hi, p, List.mem_append_left _ hp, hpid⟩
    · intro id hlid
      rw [hlink, Option.some.injEq] at hlid
      exact ⟨hitemed, part, List.mem_append_right _ List.mem_cons_self, hlid⟩
  · refine hchanged.all h.itemed (fun l _ _ hl => hl) ?_
    intro _
    rw [hlink]
    exact Option.some_ne_none _
  · obtain ⟨rest, hbefore, hafter⟩ := hchanged.unlinked start
    have hout : line.itemed = false := by
      unfold VendorInvoiceLine.itemed
      rw [hopen]
      rfl
    rw [hout] at hbefore
    rw [hitemed, hlink, hnew] at hafter
    have hminted : desk'.minted = desk.minted ++ [part] := by
      unfold BillDesk.minted
      rw [hparts, List.filter_append]
      simp [hsource]
    rw [hminted, List.map_append]
    refine (List.perm_append_comm).trans ?_
    have hnow := (hafter.map fun l : VendorInvoiceLine => l.jobPartNeededId).symm
    rw [Bool.not_false, Bool.and_true, if_pos rfl, List.map_append, List.map_singleton, hlink] at hnow
    exact ((h.minted.trans (hbefore.map _)).append_left _).trans hnow
  · have hrecorded : desk'.recorded = desk.recorded := by
      unfold BillDesk.recorded
      rw [hparts, List.filter_append]
      simp [hsource]
    rw [hrecorded]
    exact h.kept

/-- A line is taken back, and the part it made with it. -/
theorem PartsOk.unmint {part : JobPartNeeded} (h : PartsOk start desk)
    (hchanged : Changed line VendorInvoiceLine.reset desk desk') (hpart : part ∈ desk.parts)
    (hsource : part.source = EXPENSE_SOURCE) (hlink : line.jobPartNeededId = some part.id)
    (hparts : desk'.parts = desk.parts.filter (·.id != part.id)) (hnext : desk.nextId ≤ desk'.nextId) :
    PartsOk start desk' := by
  have hnew : start.hasPart (some part.id) = false := by
    rw [Bool.eq_false_iff]
    exact fun hhas => (h.hasPart_iff hpart).mp hhas hsource
  have hitemed := (h.linked line hchanged.mem _ hlink).1
  obtain ⟨rest, hbefore, hafter⟩ := hchanged.unlinked start
  rw [hitemed, hlink, hnew, Bool.not_false, Bool.and_true, if_pos rfl] at hbefore
  have hids : (desk.minted.map fun p => some p.id).Perm (some part.id :: rest.map (·.jobPartNeededId)) := by
    have := hbefore.map fun l : VendorInvoiceLine => l.jobPartNeededId
    rw [List.map_append, List.map_singleton, hlink] at this
    exact h.minted.trans this
  have hnodup : (desk.minted.map fun p => some p.id).Nodup := by
    have hids : (desk.minted.map (·.id)).Nodup := h.nodup.sublist (List.filter_sublist.map _)
    have := hids.map (Option.some_injective ℕ)
    rwa [List.map_map] at this
  have hone : some part.id ∉ rest.map (·.jobPartNeededId) := (List.nodup_cons.mp (hids.nodup_iff.mp hnodup)).1
  -- The part belongs to this line alone.
  have halone : ∀ l ∈ desk.lines, l.jobPartNeededId = some part.id → l = line := by
    intro l hl hlid
    have hmem : l ∈ BillDesk.unlinked start desk := by
      refine List.mem_filter.mpr ⟨hl, ?_⟩
      rw [(h.linked l hl _ hlid).1, hlid, hnew]
      rfl
    rcases List.mem_cons.mp (hbefore.mem_iff.mp hmem) with heq | hrest
    · exact heq
    · exact absurd (hlid ▸ List.mem_map_of_mem hrest) hone
  constructor
  · rw [hparts]
    exact h.nodup.sublist (List.filter_sublist.map _)
  · rw [hparts]
    exact fun p hp => Nat.lt_of_lt_of_le (h.ids p (List.mem_of_mem_filter hp)) hnext
  · rw [hparts]
    refine hchanged.all h.linked ?_ ?_
    · intro l hl hne hlinked id hlid
      obtain ⟨hi, p, hp, rfl⟩ := hlinked id hlid
      refine ⟨hi, p, List.mem_filter.mpr ⟨hp, ?_⟩, rfl⟩
      rw [bne_iff_ne]
      intro heq
      exact hne (halone l hl (heq ▸ hlid))
    · intro id hlid
      cases hlid
  · refine hchanged.all h.itemed (fun l _ _ hl => hl) ?_
    intro hreset
    cases hreset
  · have hreset : (VendorInvoiceLine.reset line).itemed = false := rfl
    rw [hreset, Bool.false_and, if_neg (by decide), List.nil_append] at hafter
    have hminted : desk'.minted = desk.minted.filter (·.id != part.id) := by
      unfold BillDesk.minted
      rw [hparts, List.filter_filter, List.filter_filter]
      exact List.filter_congr fun p _ => Bool.and_comm _ _
    have hcut : (desk.minted.map fun p => some p.id).filter (· != some part.id) =
        (desk.minted.filter (·.id != part.id)).map fun p => some p.id := by
      rw [List.filter_map]
      rfl
    rw [hminted, ← hcut]
    refine (hids.filter _).trans (.trans (.of_eq ?_) (hafter.map _).symm)
    rw [List.filter_cons, if_neg (by simp)]
    refine List.filter_eq_self.mpr fun o ho => ?_
    rw [bne_iff_ne]
    rintro rfl
    exact hone ho
  · have hrecorded : desk'.recorded = desk.recorded := by
      unfold BillDesk.recorded
      rw [hparts, List.filter_filter]
      refine List.filter_congr fun p hp => ?_
      by_cases hid : p.id = part.id
      · rw [h.eq_of_id hp hpart hid, hsource]
        simp
      · simp [hid]
    rw [hrecorded]
    exact h.kept

/-! ### The notes of a part -/

/-- The notes with a marker behind them for each. -/
def marked (notes : Text) (markers : List Text) : Text := markers.foldl (fun n m => withMarker (some n) m) notes

theorem joinPieces_eq_glue (ps : List Text) : joinPieces ps = glue [' ', '|', ' '] ps := by
  induction ps with
  | nil => rfl
  | cons p ps ih =>
    cases ps with
    | nil => rfl
    | cons q ps =>
      rw [glue_cons (by simp), ← ih]
      rfl

/-- Marked notes are the notes, when there are any, and the markers, glued. -/
theorem marked_eq_glue {notes : Text} {markers : List Text} (h : ∀ m ∈ markers, m ≠ []) :
    marked notes markers = glue [' ', '|', ' '] (if notes = [] then markers else notes :: markers) := by
  induction markers generalizing notes with
  | nil =>
    by_cases hnil : notes = []
    · rw [if_pos hnil]
      exact hnil
    · rw [if_neg hnil]
      rfl
  | cons m markers ih =>
    have ih := @ih (withMarker (some notes) m) fun k hk => h k (List.mem_cons_of_mem _ hk)
    rw [show marked notes (m :: markers) = marked (withMarker (some notes) m) markers from rfl, ih]
    cases notes with
    | nil => rw [if_neg (show withMarker (some []) m ≠ [] from h m List.mem_cons_self), if_pos rfl]; rfl
    | cons c cs =>
      rw [if_neg (show withMarker (some (c :: cs)) m ≠ [] by simp [withMarker]), if_neg (by simp)]
      show glue _ ((c :: cs ++ NOTE_GAP ++ m) :: markers) = _
      by_cases hmore : markers = []
      · rw [hmore]
        rfl
      · rw [glue_cons hmore, glue_cons (by simp), glue_cons hmore]
        simp [NOTE_GAP]

/-- The notes are tidy and hold the marker once. -/
def MarkedOnce (notes marker : Text) : Prop :=
  Tidy isPySpace '|' ' ' notes ∧ (notePieces notes).count marker = 1

/-- Taking the marker of one line out of notes that hold it once leaves the other markers. -/
theorem withoutMarker_marked {notes m : Text} {before behind : List Text} (h : ∀ k ∈ before ++ m :: behind, k ≠ [])
    (hone : MarkedOnce (marked notes (before ++ m :: behind)) m) :
    (withoutMarker (some (marked notes (before ++ m :: behind))) m).getD [] = marked notes (before ++ behind) := by
  have hrest : ∀ k ∈ before ++ behind, k ≠ [] := by
    intro k hk
    rcases List.mem_append.mp hk with hk | hk
    · exact h k (List.mem_append_left _ hk)
    · exact h k (List.mem_append_right _ (List.mem_cons_of_mem _ hk))
  obtain ⟨htidy, hcount⟩ := hone
  have hfilter : (notePieces (marked notes (before ++ m :: behind))).filter (fun piece => piece ≠ [] && piece ≠ m) =
      (notePieces (marked notes (before ++ m :: behind))).filter (· ≠ m) := by
    refine List.filter_congr fun piece hpiece => ?_
    have hne : piece ≠ [] := fun heq => htidy.filled (heq ▸ hpiece)
    simp [hne]
  have hshape : ∀ ms : List Text, (if notes = [] then ms else notes :: ms) = (if notes = [] then [] else [notes]) ++ ms := by
    intro ms
    split <;> rfl
  have hglue : joinPieces ((notePieces (marked notes (before ++ m :: behind))).filter (· ≠ m)) =
      marked notes (before ++ behind) := by
    rw [joinPieces_eq_glue, marked_eq_glue hrest, hshape, ← List.append_assoc]
    rw [marked_eq_glue h, hshape, ← List.append_assoc] at htidy hcount ⊢
    exact glue_without (by decide) (by decide) htidy hcount
  have hfull : marked notes (before ++ m :: behind) ≠ [] := by
    intro hnil
    rw [hnil] at htidy
    exact htidy.filled (by decide)
  have hwithout : withoutMarker (some (marked notes (before ++ m :: behind))) m =
      (some (marked notes (before ++ behind))).filter (· ≠ []) := by
    unfold withoutMarker
    split
    · rename_i heq
      cases heq
    · rename_i heq
      exact absurd (Option.some.inj heq) hfull
    · rename_i text _ heq
      rw [← Option.some.inj heq]
      dsimp only
      rw [hfilter, hglue]
  rw [hwithout]
  by_cases hnil : marked notes (before ++ behind) = []
  · rw [hnil]
    rfl
  · rw [Option.filter_some, if_pos (by simpa using hnil)]
    rfl

end Gdx
