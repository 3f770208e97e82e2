import GdxDispatch.Lib.Runs
import GdxDispatch.Inventory.PurchaseOrders

/-! Stock counts each received order once.

    Receiving adds the lines it read and writes the status. A create or an update can write the same status and add
    nothing; two receives that read before either commits both add; and an update that read before a receive committed
    replaces the lines that were counted. In a run where none of these happens, the stock is what it was plus the lines
    of the received orders. -/

namespace Gdx.Purchasing

open Lib

variable {s : Warehouse} {row po read : PurchaseOrder} {items : List InventoryItem} {lines : List PurchaseOrderLine}
  {columns : List PoColumn} {itemId : ℕ} {flight : PoFlight}

/-! ### What counts -/

/-- What the lines order of an item. -/
def lineCount (lines : List PurchaseOrderLine) (itemId : ℕ) : ℤ :=
  (lines.map fun line => if line.itemId = some itemId then (line.quantityOrdered : ℤ) else 0).sum

/-- What an order has brought of an item. -/
def PurchaseOrder.counts (itemId : ℕ) (po : PurchaseOrder) : ℤ :=
  if po.status = .received then lineCount po.lines itemId else 0

def Warehouse.counted (s : Warehouse) (itemId : ℕ) : ℤ := (s.orders.map (PurchaseOrder.counts itemId)).sum

/-- Each item holds what it held at first and what the received orders brought. -/
def StockCounted (items : List InventoryItem) (s : Warehouse) : Prop :=
  ∀ itemId, s.item itemId = (rowOf InventoryItem.id items itemId).map fun item =>
    { item with quantity := item.quantity + s.counted itemId }

/-- A line is received in full only on a received order. -/
def ReceivedLines (s : Warehouse) : Prop :=
  ∀ po ∈ s.orders, ∀ line ∈ po.lines, line.quantityReceived = line.quantityOrdered → 0 < line.quantityReceived →
    po.status = .received

/-- No line orders an item on the shelves. -/
def Unstocked (s : Warehouse) (lines : List PurchaseOrderLine) : Prop :=
  ∀ line ∈ lines, ∀ itemId ∈ line.itemId, (s.item itemId).isSome = true → line.quantityOrdered = 0

/-- Status received is written with stock lines by a receive only; a receive commits on an order that nobody received
    or relined since it read, an update on one that nobody received. -/
def KeepsCount (d : PoDesk) : PoEvent → Prop
  | .reads _ => True
  | .commits i => ∀ flight, d.inFlight[i]? = some flight →
    match flight with
    | .create po => po.status = .received → Unstocked d.tables po.lines
    | .update read columns lines => ∀ row, d.tables.order read.id = some row → row.status ≠ .received ∧
        (.status .received ∈ columns →
          Unstocked d.tables (row.lines.filter (fun line => line.id ∉ lineIds read.lines) ++ lines))
    | .receive read _ => ∀ row, d.tables.order read.id = some row → row.status ≠ .received ∧ row.lines = read.lines
    | .delete _ _ => True

/-! ### Sums over lines -/

theorem lineCount_append (lines lines' : List PurchaseOrderLine) :
    lineCount (lines ++ lines') itemId = lineCount lines itemId + lineCount lines' itemId := by
  rw [lineCount, List.map_append, List.sum_append]
  rfl

/-- New ids order the same. -/
theorem lineCount_numbered (firstId : ℕ) : lineCount (numbered firstId lines) itemId = lineCount lines itemId := by
  induction lines generalizing firstId with
  | nil => rfl
  | cons line lines ih =>
    simp only [lineCount] at ih ⊢
    rw [numbered, List.map_cons, List.map_cons, List.sum_cons, List.sum_cons, ih]

theorem lineCount_receivedLines : lineCount (row.receivedLines read) itemId = lineCount row.lines itemId := by
  rw [lineCount, PurchaseOrder.receivedLines, List.map_map]
  refine congrArg List.sum (List.map_congr_left fun line _ => ?_)
  simp only [Function.comp_apply]
  split
  · rfl
  · rfl

/-- Lines without stock bring nothing of an item on the shelves. -/
theorem Unstocked.lineCount_eq_zero (h : Unstocked s lines) (hitem : (s.item itemId).isSome = true) :
    lineCount lines itemId = 0 := by
  refine List.sum_eq_zero fun n hn => ?_
  obtain ⟨line, hline, rfl⟩ := List.mem_map.mp hn
  split
  · rename_i hnames
    rw [h line hline itemId hnames hitem]
    rfl
  · rfl

theorem rowOf_applyStockDelta (delta : ℤ) (other : ℕ) :
    rowOf InventoryItem.id (applyStockDelta items other delta false) itemId =
      (rowOf InventoryItem.id items itemId).map fun item =>
        { item with quantity := item.quantity + if other = itemId then delta else 0 } := by
  have hid : ∀ item : InventoryItem, (if item.id = other then
      { item with quantity := if false then max 0 (item.quantity + delta) else item.quantity + delta } else item).id =
        item.id := fun item => by
    split
    · rfl
    · rfl
  rw [applyStockDelta, rowOf_map hid]
  cases hrow : rowOf InventoryItem.id items itemId with
  | none => rfl
  | some item =>
    obtain rfl := key_of_rowOf hrow
    by_cases hother : item.id = other
    · simp [hother]
    · simp [hother, Ne.symm hother]

/-- A receive adds to each item what its lines order. -/
theorem rowOf_receiveStock (items : List InventoryItem) : rowOf InventoryItem.id (receiveStock items lines) itemId =
    (rowOf InventoryItem.id items itemId).map fun item =>
      { item with quantity := item.quantity + lineCount lines itemId } := by
  induction lines generalizing items with
  | nil => simp [receiveStock, lineCount]
  | cons line lines ih =>
    have hcount : lineCount (line :: lines) itemId =
        (if line.itemId = some itemId then (line.quantityOrdered : ℤ) else 0) + lineCount lines itemId := by
      simp [lineCount]
    rw [receiveStock, List.foldl_cons, ← receiveStock, ih, hcount]
    cases hitem : line.itemId with
    | none => simp
    | some other =>
      rw [rowOf_applyStockDelta, Option.map_map]
      congr 1
      funext item
      simp [add_assoc]

/-! ### Calls in flight -/

theorem set_id (c : PoColumn) (row : PurchaseOrder) : (c.set row).id = row.id := by cases c <;> rfl

theorem set_lines (c : PoColumn) (row : PurchaseOrder) : (c.set row).lines = row.lines := by cases c <;> rfl

@[simp] theorem setAll_id (columns : List PoColumn) (row : PurchaseOrder) : (row.setAll columns).id = row.id := by
  induction columns generalizing row with
  | nil => rfl
  | cons c columns ih => exact (ih (c.set row)).trans (set_id c row)

@[simp] theorem setAll_lines (columns : List PoColumn) (row : PurchaseOrder) :
    (row.setAll columns).lines = row.lines := by
  induction columns generalizing row with
  | nil => rfl
  | cons c columns ih => exact (ih (c.set row)).trans (set_lines c row)

/-- Columns other than the status leave it. -/
theorem setAll_status (columns : List PoColumn) (row : PurchaseOrder) (h : ∀ st, .status st ∉ columns) :
    (row.setAll columns).status = row.status := by
  induction columns generalizing row with
  | nil => rfl
  | cons c columns ih =>
    have hc : (c.set row).status = row.status := by
      cases c with
      | status st => exact absurd List.mem_cons_self (h st)
      | _ => rfl
    exact (ih (c.set row) fun st hst => h st (List.mem_cons_of_mem _ hst)).trans hc

/-- A received order was received before, or the columns say so. -/
theorem setAll_received (columns : List PoColumn) (row : PurchaseOrder)
    (h : (row.setAll columns).status = .received) : row.status = .received ∨ .status .received ∈ columns := by
  induction columns generalizing row with
  | nil => exact .inl h
  | cons c columns ih =>
    rcases ih (c.set row) h with hset | hin
    · cases c with
      | status st =>
        obtain rfl : st = .received := hset
        exact .inr List.mem_cons_self
      | _ => exact .inl hset
    · exact .inr (List.mem_cons_of_mem _ hin)

/-- What the reads prepare: new lines have nothing received, a receive writes the status, a delete does not. -/
def PoFlight.Prepared : PoFlight → Prop
  | .create po => ∀ line ∈ po.lines, line.quantityReceived = 0
  | .update _ _ lines => ∀ line ∈ lines, line.quantityReceived = 0
  | .receive _ columns => ∀ row : PurchaseOrder, (row.setAll columns).status = .received
  | .delete _ columns => ∀ row : PurchaseOrder, (row.setAll columns).status = row.status

theorem newLines_unreceived {payload : List POLineIn} (h : newLines payload = .ok lines) :
    ∀ line ∈ lines, line.quantityReceived = 0 := by
  induction payload generalizing lines with
  | nil =>
    cases h
    exact fun _ => nofun
  | cons first rest ih =>
    obtain ⟨row, hrow, h⟩ := except_bind_ok.mp h
    obtain ⟨rows, hrows, h⟩ := except_bind_ok.mp h
    cases h
    obtain ⟨id, -, hrow⟩ := except_bind_ok.mp hrow
    cases hrow
    intro line hline
    rcases List.mem_cons.mp hline with rfl | hline
    · rfl
    · exact ih hrows line hline

theorem reads_prepared {call : PoCall} (h : s.reads call = .ok flight) : flight.Prepared := by
  cases call with
  | create today actor payload =>
    obtain ⟨vendor, -, h⟩ := except_bind_ok.mp h
    obtain ⟨lines, hlines, h⟩ := except_bind_ok.mp h
    cases h
    exact newLines_unreceived hlines
  | update poId payload =>
    obtain ⟨po, -, h⟩ := except_bind_ok.mp h
    split at h
    · cases h
    · obtain ⟨lines, hlines, h⟩ := except_bind_ok.mp h
      cases h
      exact newLines_unreceived hlines
  | receive today poId =>
    obtain ⟨po, -, h⟩ := except_bind_ok.mp h
    split at h
    · cases h
    · cases h
      intro row
      have hdate : ∀ st, PoColumn.status st ∉ column .receivedDate po.receivedDate (some today) := fun st => by
        unfold column
        split
        · exact List.not_mem_nil
        · exact fun h => by cases List.mem_singleton.mp h
      exact setAll_status _ (PoColumn.set row (.status .received)) hdate
  | delete now poId =>
    obtain ⟨po, -, h⟩ := except_bind_ok.mp h
    split at h
    · cases h
    · cases h
      exact fun row => rfl

/-! ### The invariant -/

structure Counted (items : List InventoryItem) (s : Warehouse) : Prop where
  keys : (s.orders.map PurchaseOrder.id).Nodup
  fresh : ∀ po ∈ s.orders, po.id < s.nextOrderId
  stock : StockCounted items s
  lines : ReceivedLines s

/-- A row is written, and the shelves change by what it counts more. -/
theorem Counted.put {new : PurchaseOrder} {shelf : List InventoryItem} {n : ℕ} (h : Counted items s)
    (hrow : s.order row.id = some row) (hid : new.id = row.id)
    (hshelf : ∀ itemId, rowOf InventoryItem.id shelf itemId = (s.item itemId).map fun item =>
      { item with quantity := item.quantity + (new.counts itemId - row.counts itemId) })
    (hlines : ∀ line ∈ new.lines, line.quantityReceived = line.quantityOrdered → 0 < line.quantityReceived →
      new.status = .received) :
    Counted items { s with orders := putRow PurchaseOrder.id s.orders new, items := shelf, nextLineId := n } where
  keys := by
    rw [keys_putRow]
    exact h.keys
  fresh := fun po hpo => by
    rcases mem_putRow.mp hpo with ⟨hpo, -⟩ | ⟨rfl, -⟩
    · exact h.fresh po hpo
    · rw [hid]
      exact h.fresh row (mem_of_rowOf hrow)
  stock := fun itemId => by
    have hold : rowOf PurchaseOrder.id s.orders new.id = some row := hid ▸ hrow
    have hcounted := sum_putRow h.keys (PurchaseOrder.counts itemId) hold
    change rowOf InventoryItem.id shelf itemId = _
    rw [hshelf, h.stock itemId, Option.map_map]
    congr 1
    funext item
    simp only [Function.comp_apply, Warehouse.counted] at hcounted ⊢
    rw [hcounted]
    congr 1
    ring
  lines := fun po hpo => by
    rcases mem_putRow.mp hpo with ⟨hpo, -⟩ | ⟨rfl, -⟩
    · exact h.lines po hpo
    · exact hlines

/-- Nothing is counted for an item on the shelves. -/
theorem shelf_unchanged {f : ℕ → ℤ} (hzero : ∀ itemId, (s.item itemId).isSome = true → f itemId = 0) (itemId : ℕ) :
    s.item itemId = (s.item itemId).map fun item => { item with quantity := item.quantity + f itemId } := by
  cases hitem : s.item itemId with
  | none => rfl
  | some item =>
    rw [hzero itemId (by rw [hitem]; rfl)]
    simp

theorem counts_of_not_received (h : po.status ≠ .received) : po.counts itemId = 0 := if_neg h

theorem numbered_unreceived {firstId : ℕ} (h : ∀ line ∈ lines, line.quantityReceived = 0) :
    ∀ line ∈ numbered firstId lines, line.quantityReceived = 0 := by
  induction lines generalizing firstId with
  | nil => exact fun _ => nofun
  | cons first rest ih =>
    intro line hline
    rcases List.mem_cons.mp hline with rfl | hline
    · exact h first List.mem_cons_self
    · exact ih (fun l hl => h l (List.mem_cons_of_mem _ hl)) line hline

theorem Counted.create (h : Counted items s) (hprepared : (PoFlight.create po).Prepared)
    (hfit : po.status = .received → Unstocked s po.lines) : Counted items (s.commit (.create po)) where
  keys := by
    rw [Warehouse.commit, List.map_append, List.map_singleton, List.nodup_append]
    refine ⟨h.keys, List.nodup_singleton _, ?_⟩
    rintro a ha b hb rfl
    obtain ⟨old, hold, rfl⟩ := List.mem_map.mp ha
    exact absurd (List.mem_singleton.mp hb) (h.fresh old hold).ne
  fresh := fun new hnew => by
    rcases List.mem_append.mp hnew with hnew | hnew
    · exact (h.fresh new hnew).trans (Nat.lt_succ_self _)
    · rw [List.mem_singleton.mp hnew]
      exact Nat.lt_succ_self _
  stock := fun itemId => by
    have hnothing : ∀ itemId, (s.item itemId).isSome = true →
        ({ po with id := s.nextOrderId, lines := numbered s.nextLineId po.lines } : PurchaseOrder).counts itemId = 0 :=
        fun itemId hitem => by
      unfold PurchaseOrder.counts
      split
      · rename_i hreceived
        exact (lineCount_numbered _).trans ((hfit hreceived).lineCount_eq_zero hitem)
      · rfl
    change s.item itemId = _
    rw [shelf_unchanged hnothing itemId, h.stock itemId, Option.map_map]
    congr 1
    funext item
    simp [Warehouse.counted, Warehouse.commit, add_assoc]
  lines := fun new hnew => by
    rcases List.mem_append.mp hnew with hnew | hnew
    · exact h.lines new hnew
    · rw [List.mem_singleton.mp hnew]
      intro line hline _ hpos
      exact absurd (numbered_unreceived hprepared line hline) hpos.ne'

theorem Counted.update (h : Counted items s) (hrow : s.order row.id = some row)
    (hprepared : (PoFlight.update read columns lines).Prepared) (hopen : row.status ≠ .received)
    (hfit : .status .received ∈ columns →
      Unstocked s (row.lines.filter (fun line => line.id ∉ lineIds read.lines) ++ lines)) :
    Counted items (s.commitOn row (.update read columns lines)) := by
  have hreceived : (row.setAll columns).status = .received → .status .received ∈ columns := fun hstatus =>
    (setAll_received columns row hstatus).resolve_left hopen
  refine h.put hrow (setAll_id columns row) (shelf_unchanged fun itemId hitem => ?_) fun line hline hfull hpos => ?_
  · rw [counts_of_not_received hopen, sub_zero, PurchaseOrder.counts]
    split
    · rename_i hstatus
      have hcount := (hfit (hreceived hstatus)).lineCount_eq_zero hitem
      rw [lineCount_append] at hcount
      change lineCount (row.relined read s.nextLineId lines) itemId = 0
      rw [PurchaseOrder.relined, lineCount_append, lineCount_numbered]
      exact hcount
    · rfl
  · rcases List.mem_append.mp hline with hline | hline
    · -- a line nobody read was received before
      exact absurd (h.lines row (mem_of_rowOf hrow) line (List.mem_of_mem_filter hline) hfull hpos) hopen
    · exact absurd (numbered_unreceived hprepared line hline) hpos.ne'

theorem Counted.receive (h : Counted items s) (hrow : s.order row.id = some row)
    (hprepared : (PoFlight.receive read columns).Prepared) (hopen : row.status ≠ .received)
    (hlines : row.lines = read.lines) : Counted items (s.commitOn row (.receive read columns)) := by
  unfold Warehouse.commitOn
  dsimp only
  split
  · refine h.put hrow (setAll_id columns row) (fun itemId => ?_) fun _ _ _ _ => hprepared row
    have hcounts : ({ row.setAll columns with lines := row.receivedLines read } : PurchaseOrder).counts itemId =
        lineCount read.lines itemId := by
      rw [PurchaseOrder.counts, if_pos (hprepared row), lineCount_receivedLines, hlines]
    rw [hcounts, counts_of_not_received hopen, sub_zero]
    exact rowOf_receiveStock s.items
  · exact h

theorem Counted.delete (h : Counted items s) (hrow : s.order row.id = some row)
    (hprepared : (PoFlight.delete read columns).Prepared) :
    Counted items (s.commitOn row (.delete read columns)) := by
  have hcounts : ∀ itemId, (row.setAll columns).counts itemId = row.counts itemId := fun itemId => by
    rw [PurchaseOrder.counts, hprepared row, setAll_lines, PurchaseOrder.counts]
  refine h.put hrow (setAll_id columns row) (shelf_unchanged fun itemId _ => ?_) fun line hline hfull hpos => ?_
  · rw [hcounts, sub_self]
  · rw [hprepared row]
    rw [setAll_lines] at hline
    exact h.lines row (mem_of_rowOf hrow) line hline hfull hpos

/-! ### Steps and runs -/

/-- The tables are counted and the calls in flight prepared. -/
structure DeskCounted (items : List InventoryItem) (d : PoDesk) : Prop where
  tables : Counted items d.tables
  inFlight : ∀ flight ∈ d.inFlight, flight.Prepared

theorem commit_of_row {read : PurchaseOrder} (hread : flight.read = some read) (hrow : s.order read.id = some row) :
    s.commit flight = s.commitOn row flight := by
  cases flight with
  | create po => cases hread
  | _ =>
    cases hread
    simp [Warehouse.commit, PoFlight.read, hrow]

theorem commit_of_no_row {read : PurchaseOrder} (hread : flight.read = some read) (hrow : s.order read.id = none) :
    s.commit flight = s := by
  cases flight with
  | create po => cases hread
  | _ =>
    cases hread
    simp [Warehouse.commit, PoFlight.read, hrow]

theorem Counted.commit {d : PoDesk} {i : ℕ} (h : Counted items d.tables) (hflight : d.inFlight[i]? = some flight)
    (hprepared : flight.Prepared) (hfit : KeepsCount d (.commits i)) : Counted items (d.tables.commit flight) := by
  have hfit := hfit flight hflight
  cases flight with
  | create po => exact h.create hprepared hfit
  | update read columns lines =>
    cases hrow : d.tables.order read.id with
    | none => rw [commit_of_no_row rfl hrow]; exact h
    | some row =>
      rw [commit_of_row rfl hrow]
      obtain ⟨hopen, hstocked⟩ := hfit row hrow
      exact h.update (key_of_rowOf hrow ▸ hrow) hprepared hopen hstocked
  | receive read columns =>
    cases hrow : d.tables.order read.id with
    | none => rw [commit_of_no_row rfl hrow]; exact h
    | some row =>
      rw [commit_of_row rfl hrow]
      obtain ⟨hopen, hlines⟩ := hfit row hrow
      exact h.receive (key_of_rowOf hrow ▸ hrow) hprepared hopen hlines
  | delete read columns =>
    cases hrow : d.tables.order read.id with
    | none => rw [commit_of_no_row rfl hrow]; exact h
    | some row =>
      rw [commit_of_row rfl hrow]
      exact h.delete (key_of_rowOf hrow ▸ hrow) hprepared

theorem DeskCounted.step {d : PoDesk} {event : PoEvent} (h : DeskCounted items d) (hfit : KeepsCount d event) :
    DeskCounted items (d.step event) := by
  cases event with
  | reads call =>
    rw [PoDesk.step]
    split
    · rename_i flight hreads
      refine ⟨h.tables, fun other hother => ?_⟩
      rcases List.mem_append.mp hother with hother | hother
      · exact h.inFlight other hother
      · rw [List.mem_singleton.mp hother]
        exact reads_prepared hreads
    · exact h
  | commits i =>
    rw [PoDesk.step]
    split
    · rename_i flight hflight
      have hprepared := h.inFlight flight (List.mem_of_getElem? hflight)
      exact ⟨h.tables.commit hflight hprepared hfit, fun other hother => h.inFlight other (List.mem_of_mem_eraseIdx hother)⟩
    · exact h

theorem counted_opening (items : List InventoryItem) : DeskCounted items (.opening items) where
  tables := {
    keys := List.nodup_nil
    fresh := fun _ => nofun
    stock := fun itemId => by
      change rowOf InventoryItem.id items itemId = _
      cases rowOf InventoryItem.id items itemId with
      | none => rfl
      | some item => simp [Warehouse.counted, PoDesk.opening]
    lines := fun _ => nofun }
  inFlight := fun _ => nofun

/-- In every state of the run. -/
def StockCountsOnce (items : List InventoryItem) (events : List PoEvent) : Prop :=
  ∀ before after, events = before ++ after →
    StockCounted items (PoDesk.run items before).tables ∧ ReceivedLines (PoDesk.run items before).tables

/-- In a run where status received comes with its stock from one receive, and no receive or update commits over what
    another call received or relined since it read, each received order is counted once. -/
theorem stock_counts_received_orders (items : List InventoryItem) (events : List PoEvent)
    (h : Along PoDesk.step KeepsCount (.opening items) events) : StockCountsOnce items events := by
  rintro before after rfl
  have hstep : ∀ (d : PoDesk) (event : PoEvent), DeskCounted items d → KeepsCount d event →
      DeskCounted items (d.step event) := fun d event hd hfit => hd.step hfit
  have hrun : DeskCounted items (PoDesk.run items before) :=
    (along_append.mp h).1.keeps hstep (counted_opening items)
  exact ⟨hrun.tables.stock, hrun.tables.lines⟩

/-! ### Two springs -/

/-- Two springs for 30.00 each. -/
def springLine : POLineIn where
  itemId := .uuid 0
  sku := none
  description := "Spring".toList
  quantityOrdered := 2
  unitCost := 30
  quantityOrdered_le := by norm_num
  unitCost_nonneg := by norm_num

def springOrder : PurchaseOrderIn where
  vendorId := .absent
  vendorName := none
  jobId := .absent
  status := some .sent
  orderDate := none
  expectedDate := none
  notes := none
  tax := 0
  shipping := 0
  lines := [springLine]

/-- Ten springs on the shelf. -/
def springShelf : List InventoryItem := [⟨0, 10⟩]

/-- The order is placed. -/
def springOrdered : List PoEvent := [.reads (.create 0 "office".toList springOrder), .commits 0]

/-- Its row. -/
def springRow : PurchaseOrder where
  id := 0
  poNumber := "PO-000001".toList
  vendorId := none
  vendorName := none
  jobId := none
  status := .sent
  orderDate := 0
  expectedDate := none
  receivedDate := none
  notes := none
  subtotal := 6000
  tax := 0
  shipping := 0
  total := 6000
  createdBy := "office".toList
  deletedAt := none
  lines := [⟨0, some 0, none, "Spring".toList, 2, 0, 3000, 6000⟩]

theorem stock_counts_received_orders_springs :
    StockCountsOnce springShelf (springOrdered ++ [.reads (.receive 5 0), .commits 0]) := by
  refine stock_counts_received_orders _ _ ⟨trivial, fun flight hflight => ?_, trivial, fun flight hflight => ?_, trivial⟩
  · have hcreate : (PoDesk.run springShelf [.reads (.create 0 "office".toList springOrder)]).inFlight[0]? =
        some (.create springRow) := by decide +kernel
    obtain rfl : .create springRow = flight := Option.some.inj (hcreate.symm.trans hflight)
    exact fun hreceived => absurd hreceived (by decide)
  · have hreceive : (PoDesk.run springShelf (springOrdered ++ [.reads (.receive 5 0)])).inFlight[0]? =
        some (.receive springRow [.status .received, .receivedDate (some 5)]) := by decide +kernel
    have hrow : (PoDesk.run springShelf (springOrdered ++ [.reads (.receive 5 0)])).tables.order 0 = some springRow := by
      decide +kernel
    obtain rfl : .receive springRow [.status .received, .receivedDate (some 5)] = flight :=
      Option.some.inj (hreceive.symm.trans hflight)
    intro row hrow'
    obtain rfl : springRow = row := Option.some.inj (hrow.symm.trans hrow')
    exact ⟨by decide, rfl⟩

/-- Two receives of the order read it before either commits. -/
def receivedTwice : List PoEvent :=
  springOrdered ++ [.reads (.receive 5 0), .reads (.receive 5 0), .commits 0, .commits 0]

/-- Two springs are ordered and four are added. -/
theorem stock_counts_order_twice : ¬ ∀ items events, StockCountsOnce items events := by
  intro h
  have hstock := (h springShelf receivedTwice receivedTwice [] (by simp)).1 0
  have hheld : ((PoDesk.run springShelf receivedTwice).tables.item 0).map (·.quantity) = some 14 := by decide +kernel
  have hcounted : (PoDesk.run springShelf receivedTwice).tables.counted 0 = 2 := by decide +kernel
  rw [hstock, hcounted] at hheld
  simp [springShelf, rowOf] at hheld

end Gdx.Purchasing
