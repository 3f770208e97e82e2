import GdxDispatch.Lib.Keyed
import GdxDispatch.Billing.LaborBook

/-! Purchase orders and the stock they fill (`routers/purchase_orders.py`, `modules/inventory/stock.py`).

    A call reads its order and commits at its end. A commit writes the columns that differ from what was read, deletes
    the line rows that were read and inserts the new ones, and adds to the stock as it finds it. -/

namespace Gdx.Purchasing

open Lib

inductive PoStatus where
  | draft | sent | received | cancelled
  deriving DecidableEq, Repr

structure PurchaseOrderLine where
  id : ℕ
  itemId : Option ℕ
  sku : Option Text
  description : Text
  quantityOrdered : ℕ
  quantityReceived : ℕ
  unitCost : ℤ
  lineTotal : ℤ
  deriving DecidableEq, Repr

/-- An order with its line rows. -/
structure PurchaseOrder where
  id : ℕ
  poNumber : Text
  vendorId : Option ℕ
  vendorName : Option Text
  jobId : Option ℕ
  status : PoStatus
  orderDate : ℤ
  expectedDate : Option ℤ
  receivedDate : Option ℤ
  notes : Option Text
  subtotal : ℤ
  tax : ℤ
  shipping : ℤ
  total : ℤ
  createdBy : Text
  deletedAt : Option ℤ
  lines : List PurchaseOrderLine
  deriving DecidableEq

structure InventoryItem where
  id : ℕ
  quantity : ℤ
  deriving DecidableEq, Repr

structure Warehouse where
  orders : List PurchaseOrder
  items : List InventoryItem
  nextOrderId : ℕ
  nextLineId : ℕ
  deriving DecidableEq

def Warehouse.order (s : Warehouse) (id : ℕ) : Option PurchaseOrder := rowOf PurchaseOrder.id s.orders id

def Warehouse.item (s : Warehouse) (id : ℕ) : Option InventoryItem := rowOf InventoryItem.id s.items id

inductive PoRefusal where
  | notFound
  | notEditable (status : PoStatus)
  | alreadyReceived
  | receivedStays
  /-- An exception nothing catches. -/
  | serverError
  deriving DecidableEq

/-! ### Stock -/

/-- The row is locked and read again before the delta is added. -/
def applyStockDelta (items : List InventoryItem) (itemId : ℕ) (delta : ℤ) (clampNonneg : Bool) : List InventoryItem :=
  items.map fun item =>
    if item.id = itemId then
      { item with quantity := if clampNonneg then max 0 (item.quantity + delta) else item.quantity + delta }
    else item

/-- The delta of each line that names an item; a delta for an item that is not there changes nothing. -/
def receiveStock (items : List InventoryItem) (lines : List PurchaseOrderLine) : List InventoryItem :=
  lines.foldl (fun items line =>
    match line.itemId with
    | none => items
    | some itemId => applyStockDelta items itemId line.quantityOrdered false) items

/-! ### Requests -/

/-- An id as sent: absent or empty, not a UUID, or a UUID. -/
inductive UuidIn where
  | absent | malformed
  | uuid (id : ℕ)
  deriving DecidableEq, Repr

/-- `UUID(value) if value else None`. -/
def UuidIn.parse : UuidIn → Except PoRefusal (Option ℕ)
  | .absent => .ok none
  | .malformed => .error .serverError
  | .uuid id => .ok (some id)

structure POLineIn where
  itemId : UuidIn
  sku : Option Text
  description : Text
  quantityOrdered : ℕ
  unitCost : ℚ
  quantityOrdered_le : quantityOrdered ≤ 1000000
  unitCost_nonneg : 0 ≤ unitCost

structure PurchaseOrderIn where
  vendorId : UuidIn
  vendorName : Option Text
  jobId : UuidIn
  /-- `none` for a text that is no status. -/
  status : Option PoStatus
  orderDate : Option ℤ
  expectedDate : Option ℤ
  notes : Option Text
  tax : ℚ
  shipping : ℚ
  lines : List POLineIn

/-- What the line costs. -/
def POLineIn.cost (line : POLineIn) : ℚ := line.unitCost * line.quantityOrdered

/-- The row of a line; its id is given when it is committed. -/
def POLineIn.newLine (line : POLineIn) : Except PoRefusal PurchaseOrderLine := do
  let itemId ← line.itemId.parse
  return {
    id := 0
    itemId
    sku := line.sku
    description := line.description
    quantityOrdered := line.quantityOrdered
    quantityReceived := 0
    unitCost := moneyCents line.unitCost
    lineTotal := moneyCents line.cost }

def newLines : List POLineIn → Except PoRefusal (List PurchaseOrderLine)
  | [] => .ok []
  | line :: lines => do
    let row ← line.newLine
    let rows ← newLines lines
    return row :: rows

/-- `_calculate_totals`: the subtotal, and the total with tax and shipping. -/
def PurchaseOrderIn.subtotal (payload : PurchaseOrderIn) : ℚ := (payload.lines.map (·.cost)).sum

def PurchaseOrderIn.total (payload : PurchaseOrderIn) : ℚ := payload.subtotal + payload.tax + payload.shipping

/-! ### Commits -/

/-- A column of an order, with what it is set to. -/
inductive PoColumn where
  | vendorId (v : Option ℕ)
  | vendorName (v : Option Text)
  | jobId (v : Option ℕ)
  | status (v : PoStatus)
  | orderDate (v : ℤ)
  | expectedDate (v : Option ℤ)
  | receivedDate (v : Option ℤ)
  | notes (v : Option Text)
  | subtotal (v : ℤ)
  | tax (v : ℤ)
  | shipping (v : ℤ)
  | total (v : ℤ)
  | deletedAt (v : Option ℤ)
  deriving DecidableEq

def PoColumn.set (po : PurchaseOrder) : PoColumn → PurchaseOrder
  | .vendorId v => { po with vendorId := v }
  | .vendorName v => { po with vendorName := v }
  | .jobId v => { po with jobId := v }
  | .status v => { po with status := v }
  | .orderDate v => { po with orderDate := v }
  | .expectedDate v => { po with expectedDate := v }
  | .receivedDate v => { po with receivedDate := v }
  | .notes v => { po with notes := v }
  | .subtotal v => { po with subtotal := v }
  | .tax v => { po with tax := v }
  | .shipping v => { po with shipping := v }
  | .total v => { po with total := v }
  | .deletedAt v => { po with deletedAt := v }

def PurchaseOrder.setAll (po : PurchaseOrder) (columns : List PoColumn) : PurchaseOrder := columns.foldl PoColumn.set po

/-- A column is written where it differs from what was read. -/
def column {α : Type} [DecidableEq α] (make : α → PoColumn) (stored new : α) : List PoColumn :=
  if new = stored then [] else [make new]

/-- A call between its read and its commit. -/
inductive PoFlight where
  | create (po : PurchaseOrder)
  | update (read : PurchaseOrder) (columns : List PoColumn) (lines : List PurchaseOrderLine)
  | receive (read : PurchaseOrder) (columns : List PoColumn)
  | delete (read : PurchaseOrder) (columns : List PoColumn)
  deriving DecidableEq

/-- The rows inserted for new lines. -/
def numbered (firstId : ℕ) : List PurchaseOrderLine → List PurchaseOrderLine
  | [] => []
  | line :: lines => { line with id := firstId } :: numbered (firstId + 1) lines

def lineIds (lines : List PurchaseOrderLine) : List ℕ := lines.map (·.id)

/-- `lines.clear()` and the new ones: rows nobody read stay. -/
def PurchaseOrder.relined (row read : PurchaseOrder) (firstId : ℕ) (lines : List PurchaseOrderLine) :
    List PurchaseOrderLine :=
  row.lines.filter (fun line => line.id ∉ lineIds read.lines) ++ numbered firstId lines

/-- The lines whose received quantity a receive writes. -/
def PurchaseOrder.toReceive (read : PurchaseOrder) : List PurchaseOrderLine :=
  read.lines.filter fun line => line.quantityReceived ≠ line.quantityOrdered

/-- The received quantities written on the rows that were read. -/
def PurchaseOrder.receivedLines (row read : PurchaseOrder) : List PurchaseOrderLine :=
  row.lines.map fun line =>
    match read.toReceive.find? (·.id = line.id) with
    | none => line
    | some was => { line with quantityReceived := was.quantityOrdered }

/-- A commit on the order it read. A receive fails when a line it has to write is gone. -/
def Warehouse.commitOn (s : Warehouse) (row : PurchaseOrder) : PoFlight → Warehouse
  | .create _ => s
  | .update read columns lines =>
    { s with
      orders := putRow PurchaseOrder.id s.orders
        { row.setAll columns with lines := row.relined read s.nextLineId lines }
      nextLineId := s.nextLineId + lines.length }
  | .receive read columns =>
    if ∀ line ∈ read.toReceive, line.id ∈ lineIds row.lines then
      { s with
        orders := putRow PurchaseOrder.id s.orders { row.setAll columns with lines := row.receivedLines read }
        items := receiveStock s.items read.lines }
    else s
  | .delete _ columns => { s with orders := putRow PurchaseOrder.id s.orders (row.setAll columns) }

/-- The order a call in flight has read. -/
def PoFlight.read : PoFlight → Option PurchaseOrder
  | .create _ => none
  | .update read _ _ => some read
  | .receive read _ => some read
  | .delete read _ => some read

def Warehouse.commit (s : Warehouse) : PoFlight → Warehouse
  | .create po =>
    { s with
      orders := s.orders ++ [{ po with id := s.nextOrderId, lines := numbered s.nextLineId po.lines }]
      nextOrderId := s.nextOrderId + 1
      nextLineId := s.nextLineId + po.lines.length }
  | flight =>
    match flight.read.bind fun read => s.order read.id with
    | none => s
    | some row => s.commitOn row flight

/-! ### The routes -/

/-- `PO-000001`. -/
def poNumberOf (n : ℕ) : Text := "PO-".toList ++ List.replicate (6 - (numeral n).length) '0' ++ numeral n

def createPo (s : Warehouse) (today : ℤ) (actor : Text) (payload : PurchaseOrderIn) : Except PoRefusal PoFlight := do
  let vendorId ← payload.vendorId.parse
  let lines ← newLines payload.lines
  return .create {
    id := 0
    poNumber := poNumberOf (s.orders.length + 1)
    vendorId
    vendorName := payload.vendorName
    jobId := match payload.jobId with
      | .uuid id => some id
      | _ => none
    status := payload.status.getD .draft
    orderDate := payload.orderDate.getD today
    expectedDate := payload.expectedDate
    receivedDate := none
    notes := payload.notes
    subtotal := moneyCents payload.subtotal
    tax := moneyCents payload.tax
    shipping := moneyCents payload.shipping
    total := moneyCents payload.total
    createdBy := actor
    deletedAt := none
    lines }

/-- `db.get` and the check behind it. -/
def liveOrder (s : Warehouse) (poId : ℕ) : Except PoRefusal PurchaseOrder :=
  match (s.order poId).filter (·.deletedAt.isNone) with
  | none => .error .notFound
  | some po => .ok po

/-- The columns an edit writes. A malformed id leaves the link; no job clears it. -/
def PurchaseOrderIn.columns (payload : PurchaseOrderIn) (po : PurchaseOrder) : List PoColumn :=
  column .vendorId po.vendorId (match payload.vendorId with
    | .uuid id => some id
    | _ => po.vendorId) ++
  column .vendorName po.vendorName (payload.vendorName.or po.vendorName) ++
  column .jobId po.jobId (match payload.jobId with
    | .uuid id => some id
    | .malformed => po.jobId
    | .absent => none) ++
  column .status po.status (payload.status.getD po.status) ++
  column .orderDate po.orderDate (payload.orderDate.getD po.orderDate) ++
  column .expectedDate po.expectedDate (payload.expectedDate.or po.expectedDate) ++
  column .notes po.notes (payload.notes.or po.notes) ++
  column .subtotal po.subtotal (moneyCents payload.subtotal) ++
  column .tax po.tax (moneyCents payload.tax) ++
  column .shipping po.shipping (moneyCents payload.shipping) ++
  column .total po.total (moneyCents payload.total)

def updatePo (s : Warehouse) (poId : ℕ) (payload : PurchaseOrderIn) : Except PoRefusal PoFlight := do
  let po ← liveOrder s poId
  if po.status = .received ∨ po.status = .cancelled then .error (.notEditable po.status)
  else do
    let lines ← newLines payload.lines
    return .update po (payload.columns po) lines

def receivePo (s : Warehouse) (today : ℤ) (poId : ℕ) : Except PoRefusal PoFlight := do
  let po ← liveOrder s poId
  if po.status = .received then .error .alreadyReceived
  else return .receive po (.status .received :: column .receivedDate po.receivedDate (some today))

def deletePo (s : Warehouse) (now : ℤ) (poId : ℕ) : Except PoRefusal PoFlight := do
  let po ← liveOrder s poId
  if po.status = .received then .error .receivedStays
  else return .delete po [.deletedAt (some now)]

/-! ### Calls in flight -/

inductive PoCall where
  | create (today : ℤ) (actor : Text) (payload : PurchaseOrderIn)
  | update (poId : ℕ) (payload : PurchaseOrderIn)
  | receive (today : ℤ) (poId : ℕ)
  | delete (now : ℤ) (poId : ℕ)

def Warehouse.reads (s : Warehouse) : PoCall → Except PoRefusal PoFlight
  | .create today actor payload => createPo s today actor payload
  | .update poId payload => updatePo s poId payload
  | .receive today poId => receivePo s today poId
  | .delete now poId => deletePo s now poId

/-- The tables and the calls that have read and not yet committed. -/
structure PoDesk where
  tables : Warehouse
  inFlight : List PoFlight

/-- A call reads, or a call in flight commits. -/
inductive PoEvent where
  | reads (call : PoCall)
  | commits (i : ℕ)

def PoDesk.step (d : PoDesk) : PoEvent → PoDesk
  | .reads call =>
    match d.tables.reads call with
    | .ok flight => { d with inFlight := d.inFlight ++ [flight] }
    | .error _ => d
  | .commits i =>
    match d.inFlight[i]? with
    | some flight => { tables := d.tables.commit flight, inFlight := d.inFlight.eraseIdx i }
    | none => d

/-- Items on the shelves and no order yet. -/
def PoDesk.opening (items : List InventoryItem) : PoDesk := ⟨⟨[], items, 0, 0⟩, []⟩

def PoDesk.run (items : List InventoryItem) (events : List PoEvent) : PoDesk := events.foldl PoDesk.step (.opening items)

end Gdx.Purchasing
