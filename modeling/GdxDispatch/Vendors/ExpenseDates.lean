import GdxDispatch.Vendors.ExpenseLedger

/-! A bill's expenses follow its settlement.

    The journal reflects every expense of the desk, and every expense reached from a line of a dated bill is dated as
    the bill's payments say. Each call moves the two together: a new expense is dated and posted, a payment re-dates and
    reposts, a reversal takes the expense of its line off. -/

namespace Gdx
open Lib

variable {H : ContentHash} {base : ℕ} {desk desk' : BillDesk}

/-! ### The expenses of the desk -/

/-- The sources of the expenses made since. -/
def MadeSince (base : ℕ) (st sid : Text) : Prop := st = "expense".toList ∧ ∃ id, base ≤ id ∧ sid = str id

theorem MadeSince.of_le {id : ℕ} (h : base ≤ id) : MadeSince base "expense".toList (str id) := ⟨rfl, id, h, rfl⟩

/-- The journal holds of each expense what belongs there, and nothing of an expense to come. -/
structure ExpensesOk (H : ContentHash) (base : ℕ) (desk : BillDesk) : Prop where
  tracked : Tracked H (MadeSince base) desk.ledger
  nodup : (desk.expenses.map (·.id)).Nodup
  ids : ∀ x ∈ desk.expenses, x.id < desk.nextId
  base_le : base ≤ desk.nextId
  fresh : ∀ id, desk.nextId ≤ id → desk.ledger.expenseLive id = ∅
  rows : ∀ x ∈ desk.expenses, base ≤ x.id →
    x.lines = [] ∧ x.companyId = desk.company ∧ Reflects desk.settings desk.ledger x.toExpense

theorem Reflects.congr {R : Rows} {L L' : Ledger} {x : Expense} (h : Reflects R L x)
    (hlive : L'.expenseLive x.id = L.expenseLive x.id) : Reflects R L' x := by
  constructor
  · intro hon
    obtain ⟨p, hp, hrest⟩ := h.booked hon
    exact ⟨p, hlive.trans hp, hrest⟩
  · intro hoff
    exact hlive.trans (h.unbooked hoff)

theorem ExpensesOk.eq_of_id (h : ExpensesOk H base desk) {x y : BillExpense} (hx : x ∈ desk.expenses)
    (hy : y ∈ desk.expenses) (hid : x.id = y.id) : x = y := List.inj_on_of_nodup_map h.nodup hx hy hid

theorem ExpensesOk.expense (h : ExpensesOk H base desk) {x : BillExpense} (hx : x ∈ desk.expenses) :
    desk.expense x.id = some x := by
  cases hfind : desk.expense x.id with
  | none => exact absurd (List.find?_eq_none.mp hfind x hx) (by simp)
  | some y =>
    have hid : y.id = x.id := by simpa using List.find?_some hfind
    rw [h.eq_of_id (List.mem_of_find?_eq_some hfind) hx hid]

theorem viaLedger_ok {α : Type} {m : LedgerM α} {L L' : Ledger} {a : α} :
    viaLedger m L = .ok (a, L') ↔ m L = .ok a L' := by
  unfold viaLedger
  cases m L with
  | ok b M => simp
  | error e M => simp

/-- Changes to an expense that keep its id, its company and its lines. -/
structure KeepsKey (f : BillExpense → BillExpense) : Prop where
  id : ∀ x, (f x).id = x.id
  company : ∀ x, (f x).companyId = x.companyId
  lines : ∀ x, (f x).lines = x.lines

/-- One expense changed, and the journal with it. -/
theorem ExpensesOk.changed {x : BillExpense} {L : Ledger} {B : Finset Posting} {f : BillExpense → BillExpense}
    (h : ExpensesOk H base desk) (hx : x ∈ desk.expenses) (hf : KeepsKey f)
    (hstep : ExpenseStep H (MadeSince base) desk.ledger L x.id B)
    (hbook : Reflects desk.settings L (f x).toExpense) :
    ExpensesOk H base { desk with
      ledger := L, expenses := desk.expenses.map fun y => if y.id = x.id then f y else y } := by
  have hid : ∀ y : BillExpense, (if y.id = x.id then f y else y).id = y.id := by
    intro y
    split
    · exact hf.id y
    · rfl
  refine ⟨hstep.tracked, ?_, ?_, h.base_le, ?_, ?_⟩
  · have hmap : (desk.expenses.map fun y => if y.id = x.id then f y else y).map (·.id) = desk.expenses.map (·.id) := by
      rw [List.map_map]
      exact List.map_congr_left fun y _ => hid y
    exact hmap ▸ h.nodup
  · intro y hy
    obtain ⟨z, hz, rfl⟩ := List.mem_map.mp hy
    rw [hid]
    exact h.ids z hz
  · intro id hle
    have hne : id ≠ x.id := by
      have := h.ids x hx
      have hle : desk.nextId ≤ id := hle
      omega
    exact (hstep.others id hne).trans (h.fresh id hle)
  · intro y hy hbase
    obtain ⟨z, hz, rfl⟩ := List.mem_map.mp hy
    by_cases hzx : z.id = x.id
    · obtain rfl := h.eq_of_id hz hx hzx
      rw [hid] at hbase
      obtain ⟨hlines, hcompany, -⟩ := h.rows z hz hbase
      simp only [if_true]
      exact ⟨(hf.lines z).trans hlines, (hf.company z).trans hcompany, hbook⟩
    · simp only [if_neg hzx] at hbase ⊢
      obtain ⟨hlines, hcompany, hreflects⟩ := h.rows z hz hbase
      exact ⟨hlines, hcompany, hreflects.congr (hstep.others _ hzx)⟩

/-! ### A new expense -/

/-- The desk with one more expense of the line, on the books. -/
structure ExpenseRecorded (H : ContentHash) (base : ℕ) (today : ℤ) (bill : VendorInvoice) (line : VendorInvoiceLine)
    (desk desk' : BillDesk) : Prop where
  ok : ExpensesOk H base desk'
  made : ∃ x : BillExpense, x.id = desk.nextId ∧ x.date = desk.effectiveExpenseDate today bill ∧ x.deleted = false ∧
    x.source = EXPENSE_SOURCE ∧ x.amount = line.lineTotal ∧ x.companyId = desk.company ∧
    ∃ L, desk' = { desk with expenses := desk.expenses ++ [x], ledger := L, nextId := desk.nextId + 1 }

theorem recordExpense_ok {today : ℤ} {bill : VendorInvoice} {line : VendorInvoiceLine} {category : Text} {job : Option ℕ}
    (hfree : H.CollisionFree) (hok : ExpensesOk H base desk)
    (h : desk.recordExpense H today bill line category job = .ok desk') : ExpenseRecorded H base today bill line desk desk' := by
  unfold BillDesk.recordExpense at h
  obtain ⟨⟨u, L⟩, hpost, h⟩ := except_bind_ok.mp h
  cases h
  rw [viaLedger_ok] at hpost
  obtain ⟨hstep, hbook⟩ := postExpenseToLedger_ok hfree hok.tracked (MadeSince.of_le hok.base_le)
    (hok.fresh _ le_rfl) rfl rfl hpost
  refine ⟨⟨hstep.tracked, ?_, ?_, ?_, ?_, ?_⟩, _, rfl, rfl, rfl, rfl, rfl, rfl, L, rfl⟩
  · show ((desk.expenses ++ [_]).map _).Nodup
    rw [List.map_append]
    refine List.nodup_append.mpr ⟨hok.nodup, List.nodup_singleton _, ?_⟩
    intro i hi j hj
    obtain ⟨x, hx, rfl⟩ := List.mem_map.mp hi
    rw [List.map_singleton, List.mem_singleton] at hj
    have := hok.ids x hx
    rw [hj]
    exact Nat.ne_of_lt this
  · intro x hx
    rcases List.mem_append.mp hx with hx | hx
    · exact Nat.lt_succ_of_lt (hok.ids x hx)
    · rw [List.mem_singleton.mp hx]
      exact Nat.lt_succ_self _
  · exact Nat.le_succ_of_le hok.base_le
  · intro id hid
    have hid : desk.nextId + 1 ≤ id := hid
    exact (hstep.others id (by intro heq; have : id = desk.nextId := heq; omega)).trans (hok.fresh id (by omega))
  · intro x hx hbase
    rcases List.mem_append.mp hx with hx | hx
    · obtain ⟨hlines, hcompany, hreflects⟩ := hok.rows x hx hbase
      refine ⟨hlines, hcompany, hreflects.congr (hstep.others _ ?_)⟩
      exact Nat.ne_of_lt (hok.ids x hx)
    · rw [List.mem_singleton.mp hx]
      exact ⟨rfl, rfl, hbook⟩

/-! ### Re-dating -/

/-- An expense that payments re-date. -/
def BillDesk.Live (desk : BillDesk) (base id : ℕ) : Prop :=
  base ≤ id ∧ ∃ x ∈ desk.expenses, x.id = id ∧ x.deleted = false ∧ x.source = EXPENSE_SOURCE

def redate (ids : List ℕ) (target : ℤ) (y : BillExpense) : BillExpense :=
  if y.id ∈ ids then { y with date := target } else y

@[simp] theorem redate_id (ids : List ℕ) (target : ℤ) (y : BillExpense) : (redate ids target y).id = y.id := by
  unfold redate
  split <;> rfl

@[simp] theorem redate_deleted (ids : List ℕ) (target : ℤ) (y : BillExpense) :
    (redate ids target y).deleted = y.deleted := by
  unfold redate
  split <;> rfl

@[simp] theorem redate_source (ids : List ℕ) (target : ℤ) (y : BillExpense) :
    (redate ids target y).source = y.source := by
  unfold redate
  split <;> rfl

theorem syncExpense_ok {today target : ℤ} {id : ℕ} (hfree : H.CollisionFree) (hok : ExpensesOk H base desk)
    (hlive : desk.Live base id) (h : desk.syncExpense H today target id = .ok desk') :
    ExpensesOk H base desk' ∧ ∃ L, desk' = { desk with ledger := L, expenses := desk.expenses.map (redate [id] target) } := by
  obtain ⟨hbase, x, hx, rfl, hdeleted, hsource⟩ := hlive
  have hmap : (desk.expenses.map (redate [x.id] target)) =
      desk.expenses.map fun y => if y.id = x.id then { y with date := target } else y := by
    refine List.map_congr_left fun y _ => ?_
    unfold redate
    simp only [List.mem_singleton]
  rw [hmap]
  unfold BillDesk.syncExpense at h
  rw [hok.expense hx] at h
  dsimp only at h
  rw [if_neg (by simp [hdeleted])] at h
  split at h
  · rename_i hskip
    have hdate : x.date = target := hskip.resolve_left fun hother => hother hsource
    cases h
    have hsame : (desk.expenses.map fun y => if y.id = x.id then { y with date := target } else y) = desk.expenses := by
      conv_rhs => rw [← List.map_id desk.expenses]
      refine List.map_congr_left fun y hy => ?_
      split
      · rename_i hid
        rw [hok.eq_of_id hy hx hid, ← hdate]
        rfl
      · rfl
    refine ⟨hok, desk.ledger, ?_⟩
    rw [hsame]
  · rename_i hskip
    have hdate : x.date ≠ target := fun hdate => hskip (.inr hdate)
    obtain ⟨⟨u, L⟩, hpost, h⟩ := except_bind_ok.mp h
    cases h
    rw [viaLedger_ok] at hpost
    obtain ⟨hlines, -, hreflects⟩ := hok.rows x hx hbase
    obtain ⟨hstep, hbook⟩ := repostRedated_ok hfree hok.tracked (MadeSince.of_le hbase) hdeleted hlines hdate hreflects
      hpost
    exact ⟨hok.changed hx ⟨fun _ => rfl, fun _ => rfl, fun _ => rfl⟩ hstep hbook, L, rfl⟩

theorem redate_redate (id : ℕ) (ids : List ℕ) (target : ℤ) (y : BillExpense) :
    redate ids target (redate [id] target y) = redate (id :: ids) target y := by
  unfold redate
  by_cases h1 : y.id = id <;> by_cases h2 : y.id ∈ ids <;> simp [h1, h2]

theorem syncAll_ok {today target : ℤ} {ids : List ℕ} (hfree : H.CollisionFree) (hok : ExpensesOk H base desk)
    (hlive : ∀ id ∈ ids, desk.Live base id) (h : ids.foldlM (BillDesk.syncExpense H today target) desk = .ok desk') :
    ExpensesOk H base desk' ∧ ∃ L, desk' = { desk with ledger := L, expenses := desk.expenses.map (redate ids target) } := by
  induction ids generalizing desk with
  | nil =>
    obtain rfl : desk = desk' := Except.ok.inj h
    refine ⟨hok, desk.ledger, ?_⟩
    have hsame : desk.expenses.map (redate [] target) = desk.expenses := by
      conv_rhs => rw [← List.map_id desk.expenses]
      exact List.map_congr_left fun y _ => by simp [redate]
    rw [hsame]
  | cons id ids ih =>
    rw [List.foldlM_cons] at h
    obtain ⟨mid, hmid, h⟩ := except_bind_ok.mp h
    obtain ⟨hokmid, L, rfl⟩ := syncExpense_ok hfree hok (hlive id List.mem_cons_self) hmid
    have hlive' : ∀ id' ∈ ids, BillDesk.Live
        { desk with ledger := L, expenses := desk.expenses.map (redate [id] target) } base id' := by
      intro id' hid'
      obtain ⟨hbase, x, hx, rfl, hdeleted, hsource⟩ := hlive id' (List.mem_cons_of_mem _ hid')
      exact ⟨hbase, _, List.mem_map.mpr ⟨x, hx, rfl⟩, redate_id .., (redate_deleted ..).trans hdeleted,
        (redate_source ..).trans hsource⟩
    obtain ⟨hok', L', rfl⟩ := ih hokmid hlive' h
    refine ⟨hok', L', ?_⟩
    simp only [List.map_map]
    congr 1
    exact List.map_congr_left fun y _ => redate_redate id ids target y

/-! ### Dropping -/

def dropExpenseIf (id : Option ℕ) (y : BillExpense) : BillExpense := if id = some y.id then { y with deleted := true } else y

theorem dropExpense_ok {today : ℤ} {actor : Option Text} {line : VendorInvoiceLine} (hok : ExpensesOk H base desk)
    (hbase : ∀ id, line.expenseId = some id → base ≤ id) (h : desk.dropExpense today actor line = .ok desk') :
    ExpensesOk H base desk' ∧
      ∃ L, desk' = { desk with ledger := L, expenses := desk.expenses.map (dropExpenseIf line.expenseId) } := by
  have hsame : (∀ y ∈ desk.expenses, line.expenseId = some y.id → y.deleted = true) → desk' = desk →
      ExpensesOk H base desk' ∧
        ∃ L, desk' = { desk with ledger := L, expenses := desk.expenses.map (dropExpenseIf line.expenseId) } := by
    rintro hall rfl
    refine ⟨hok, desk'.ledger, ?_⟩
    have hmap : desk'.expenses.map (dropExpenseIf line.expenseId) = desk'.expenses := by
      conv_rhs => rw [← List.map_id desk'.expenses]
      refine List.map_congr_left fun y hy => ?_
      unfold dropExpenseIf
      split
      · rename_i hid
        rw [← hall y hy hid]
        rfl
      · rfl
    rw [hmap]
  unfold BillDesk.dropExpense at h
  split at h
  · rename_i hnone
    cases h
    refine hsame ?_ rfl
    intro y hy hid
    rw [hid, Option.bind_some, hok.expense hy] at hnone
    cases hnone
  · rename_i x hfound
    obtain ⟨id, hid, hx⟩ := Option.bind_eq_some_iff.mp hfound
    have hxid : x.id = id := by simpa using List.find?_some hx
    have hxmem := List.mem_of_find?_eq_some hx
    subst hxid
    split at h
    · rename_i hdeleted
      cases h
      refine hsame ?_ rfl
      intro y hy hyid
      rw [hid, Option.some.injEq] at hyid
      rw [← hok.eq_of_id hxmem hy hyid]
      exact hdeleted
    · obtain ⟨⟨u, L⟩, hdrop, h⟩ := except_bind_ok.mp h
      cases h
      rw [viaLedger_ok] at hdrop
      have hb := hbase x.id hid
      obtain ⟨-, -, hreflects⟩ := hok.rows x hxmem hb
      have hstep := dropLive_ok hok.tracked (MadeSince.of_le hb) hreflects hdrop
      have hbook : Reflects desk.settings L { x with deleted := true }.toExpense :=
        ⟨fun hon => absurd hon.2.1 (by simp), fun _ => hstep.live⟩
      have hmap : desk.expenses.map (dropExpenseIf line.expenseId) =
          desk.expenses.map fun y => if y.id = x.id then { y with deleted := true } else y := by
        refine List.map_congr_left fun y _ => ?_
        unfold dropExpenseIf
        simp only [hid, Option.some.injEq, eq_comm]
      rw [hmap]
      exact ⟨hok.changed hxmem ⟨fun _ => rfl, fun _ => rfl, fun _ => rfl⟩ hstep hbook, L, rfl⟩

/-! ### The lines and their expenses -/

/-- Each expense made since belongs to one confirmed line, and is dated as its bill's payments say. -/
structure LinesOk (base : ℕ) (desk : BillDesk) : Prop where
  nodup : (desk.lines.map (·.id)).Nodup
  expense : ∀ l ∈ desk.lines, ∀ i, l.expenseId = some i → desk.Live base i
  unconfirmed : ∀ l ∈ desk.lines, l.confirmed = false → l.expenseId = none
  owner : ∀ l ∈ desk.lines, ∀ l' ∈ desk.lines, ∀ i, l.expenseId = some i → l'.expenseId = some i → l = l'
  reached : ∀ x ∈ desk.expenses, base ≤ x.id → x.deleted = false → ∃ l ∈ desk.lines, l.expenseId = some x.id
  dates : ∀ l ∈ desk.lines, ∀ x ∈ desk.expenses, l.expenseId = some x.id →
    ∀ bill, desk.bill l.vendorInvoiceId = some bill → bill.invoiceDate.isSome →
    ∀ today, x.date = desk.effectiveExpenseDate today bill

theorem LinesOk.eq_of_id (h : LinesOk base desk) {l l' : VendorInvoiceLine} (hl : l ∈ desk.lines) (hl' : l' ∈ desk.lines)
    (hid : l.id = l'.id) : l = l' := List.inj_on_of_nodup_map h.nodup hl hl' hid

/-- A change of one line that keeps its id and its bill. -/
structure KeepsLine (g : VendorInvoiceLine → VendorInvoiceLine) : Prop where
  id : ∀ l, (g l).id = l.id
  bill : ∀ l, (g l).vendorInvoiceId = l.vendorInvoiceId

theorem setLine_nodup {id : ℕ} {g : VendorInvoiceLine → VendorInvoiceLine} (hg : KeepsLine g)
    (h : (desk.lines.map (·.id)).Nodup) :
    ((desk.lines.map fun l => if l.id = id then g l else l).map (·.id)).Nodup := by
  have hmap : (desk.lines.map fun l => if l.id = id then g l else l).map (·.id) = desk.lines.map (·.id) := by
    rw [List.map_map]
    refine List.map_congr_left fun l _ => ?_
    show (if l.id = id then g l else l).id = l.id
    split
    · exact hg.id l
    · rfl
  exact hmap ▸ h

/-- The tables that settlement is read from. -/
structure SameSettlement (desk desk' : BillDesk) : Prop where
  bills : desk'.bills = desk.bills
  payments : desk'.payments = desk.payments

theorem SameSettlement.bill (h : SameSettlement desk desk') (id : ℕ) : desk'.bill id = desk.bill id := by
  unfold BillDesk.bill
  rw [h.bills]

theorem SameSettlement.date (h : SameSettlement desk desk') (today : ℤ) (bill : VendorInvoice) :
    desk'.effectiveExpenseDate today bill = desk.effectiveExpenseDate today bill := by
  unfold BillDesk.effectiveExpenseDate BillDesk.settledDate BillDesk.livePayments
  rw [h.payments]

section OneLine
variable {line : VendorInvoiceLine} {g : VendorInvoiceLine → VendorInvoiceLine} (h : LinesOk base desk)
  (hline : line ∈ desk.lines) (hg : KeepsLine g) (hsame : SameSettlement desk desk')
  (hlines : desk'.lines = desk.lines.map fun l => if l.id = line.id then g l else l)

include h hline hlines

/-- The changed line, and the others as they were. -/
theorem LinesOk.mem_changed {l : VendorInvoiceLine} :
    l ∈ desk'.lines ↔ l = g line ∨ l ∈ desk.lines ∧ l ≠ line := by
  rw [hlines, List.mem_map]
  constructor
  · rintro ⟨k, hk, rfl⟩
    by_cases hid : k.id = line.id
    · exact .inl (by rw [if_pos hid, h.eq_of_id hk hline hid])
    · rw [if_neg hid]
      exact .inr ⟨hk, fun heq => hid (heq ▸ rfl)⟩
  · rintro (rfl | ⟨hk, hne⟩)
    · exact ⟨line, hline, if_pos rfl⟩
    · exact ⟨l, hk, if_neg fun hid => hne (h.eq_of_id hk hline hid)⟩

include hg hsame

/-- A line is confirmed without an expense. -/
theorem LinesOk.rerouted (hexpense : (g line).expenseId = line.expenseId) (hconfirmed : (g line).confirmed = true)
    (hexpenses : desk'.expenses = desk.expenses) : LinesOk base desk' := by
  -- the line it was has the same expense and the same bill
  have hold : ∀ l ∈ desk'.lines, ∃ k ∈ desk.lines, k.expenseId = l.expenseId ∧ k.vendorInvoiceId = l.vendorInvoiceId ∧
      (l = g line ∧ k = line ∨ l = k ∧ k ≠ line) := by
    intro l hl
    rcases (h.mem_changed hline hlines).mp hl with rfl | ⟨hk, hne⟩
    · exact ⟨line, hline, hexpense.symm, (hg.bill line).symm, .inl ⟨rfl, rfl⟩⟩
    · exact ⟨l, hk, rfl, rfl, .inr ⟨rfl, hne⟩⟩
  constructor
  · rw [hlines]
    exact setLine_nodup hg h.nodup
  · intro l hl i hi
    obtain ⟨k, hk, hkl, -⟩ := hold l hl
    unfold BillDesk.Live
    rw [hexpenses]
    exact h.expense k hk i (hkl.trans hi)
  · intro l hl hun
    obtain ⟨k, hk, -, -, ⟨rfl, -⟩ | ⟨rfl, -⟩⟩ := hold l hl
    · rw [hconfirmed] at hun
      cases hun
    · exact h.unconfirmed l hk hun
  · intro l hl l' hl' i hi hi'
    obtain ⟨k, hk, hkl, -, hcase⟩ := hold l hl
    obtain ⟨k', hk', hkl', -, hcase'⟩ := hold l' hl'
    obtain rfl := h.owner k hk k' hk' i (hkl.trans hi) (hkl'.trans hi')
    grind
  · rw [hexpenses]
    intro x hx hbase hdeleted
    obtain ⟨k, hk, hkx⟩ := h.reached x hx hbase hdeleted
    by_cases hne : k = line
    · exact ⟨g line, (h.mem_changed hline hlines).mpr (.inl rfl), hexpense.trans (hne ▸ hkx)⟩
    · exact ⟨k, (h.mem_changed hline hlines).mpr (.inr ⟨hk, hne⟩), hkx⟩
  · rw [hexpenses]
    intro l hl x hx hlx bill hbill hdated today
    obtain ⟨k, hk, hkl, hkb, -⟩ := hold l hl
    rw [← hkb, hsame.bill] at hbill
    rw [hsame.date]
    exact h.dates k hk x hx (hkl.trans hlx) bill hbill hdated today

/-- A line is confirmed with a new expense, dated by its bill. -/
theorem LinesOk.expensed {x : BillExpense} {bill : VendorInvoice} {today : ℤ} (hok : ExpensesOk H base desk)
    (hopen : line.confirmed = false) (hexpense : (g line).expenseId = some x.id) (hconfirmed : (g line).confirmed = true)
    (hexpenses : desk'.expenses = desk.expenses ++ [x]) (hxid : x.id = desk.nextId) (hdeleted : x.deleted = false)
    (hsource : x.source = EXPENSE_SOURCE) (hbill : desk.bill line.vendorInvoiceId = some bill)
    (hdate : x.date = desk.effectiveExpenseDate today bill) : LinesOk base desk' := by
  have hmem : ∀ {l}, l ∈ desk'.lines ↔ l = g line ∨ l ∈ desk.lines ∧ l ≠ line := h.mem_changed hline hlines
  have hused : ∀ k ∈ desk.lines, k.expenseId ≠ some x.id := by
    intro k hk hkx
    obtain ⟨-, y, hy, hyid, -⟩ := h.expense k hk _ hkx
    have := hok.ids y hy
    omega
  have hxmem : x ∈ desk'.expenses := by
    rw [hexpenses]
    exact List.mem_append_right _ List.mem_cons_self
  constructor
  · rw [hlines]
    exact setLine_nodup hg h.nodup
  · intro l hl i hi
    rcases hmem.mp hl with rfl | ⟨hk, -⟩
    · rw [hexpense, Option.some.injEq] at hi
      exact ⟨hi ▸ hxid ▸ hok.base_le, x, hxmem, hi, hdeleted, hsource⟩
    · obtain ⟨hbase, y, hy, hrest⟩ := h.expense l hk i hi
      refine ⟨hbase, y, ?_, hrest⟩
      rw [hexpenses]
      exact List.mem_append_left _ hy
  · intro l hl hun
    rcases hmem.mp hl with rfl | ⟨hk, -⟩
    · rw [hconfirmed] at hun
      cases hun
    · exact h.unconfirmed l hk hun
  · intro l hl l' hl' i hi hi'
    rcases hmem.mp hl with rfl | ⟨hk, -⟩ <;> rcases hmem.mp hl' with rfl | ⟨hk', -⟩
    · rfl
    · rw [hexpense] at hi
      exact absurd (hi'.trans hi.symm) (hused l' hk')
    · rw [hexpense] at hi'
      exact absurd (hi.trans hi'.symm) (hused l hk)
    · exact h.owner l hk l' hk' i hi hi'
  · rw [hexpenses]
    intro y hy hbase hydel
    rcases List.mem_append.mp hy with hy | hy
    · obtain ⟨k, hk, hky⟩ := h.reached y hy hbase hydel
      refine ⟨k, hmem.mpr (.inr ⟨hk, ?_⟩), hky⟩
      rintro rfl
      rw [h.unconfirmed k hline hopen] at hky
      cases hky
    · rw [List.mem_singleton.mp hy]
      exact ⟨g line, hmem.mpr (.inl rfl), hexpense⟩
  · rw [hexpenses]
    intro l hl y hy hly bill' hbill' hdated today'
    rw [hsame.date]
    rcases hmem.mp hl with rfl | ⟨hk, -⟩
    · rw [hg.bill, hsame.bill, hbill, Option.some.injEq] at hbill'
      subst hbill'
      rw [hexpense, Option.some.injEq] at hly
      have hyx : y = x := by
        rcases List.mem_append.mp hy with hy | hy
        · have := hok.ids y hy
          omega
        · exact List.mem_singleton.mp hy
      rw [hyx, hdate]
      unfold BillDesk.effectiveExpenseDate
      obtain ⟨d, hd⟩ := Option.isSome_iff_exists.mp hdated
      rw [hd]
      rfl
    · rw [hsame.bill] at hbill'
      have hyold : y ∈ desk.expenses := by
        rcases List.mem_append.mp hy with hy | hy
        · exact hy
        · rw [List.mem_singleton.mp hy] at hly
          exact absurd hly (hused l hk)
      exact h.dates l hk y hyold hly bill' hbill' hdated today'

/-- A line is taken back, and its expense with it. -/
theorem LinesOk.dropped (hexpense : (g line).expenseId = none)
    (hexpenses : desk'.expenses = desk.expenses.map (dropExpenseIf line.expenseId)) : LinesOk base desk' := by
  have hmem : ∀ {l}, l ∈ desk'.lines ↔ l = g line ∨ l ∈ desk.lines ∧ l ≠ line := h.mem_changed hline hlines
  have hbare : ∀ {i}, (g line).expenseId ≠ some i := fun hi => Option.some_ne_none _ (hi.symm.trans hexpense)
  -- What another line owns is not what is dropped.
  have hkept : ∀ k ∈ desk.lines, k ≠ line → ∀ y : BillExpense, k.expenseId = some y.id →
      dropExpenseIf line.expenseId y = y := by
    intro k hk hne y hky
    unfold dropExpenseIf
    rw [if_neg]
    intro hly
    exact hne (h.owner k hk line hline y.id hky hly)
  constructor
  · rw [hlines]
    exact setLine_nodup hg h.nodup
  · intro l hl i hi
    rcases hmem.mp hl with rfl | ⟨hk, hne⟩
    · exact absurd hi hbare
    · obtain ⟨hbase, y, hy, rfl, hrest⟩ := h.expense l hk i hi
      refine ⟨hbase, y, ?_, rfl, hrest⟩
      rw [hexpenses]
      exact List.mem_map.mpr ⟨y, hy, hkept l hk hne y hi⟩
  · intro l hl hun
    rcases hmem.mp hl with rfl | ⟨hk, -⟩
    · exact hexpense
    · exact h.unconfirmed l hk hun
  · intro l hl l' hl' i hi hi'
    rcases hmem.mp hl with rfl | ⟨hk, -⟩
    · exact absurd hi hbare
    · rcases hmem.mp hl' with rfl | ⟨hk', -⟩
      · exact absurd hi' hbare
      · exact h.owner l hk l' hk' i hi hi'
  · rw [hexpenses]
    intro y hy hbase hydel
    obtain ⟨z, hz, rfl⟩ := List.mem_map.mp hy
    by_cases hzl : line.expenseId = some z.id
    · unfold dropExpenseIf at hydel
      rw [if_pos hzl] at hydel
      cases hydel
    · have heqz : dropExpenseIf line.expenseId z = z := if_neg hzl
      rw [heqz] at hbase hydel ⊢
      obtain ⟨k, hk, hkz⟩ := h.reached z hz hbase hydel
      exact ⟨k, hmem.mpr (.inr ⟨hk, fun heq => hzl (heq ▸ hkz)⟩), hkz⟩
  · rw [hexpenses]
    intro l hl y hy hly bill hbill hdated today
    rw [hsame.date]
    obtain ⟨z, hz, rfl⟩ := List.mem_map.mp hy
    have hzid : (dropExpenseIf line.expenseId z).id = z.id := by
      unfold dropExpenseIf
      split <;> rfl
    rcases hmem.mp hl with rfl | ⟨hk, hne⟩
    · exact absurd hly hbare
    · rw [hzid] at hly
      rw [hsame.bill] at hbill
      rw [hkept l hk hne z hly]
      exact h.dates l hk z hz hly bill hbill hdated today

end OneLine

/-! ### Payments -/

theorem mem_bill {id : ℕ} {bill : VendorInvoice} (h : desk.bill id = some bill) : bill.id = id := by
  simpa using List.find?_some h

theorem find?_map_id {f : VendorInvoice → VendorInvoice} (hf : ∀ b, (f b).id = b.id) (bills : List VendorInvoice) (k : ℕ) :
    (bills.map f).find? (·.id == k) = (bills.find? (·.id == k)).map f := by
  induction bills with
  | nil => rfl
  | cons b bills ih =>
    rw [List.map_cons, List.find?_cons, List.find?_cons, hf]
    split
    · rfl
    · exact ih

/-- The bill after its status is recomputed is the bill with another status. -/
theorem recomputeStatus_bill {id k : ℕ} {bill : VendorInvoice} (h : (desk.recomputeStatus id).bill k = some bill) :
    ∃ b status, desk.bill k = some b ∧ bill = { b with status := status } := by
  unfold BillDesk.bill BillDesk.recomputeStatus at h
  rw [find?_map_id (fun b => by split <;> rfl)] at h
  obtain ⟨b, hb, rfl⟩ := Option.map_eq_some_iff.mp h
  split
  · exact ⟨b, _, hb, rfl⟩
  · exact ⟨b, b.status, hb, rfl⟩

theorem effectiveExpenseDate_congr {today : ℤ} {bill : VendorInvoice}
    (h : desk'.livePayments bill.id = desk.livePayments bill.id) :
    desk'.effectiveExpenseDate today bill = desk.effectiveExpenseDate today bill := by
  unfold BillDesk.effectiveExpenseDate BillDesk.settledDate
  rw [h]

theorem effectiveExpenseDate_today {today today' : ℤ} {bill : VendorInvoice} (h : bill.invoiceDate.isSome) :
    desk.effectiveExpenseDate today bill = desk.effectiveExpenseDate today' bill := by
  obtain ⟨d, hd⟩ := Option.isSome_iff_exists.mp h
  unfold BillDesk.effectiveExpenseDate
  rw [hd]
  rfl

/-- The payments of one bill changed: its expenses move to the new date, and no other does. -/
theorem resettled_ok {today : ℤ} {bill : VendorInvoice} (hfree : H.CollisionFree) (hok : ExpensesOk H base desk)
    (hlines : LinesOk base desk) (payments : List VendorBillPayment) {nextId : ℕ} (hnext : desk.nextId ≤ nextId)
    (hbill : desk.bill bill.id = some bill)
    (hothers : ∀ id, id ≠ bill.id → (payments.filter fun p => p.vendorInvoiceId == id && !p.voided) = desk.livePayments id)
    (h : ({ desk with payments := payments, nextId := nextId }.recomputeStatus bill.id).syncExpenseDates H today bill =
      .ok desk') :
    ExpensesOk H base desk' ∧ LinesOk base desk' := by
  set mid := { desk with payments := payments, nextId := nextId }.recomputeStatus bill.id with hmid
  have hokmid : ExpensesOk H base mid :=
    ⟨hok.tracked, hok.nodup, fun x hx => Nat.lt_of_lt_of_le (hok.ids x hx) hnext, Nat.le_trans hok.base_le hnext,
      fun id hid => hok.fresh id (Nat.le_trans hnext hid), hok.rows⟩
  unfold BillDesk.syncExpenseDates at h
  set ids := (mid.lines.filter fun l => l.vendorInvoiceId == bill.id).filterMap (·.expenseId) with hids
  have hmem : ∀ id, id ∈ ids ↔ ∃ l ∈ desk.lines, l.vendorInvoiceId = bill.id ∧ l.expenseId = some id := by
    intro id
    rw [hids, List.mem_filterMap]
    constructor
    · rintro ⟨l, hl, hlid⟩
      obtain ⟨hl, hlbill⟩ := List.mem_filter.mp hl
      exact ⟨l, hl, by simpa using hlbill, hlid⟩
    · rintro ⟨l, hl, hlbill, hlid⟩
      exact ⟨l, List.mem_filter.mpr ⟨hl, by simpa using hlbill⟩, hlid⟩
  have hlive : ∀ id ∈ ids, mid.Live base id := by
    intro id hid
    obtain ⟨l, hl, -, hlid⟩ := (hmem id).mp hid
    exact hlines.expense l hl id hlid
  obtain ⟨hok', L, rfl⟩ := syncAll_ok hfree hokmid hlive h
  refine ⟨hok', hlines.nodup, ?_, hlines.unconfirmed, hlines.owner, ?_, ?_⟩
  · intro l hl i hi
    obtain ⟨hbase, x, hx, rfl, hdeleted, hsource⟩ := hlines.expense l hl i hi
    exact ⟨hbase, _, List.mem_map.mpr ⟨x, hx, rfl⟩, redate_id .., (redate_deleted ..).trans hdeleted,
      (redate_source ..).trans hsource⟩
  · intro y hy hbase hdeleted
    obtain ⟨x, hx, rfl⟩ := List.mem_map.mp hy
    rw [redate_id] at hbase ⊢
    exact hlines.reached x hx hbase ((redate_deleted ..).symm.trans hdeleted)
  · intro l hl y hy hly bill' hbill' hdated today'
    obtain ⟨x, hx, rfl⟩ := List.mem_map.mp hy
    rw [redate_id] at hly
    obtain ⟨b, status, hb, rfl⟩ := recomputeStatus_bill (show mid.bill l.vendorInvoiceId = some bill' from hbill')
    have hb : desk.bill l.vendorInvoiceId = some b := hb
    show (redate ids _ x).date = mid.effectiveExpenseDate today' b
    by_cases hown : l.vendorInvoiceId = bill.id
    · -- The line is of the bill: its expense was re-dated.
      have hin : x.id ∈ ids := (hmem x.id).mpr ⟨l, hl, hown, hly⟩
      have hbb : b = bill := by
        rw [hown, hbill, Option.some.injEq] at hb
        exact hb.symm
      unfold redate
      rw [if_pos hin, hbb]
      exact effectiveExpenseDate_today (hbb ▸ hdated)
    · have hout : x.id ∉ ids := by
        intro hin
        obtain ⟨k, hk, hkbill, hkid⟩ := (hmem x.id).mp hin
        rw [hlines.owner l hl k hk x.id hly hkid] at hown
        exact hown hkbill
      unfold redate
      rw [if_neg hout, hlines.dates l hl x hx hly b hb hdated today']
      have hne : b.id ≠ bill.id := fun heq => hown ((mem_bill hb).symm.trans heq)
      have hsame : mid.livePayments b.id = desk.livePayments b.id := hothers b.id hne
      exact (effectiveExpenseDate_congr hsame).symm

theorem recordBillPayment_ok {today : ℤ} {req : PaymentRequest} (hfree : H.CollisionFree) (hok : ExpensesOk H base desk)
    (hlines : LinesOk base desk) (h : recordBillPayment H today req desk = .ok desk') :
    ExpensesOk H base desk' ∧ LinesOk base desk' := by
  unfold recordBillPayment at h
  split at h
  · cases h
  · rename_i bill hbill
    split_ifs at h with hsource hvoid hamount hcap
    have hid := mem_bill hbill
    refine resettled_ok hfree hok hlines _ (Nat.le_succ _) (hid ▸ hbill) ?_ h
    intro id hne
    rw [List.filter_append]
    simp [BillDesk.livePayments, Ne.symm hne]

/-- Voiding payments of other bills leaves the live payments of a bill. -/
theorem livePayments_voidOther {payments : List VendorBillPayment} {id k : ℕ}
    (h : ∀ p ∈ payments, p.id = id → p.vendorInvoiceId ≠ k) :
    ((payments.map fun p => if p.id = id then { p with voided := true } else p).filter
      fun p => p.vendorInvoiceId == k && !p.voided) = payments.filter fun p => p.vendorInvoiceId == k && !p.voided := by
  induction payments with
  | nil => rfl
  | cons p payments ih =>
    have ih := ih fun q hq => h q (List.mem_cons_of_mem _ hq)
    by_cases hid : p.id = id
    · have hne : (p.vendorInvoiceId == k) = false := by simpa using h p List.mem_cons_self hid
      simp only [List.map_cons, hid, if_true, List.filter_cons, hne, Bool.false_and, Bool.false_eq_true, if_false, ih]
    · simp only [List.map_cons, hid, if_false, List.filter_cons, ih]

theorem voidBillPayment_ok {today : ℤ} {matchConfirmed : ℕ → Bool} {viaUnconfirm : Bool} {id : ℕ}
    (hfree : H.CollisionFree) (hok : ExpensesOk H base desk) (hlines : LinesOk base desk)
    (hids : (desk.payments.map (·.id)).Nodup)
    (h : voidBillPayment H today matchConfirmed viaUnconfirm id desk = .ok desk') :
    ExpensesOk H base desk' ∧ LinesOk base desk' := by
  unfold voidBillPayment at h
  split at h
  · cases h
  · rename_i payment hpayment
    have hpid : payment.id = id := by simpa using List.find?_some hpayment
    split_ifs at h with hvoided hceremony
    · cases h
      exact ⟨hok, hlines⟩
    · dsimp only at h
      have hothers : ∀ k, k ≠ payment.vendorInvoiceId →
          ((desk.payments.map fun p => if p.id = id then { p with voided := true } else p).filter
            fun p => p.vendorInvoiceId == k && !p.voided) = desk.livePayments k := by
        intro k hne
        refine livePayments_voidOther fun p hp hp' => ?_
        have hsame : p = payment :=
          List.inj_on_of_nodup_map hids hp (List.mem_of_find?_eq_some hpayment) (hp'.trans hpid.symm)
        rw [hsame]
        exact hne.symm
      split at h
      · rename_i hnone
        cases h
        refine ⟨⟨hok.tracked, hok.nodup, hok.ids, hok.base_le, hok.fresh, hok.rows⟩, hlines.nodup, hlines.expense,
          hlines.unconfirmed, hlines.owner, hlines.reached, ?_⟩
        intro l hl x hx hlx bill hbill hdated today'
        have hbill : desk.bill l.vendorInvoiceId = some bill := hbill
        have hne : bill.id ≠ payment.vendorInvoiceId := by
          intro heq
          have hnone : desk.bill payment.vendorInvoiceId = none := hnone
          rw [← heq, mem_bill hbill, hbill] at hnone
          cases hnone
        rw [hlines.dates l hl x hx hlx bill hbill hdated today']
        refine (effectiveExpenseDate_congr ?_).symm
        exact hothers bill.id hne
      · rename_i bill hbill
        have hbid := mem_bill hbill
        refine resettled_ok hfree hok hlines _ le_rfl (hbid ▸ hbill) ?_ h
        intro k hne
        exact hothers k (hbid ▸ hne)

/-! ### What a confirm does -/

/-- The line once it is confirmed to a job. -/
def VendorInvoiceLine.onJob (expense job : ℕ) (part : Option ℕ) (l : VendorInvoiceLine) : VendorInvoiceLine :=
  { l with
    expenseId := some expense, jobPartNeededId := part.or l.jobPartNeededId, jobId := some job, disposition := .job,
    confirmed := true }

/-- The desk after a line was confirmed, for each disposition. -/
inductive Confirmed (H : ContentHash) (today : ℤ) (desk : BillDesk) (bill : VendorInvoice) (line : VendorInvoiceLine) :
    BillDesk → Prop
  | linked {mid : BillDesk} {job : ℕ} {part : JobPartNeeded}
      (recorded : desk.recordExpense H today bill line "materials".toList (some job) = .ok mid) (item : line.kind = .item)
      (mem : part ∈ mid.parts) (own : part.source ≠ EXPENSE_SOURCE) :
      Confirmed H today desk bill line
        ((mid.setPart part.id fun p => { p with notes := some (withMarker p.notes (billedMarker bill)) }).setLine line.id
          (VendorInvoiceLine.onJob desk.nextId job (some part.id)))
  | minted {mid : BillDesk} {job : ℕ} {part : JobPartNeeded}
      (recorded : desk.recordExpense H today bill line "materials".toList (some job) = .ok mid) (item : line.kind = .item)
      (id : part.id = mid.nextId) (source : part.source = EXPENSE_SOURCE) (unbilled : part.billedInvoiceId = none) :
      Confirmed H today desk bill line
        (BillDesk.setLine { mid with parts := mid.parts ++ [part], nextId := mid.nextId + 1 } line.id
          (VendorInvoiceLine.onJob desk.nextId job (some part.id)))
  | costOnly {mid : BillDesk} {job : ℕ}
      (recorded : desk.recordExpense H today bill line "materials".toList (some job) = .ok mid) (kind : line.kind ≠ .item) :
      Confirmed H today desk bill line (mid.setLine line.id (VendorInvoiceLine.onJob desk.nextId job none))
  | stocked {item : ℕ} {items : List InventoryItem} {units : ℤ} (kind : line.kind = .item)
      (known : ∃ i ∈ desk.items, i.id = item) (whole : stockUnits line.quantity = .ok units)
      (counts : items.map (fun i => (i.id, i.quantity)) =
        (desk.applyStockDelta item units).items.map fun i => (i.id, i.quantity)) :
      Confirmed H today desk bill line
        (BillDesk.setLine { desk.applyStockDelta item units with items := items } line.id fun l => { l with
          inventoryItemId := some item, stockAdjustmentId := some desk.nextId, disposition := .stock, confirmed := true })
  | overhead {mid : BillDesk}
      (recorded : desk.recordExpense H today bill line "supplies".toList none = .ok mid) :
      Confirmed H today desk bill line (mid.setLine line.id fun l => { l with
        expenseId := some desk.nextId, disposition := .overhead, confirmed := true })
  | skipped {reason : Text} :
      Confirmed H today desk bill line (desk.setLine line.id fun l => { l with
        skipReason := some reason, disposition := .skip, confirmed := true })

section Cases
variable {today : ℤ} {req : ConfirmRequest} {bill : VendorInvoice} {line : VendorInvoiceLine}

theorem confirmJob_cases (h : desk.confirmJob H today req bill line = .ok desk') :
    Confirmed H today desk bill line desk' := by
  unfold BillDesk.confirmJob at h
  split at h
  · cases h
  · rename_i job hjob
    split at h
    · obtain ⟨mid, hmid, h⟩ := except_bind_ok.mp h
      split at h
      · rename_i hitem
        obtain ⟨⟨mid', part⟩, hpart, h⟩ := except_bind_ok.mp h
        cases h
        unfold BillDesk.billPart at hpart
        split at hpart
        · split at hpart
          · cases hpart
          · rename_i row hrow
            split at hpart
            · cases hpart
            · rename_i hown
              cases hpart
              exact .linked hmid hitem (List.mem_of_find?_eq_some hrow) hown
        · cases hpart
          exact .minted hmid hitem rfl rfl rfl
      · rename_i hkind
        cases h
        exact .costOnly hmid hkind
    · cases h

theorem confirmStock_cases (h : desk.confirmStock req line = .ok desk') : Confirmed H today desk bill line desk' := by
  unfold BillDesk.confirmStock at h
  split at h
  · cases h
  · rename_i hkind
    split at h
    · cases h
    · rename_i item hitem
      split at h
      · rename_i hknown
        obtain ⟨units, hunits, h⟩ := except_bind_ok.mp h
        have hmem : ∃ i ∈ desk.items, i.id = item := by simpa using hknown
        cases h
        cases req.updateCatalogCost with
        | false => exact .stocked (not_not.mp hkind) hmem hunits rfl
        | true =>
          refine .stocked (not_not.mp hkind) hmem hunits ?_
          show ((desk.applyStockDelta item units).items.map _).map _ = _
          rw [List.map_map]
          refine List.map_congr_left fun i _ => ?_
          show (fun i : InventoryItem => (i.id, i.quantity)) (if i.id = item then _ else i) = _
          split <;> rfl
      · cases h

end Cases

/-- A confirm that returns found its line confirmed already, or confirmed it. -/
theorem confirmLine_cases {today : ℤ} {req : ConfirmRequest} (h : confirmLine H today req desk = .ok desk') :
    desk' = desk ∨ ∃ bill line, desk.bill req.billId = some bill ∧ line ∈ desk.lines ∧ line.vendorInvoiceId = req.billId ∧
      line.confirmed = false ∧ Confirmed H today desk bill line desk' := by
  unfold confirmLine at h
  split at h
  · rename_i bill line hbill hline
    have hmatch := List.find?_some hline
    simp only [Bool.and_eq_true, beq_iff_eq] at hmatch
    split_ifs at h with hpending hconfirmed
    · cases h
      exact .inl rfl
    refine .inr ⟨bill, line, hbill, List.mem_of_find?_eq_some hline, hmatch.1, by simpa using hconfirmed, ?_⟩
    split at h
    · exact confirmJob_cases h
    · exact confirmStock_cases h
    · obtain ⟨mid, hmid, h⟩ := except_bind_ok.mp h
      cases h
      exact .overhead hmid
    · unfold BillDesk.confirmSkip at h
      dsimp only at h
      split at h
      · cases h
      · cases h
        exact .skipped
  · cases h

/-! ### Runs -/

/-- The two desks agree on everything but the lines, the parts, the stock and the supply of ids. -/
structure SameBooks (desk desk' : BillDesk) : Prop where
  company : desk'.company = desk.company
  settings : desk'.settings = desk.settings
  bills : desk'.bills = desk.bills
  payments : desk'.payments = desk.payments
  expenses : desk'.expenses = desk.expenses
  ledger : desk'.ledger = desk.ledger
  nextId : desk.nextId ≤ desk'.nextId

theorem SameBooks.refl (desk : BillDesk) : SameBooks desk desk := ⟨rfl, rfl, rfl, rfl, rfl, rfl, le_rfl⟩

theorem SameBooks.expensesOk (h : SameBooks desk desk') (hok : ExpensesOk H base desk) : ExpensesOk H base desk' := by
  obtain ⟨htracked, hnodup, hids, hbase, hfresh, hrows⟩ := hok
  refine ⟨?_, ?_, ?_, Nat.le_trans hbase h.nextId, ?_, ?_⟩
  · rw [h.ledger]
    exact htracked
  · rw [h.expenses]
    exact hnodup
  · rw [h.expenses]
    exact fun x hx => Nat.lt_of_lt_of_le (hids x hx) h.nextId
  · rw [h.ledger]
    exact fun id hid => hfresh id (Nat.le_trans h.nextId hid)
  · rw [h.expenses, h.company, h.settings, h.ledger]
    exact hrows

theorem SameBooks.settlement (h : SameBooks desk desk') : SameSettlement desk desk' := ⟨h.bills, h.payments⟩

/-- The ids of payments are the table's key. -/
structure PaymentIds (desk : BillDesk) : Prop where
  nodup : (desk.payments.map (·.id)).Nodup
  lt : ∀ p ∈ desk.payments, p.id < desk.nextId

theorem PaymentIds.mono (h : PaymentIds desk) (hpayments : desk'.payments = desk.payments)
    (hnext : desk.nextId ≤ desk'.nextId) : PaymentIds desk' := by
  constructor
  · rw [hpayments]
    exact h.nodup
  · rw [hpayments]
    exact fun p hp => Nat.lt_of_lt_of_le (h.lt p hp) hnext

/-- What every call keeps. -/
structure BillsOk (H : ContentHash) (base : ℕ) (desk : BillDesk) : Prop where
  expenses : ExpensesOk H base desk
  lines : LinesOk base desk
  payments : PaymentIds desk

section Confirm
variable {today : ℤ} {bill : VendorInvoice} {line : VendorInvoiceLine} {mid : BillDesk}

/-- A recorded expense keeps its place while the parts and the line change. -/
theorem BillsOk.expensed {g : VendorInvoiceLine → VendorInvoiceLine} {category : Text} {job : Option ℕ}
    (h : BillsOk H base desk) (hfree : H.CollisionFree) (hline : line ∈ desk.lines) (hopen : line.confirmed = false)
    (hbill : desk.bill line.vendorInvoiceId = some bill)
    (hrecord : desk.recordExpense H today bill line category job = .ok mid) (hsame : SameBooks mid desk')
    (hg : KeepsLine g) (hexpense : (g line).expenseId = some desk.nextId) (hconfirmed : (g line).confirmed = true)
    (hlines : desk'.lines = desk.lines.map fun l => if l.id = line.id then g l else l) : BillsOk H base desk' := by
  obtain ⟨hok, x, hxid, hdate, hdeleted, hsource, -, -, L, rfl⟩ := recordExpense_ok hfree h.expenses hrecord
  refine ⟨hsame.expensesOk hok, ?_, h.payments.mono hsame.payments (Nat.le_trans (Nat.le_succ _) hsame.nextId)⟩
  exact h.lines.expensed hline hg ⟨hsame.bills, hsame.payments⟩ hlines h.expenses hopen (hxid ▸ hexpense) hconfirmed
    hsame.expenses hxid hdeleted hsource hbill hdate

/-- A line is confirmed without an expense, and the books stay. -/
theorem BillsOk.unexpensed {g : VendorInvoiceLine → VendorInvoiceLine} (h : BillsOk H base desk) (hline : line ∈ desk.lines)
    (hsame : SameBooks desk desk') (hg : KeepsLine g) (hexpense : (g line).expenseId = line.expenseId)
    (hconfirmed : (g line).confirmed = true)
    (hlines : desk'.lines = desk.lines.map fun l => if l.id = line.id then g l else l) : BillsOk H base desk' :=
  ⟨hsame.expensesOk h.expenses, h.lines.rerouted hline hg hsame.settlement hlines hexpense hconfirmed hsame.expenses,
    h.payments.mono hsame.payments hsame.nextId⟩

theorem recordExpense_lines {category : Text} {job : Option ℕ}
    (h : desk.recordExpense H today bill line category job = .ok mid) : mid.lines = desk.lines := by
  unfold BillDesk.recordExpense at h
  obtain ⟨⟨u, L⟩, -, h⟩ := except_bind_ok.mp h
  cases h
  rfl

theorem Confirmed.billsOk (h : BillsOk H base desk) (hfree : H.CollisionFree) (hline : line ∈ desk.lines)
    (hopen : line.confirmed = false) (hbill : desk.bill line.vendorInvoiceId = some bill)
    (hconfirmed : Confirmed H today desk bill line desk') : BillsOk H base desk' := by
  cases hconfirmed with
  | @linked _ job part recorded item mem own =>
    refine h.expensed hfree hline hopen hbill recorded ⟨rfl, rfl, rfl, rfl, rfl, rfl, le_rfl⟩
      (g := VendorInvoiceLine.onJob desk.nextId job (some part.id)) ⟨fun _ => rfl, fun _ => rfl⟩ rfl rfl ?_
    rw [← recordExpense_lines recorded]
    rfl
  | @minted _ job part recorded item id source unbilled =>
    refine h.expensed hfree hline hopen hbill recorded ⟨rfl, rfl, rfl, rfl, rfl, rfl, Nat.le_succ _⟩
      (g := VendorInvoiceLine.onJob desk.nextId job (some part.id)) ⟨fun _ => rfl, fun _ => rfl⟩ rfl rfl ?_
    rw [← recordExpense_lines recorded]
    rfl
  | @costOnly _ job recorded kind =>
    refine h.expensed hfree hline hopen hbill recorded ⟨rfl, rfl, rfl, rfl, rfl, rfl, le_rfl⟩
      (g := VendorInvoiceLine.onJob desk.nextId job none) ⟨fun _ => rfl, fun _ => rfl⟩ rfl rfl ?_
    rw [← recordExpense_lines recorded]
    rfl
  | @stocked item items units kind known whole counts =>
    refine h.unexpensed hline ⟨rfl, rfl, rfl, rfl, rfl, rfl, Nat.le_succ _⟩ (g := fun l => { l with
      inventoryItemId := some item, stockAdjustmentId := some desk.nextId, disposition := .stock, confirmed := true })
      ⟨fun _ => rfl, fun _ => rfl⟩ rfl rfl rfl
  | overhead recorded =>
    refine h.expensed hfree hline hopen hbill recorded ⟨rfl, rfl, rfl, rfl, rfl, rfl, le_rfl⟩
      (g := fun l => { l with expenseId := some desk.nextId, disposition := .overhead, confirmed := true })
      ⟨fun _ => rfl, fun _ => rfl⟩ rfl rfl ?_
    rw [← recordExpense_lines recorded]
    rfl
  | @skipped reason =>
    refine h.unexpensed hline ⟨rfl, rfl, rfl, rfl, rfl, rfl, le_rfl⟩ (g := fun l => { l with
      skipReason := some reason, disposition := .skip, confirmed := true }) ⟨fun _ => rfl, fun _ => rfl⟩ rfl rfl rfl

end Confirm

end Gdx
