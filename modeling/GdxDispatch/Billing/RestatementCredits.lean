import GdxDispatch.Forecasting.ObservedRecurring
import GdxDispatch.Billing.LaborBook
import GdxDispatch.Billing.Requests

/-! What a restatement offers to credit: `restatement_credit_targets` of `core/closeout_billing.py`.

    When hours are restated below what was billed, the issued invoices of the run give up the excess, newest first, each
    as far as its claims and its labor lines go. An offer is priced at the invoice's own rate, less every credit the
    invoice already has, and capped at its balance. -/

namespace Gdx
open Lib

/-! ### The tables -/

/-- The tables, with the columns of the lines that the ledger does not read, and what is written of the job. -/
structure CreditBook where
  db : Db
  jobId : ℕ
  closeouts : List CloseoutRow
  uncompletedAt : List ℤ
  settings : Option PricingSettings
  quantity : InvoiceLine → ℚ
  unitPrice : InvoiceLine → ℤ

/-- The book with its tables as they are later. -/
def CreditBook.on (b : CreditBook) (db : Db) : CreditBook := { b with db := db }

/-- `_credited_on`. -/
def Rows.creditedOn (R : Rows) (id : ℕ) : ℤ :=
  sumCents (·.amount) (R.adjustments.filter fun a => a.invoiceId = id && (a.kind = .creditMemo || a.kind = .refund))

namespace CreditBook
variable (b : CreditBook)

/-- The job's labor as the closeout's claims read it. -/
def labor : LaborBook where
  lane := .service
  completed := true
  closeouts := b.closeouts
  invoices := b.db.rows.invoices.map fun i =>
    { id := i.id, createdAt := some i.createdAt, status := if i.status = .void then .void else .open
      deleted := i.deleted, lines := [] }
  uncompletedAt := b.uncompletedAt
  settings := b.settings
  nextCloseout := 0
  nextInvoice := 0

/-- `db.get(Invoice, id)`. -/
def invoice? (id : ℕ) : Option Invoice := rowOf Invoice.id b.db.rows.invoices id

/-- The live lines of the labor category. -/
def laborLines (id : ℕ) : List InvoiceLine :=
  b.db.rows.lines.filter fun l => l.invoiceId = id && !l.deleted && l.category = some "Labor".toList

/-- `_invoice_labor_hours`. -/
def invoiceLaborHours (id : ℕ) : ℚ := ((b.laborLines id).map b.quantity).sum

/-- `_job_labor_hours_billed`. -/
def jobLaborHoursBilled : ℚ :=
  ((b.db.rows.invoices.filter fun i => i.jobId = some b.jobId && !i.deleted && i.status.isIssued).map fun i =>
    b.invoiceLaborHours i.id).sum

/-- `_billed_hourly_rate`. -/
def billedHourlyRate (id : ℕ) : ℤ :=
  (((b.laborLines id).filter fun l => l.description.toList ≠ firstHourDescription && 0 < b.quantity l &&
    0 < b.unitPrice l).map b.unitPrice).min?.getD (serviceRates b.settings).2

/-! ### The offer -/

/-- `held[holder] = held.get(holder, 0) + hours`. -/
def addHeld (holder : ℕ) (hours : ℚ) : List (ℕ × ℚ) → List (ℕ × ℚ)
  | [] => [(holder, hours)]
  | (id, sum) :: held => if id = holder then (id, sum + hours) :: held else (id, sum) :: addHeld holder hours held

/-- The man-hours that the claims of the run billed on each issued invoice. -/
def claimed (closeout : CloseoutRow) : List (ℕ × ℚ) :=
  (restatedRun b.labor closeout).foldl (fun held prior =>
    match closeoutHoursHolder b.labor prior with
    | none => held
    | some holder =>
      if (b.invoice? holder).any (·.status.isIssued) then addHeld holder (claimManHours b.labor prior) held else held) []

/-- What each of them still bills. -/
def held (closeout : CloseoutRow) : List (ℕ × ℚ) :=
  (b.claimed closeout).map fun (id, hours) => (id, min hours (b.invoiceLaborHours id))

def billed (closeout : CloseoutRow) : ℚ := ((b.held closeout).map Prod.snd).sum

/-- What the job has to keep of its first hour. -/
def floorHours (closeout : CloseoutRow) : ℚ :=
  max 0 (1 - max 0 (b.jobLaborHoursBilled - b.billed closeout))

/-- What was billed above the restated hours and the first hour. -/
def excess (closeout : CloseoutRow) : ℚ :=
  b.billed closeout - max (closeoutManHours closeout) (b.floorHours closeout)

/-- The walk that takes the excess. -/
def takes : ℚ → List (ℕ × ℚ) → List (ℕ × ℚ)
  | _, [] => []
  | excess, (id, hours) :: held =>
    if excess ≤ 0 then []
    else if min excess hours ≤ 0 then takes excess held
    else (id, min excess hours) :: takes (excess - min excess hours) held

end CreditBook

/-- An entry of the list that `restatement_credit_targets` returns, money in cents. -/
structure CreditTarget where
  invoiceId : ℕ
  invoiceNumber : String
  status : InvoiceStatus
  closeoutId : ℕ
  manHours : ℚ
  hourlyRate : ℤ
  creditValue : ℤ
  balanceDue : ℤ
  amount : ℤ
  creditable : Bool
  deriving DecidableEq

namespace CreditBook
variable (b : CreditBook)

/-- `max(0, _money(take * rate) - _credited_on(inv.id))`. -/
def owed (id : ℕ) (take : ℚ) : ℤ := max 0 (roundHalfEven (take * b.billedHourlyRate id) - b.db.rows.creditedOn id)

/-- The invoice can take a credit memo. -/
def creditable (inv : Invoice) : Bool := (inv.status = .sent || inv.status = .overdue) && 0 < inv.balanceDue

def target (closeout : CloseoutRow) (id : ℕ) (take : ℚ) : Option CreditTarget :=
  (b.invoice? id).bind fun inv =>
    if b.owed id take ≤ 0 then none
    else some {
      invoiceId := inv.id
      invoiceNumber := inv.number
      status := inv.status
      closeoutId := closeout.id
      manHours := take
      hourlyRate := b.billedHourlyRate id
      creditValue := b.owed id take
      balanceDue := inv.balanceDue
      amount := if creditable inv then min (b.owed id take) inv.balanceDue else 0
      creditable := creditable inv }

/-- `restatement_credit_targets`. -/
def restatementCreditTargets (closeout : CloseoutRow) : List CreditTarget :=
  (takes (b.excess closeout) (b.held closeout)).filterMap fun taken => b.target closeout taken.1 taken.2

end CreditBook

/-! ### Credit memos -/

/-- Credit memos of some amounts on some invoices, issued one after another, each at its time and for its reason. -/
inductive MemosIssued (H : ContentHash) (zone : ShopZone) : List (ℕ × ℕ) → Db → Db → Prop where
  | nil (db : Db) : MemosIssued H zone [] db db
  | cons {id amount : ℕ} {reason : Text} {actor : Option Text} {now : ℤ} {memos : List (ℕ × ℕ)} {db db₁ db' : Db}
      (hpos : 0 < amount) (hissue : issueCreditMemo H zone id amount reason actor { db with now := now } = .ok db₁)
      (hrest : MemosIssued H zone memos db₁ db') : MemosIssued H zone ((id, amount) :: memos) db db'

/-- The offered amounts that a memo can be issued for. -/
def offered (targets : List CreditTarget) : List (ℕ × ℕ) :=
  (targets.filter (0 < ·.amount)).map fun t => (t.invoiceId, t.amount.toNat)

/-! ### The walk -/

namespace CreditBook
variable {b : CreditBook} {closeout : CloseoutRow} {excess take : ℚ} {held : List (ℕ × ℚ)} {id : ℕ}

/-- What is taken from an invoice is more than nothing and no more than it holds. -/
theorem takes_mem (h : (id, take) ∈ takes excess held) : 0 < take ∧ ∃ hours, (id, hours) ∈ held ∧ take ≤ hours := by
  induction held generalizing excess with
  | nil => cases h
  | cons head held ih =>
    obtain ⟨other, hours⟩ := head
    have hrest : ∀ {excess}, (id, take) ∈ takes excess held →
        0 < take ∧ ∃ hours', (id, hours') ∈ (other, hours) :: held ∧ take ≤ hours' := by
      intro excess h
      obtain ⟨hpos, hours', hmem, hle⟩ := ih h
      exact ⟨hpos, hours', List.mem_cons_of_mem _ hmem, hle⟩
    rw [takes] at h
    split_ifs at h with hdone hnone
    · cases h
    · exact hrest h
    · obtain heq | h := List.mem_cons.mp h
      · cases heq
        exact ⟨not_le.mp hnone, hours, List.mem_cons_self, min_le_right _ _⟩
      · exact hrest h

/-- The walk never takes more than there is. -/
theorem takes_sum (excess : ℚ) (held : List (ℕ × ℚ)) : ((takes excess held).map Prod.snd).sum ≤ max 0 excess := by
  induction held generalizing excess with
  | nil => exact le_max_left _ _
  | cons head held ih =>
    obtain ⟨id, hours⟩ := head
    rw [takes]
    split_ifs with hdone hnone
    · exact le_max_left _ _
    · exact ih excess
    · have htail := ih (excess - min excess hours)
      have hle : min excess hours ≤ excess := min_le_left _ _
      rw [max_eq_right (by linarith)] at htail
      rw [List.map_cons, List.sum_cons, max_eq_right (by linarith)]
      linarith

/-! ### The offer -/

theorem target_eq_some {t : CreditTarget} (h : b.target closeout id take = some t) :
    ∃ inv, b.invoice? id = some inv ∧ 0 < b.owed id take ∧ t.invoiceId = id ∧ t.manHours = take ∧
      t.balanceDue = inv.balanceDue ∧ t.amount = if creditable inv then min (b.owed id take) inv.balanceDue else 0 := by
  obtain ⟨inv, hinv, h⟩ := Option.bind_eq_some_iff.mp h
  have hkey : inv.id = id := key_of_rowOf hinv
  split_ifs at h with howed
  all_goals
    cases h
    exact ⟨inv, hinv, not_le.mp howed, hkey, rfl, rfl, by simp [*]⟩

theorem mem_targets {t : CreditTarget} : t ∈ b.restatementCreditTargets closeout ↔
    ∃ id take, (id, take) ∈ takes (b.excess closeout) (b.held closeout) ∧ b.target closeout id take = some t := by
  simp only [restatementCreditTargets, List.mem_filterMap, Prod.exists]

/-- What is offered is of what the walk takes. -/
theorem targets_sum (closeout : CloseoutRow) :
    ((b.restatementCreditTargets closeout).map CreditTarget.manHours).sum ≤ max 0 (b.excess closeout) := by
  refine le_trans ?_ (takes_sum (b.excess closeout) (b.held closeout))
  rw [restatementCreditTargets]
  have hpos : ∀ t ∈ takes (b.excess closeout) (b.held closeout), 0 < t.2 := fun t ht => (takes_mem ht).1
  generalize takes (b.excess closeout) (b.held closeout) = ts at hpos
  induction ts with
  | nil => rfl
  | cons head ts ih =>
    obtain ⟨id, take⟩ := head
    have htail := ih fun t ht => hpos t (List.mem_cons_of_mem _ ht)
    have htake : 0 < take := hpos _ List.mem_cons_self
    rw [List.map_cons, List.sum_cons]
    cases hone : b.target closeout id take with
    | none =>
      rw [List.filterMap_cons_none (by exact hone)]
      linarith
    | some t =>
      obtain ⟨inv, -, -, -, hhours, -⟩ := target_eq_some hone
      rw [List.filterMap_cons_some (by exact hone), List.map_cons, List.sum_cons, hhours]
      linarith

/-- An offer is within the labor that its invoice still bills, and within its balance. -/
theorem target_within {t : CreditTarget} (h : t ∈ b.restatementCreditTargets closeout) :
    ∃ inv, b.invoice? t.invoiceId = some inv ∧ t.manHours ≤ b.invoiceLaborHours t.invoiceId ∧ 0 ≤ t.amount ∧
      t.amount ≤ max 0 inv.balanceDue := by
  obtain ⟨id, take, htake, ht⟩ := mem_targets.mp h
  obtain ⟨inv, hinv, howed, hid, hhours, -, hamount⟩ := target_eq_some ht
  obtain ⟨-, hours, hmem, hle⟩ := takes_mem htake
  obtain ⟨⟨id', claims⟩, -, heq⟩ := List.mem_map.mp hmem
  cases heq
  refine ⟨inv, hid ▸ hinv, ?_, ?_⟩
  · rw [hid, hhours]
    exact hle.trans (min_le_right _ _)
  · rw [hamount]
    split_ifs with hcan
    · simp only [creditable, Bool.and_eq_true, decide_eq_true_eq] at hcan
      omega
    · exact ⟨le_refl _, le_max_left _ _⟩

end CreditBook

end Gdx
