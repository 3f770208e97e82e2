import GdxDispatch.ChangeOrders.Writes

/-! A billed change order is frozen, and its amount is its lines.

    Two roundings and a tolerance stand between the amount and the lines: the lines' totals are rounded one by one and
    the amount once, and a bare amount may differ from lines that carry money by half a cent before it is rounded. Of
    the five routes, declining looks at no stamp. Where none of these bites, both laws hold in every run. -/

namespace Gdx.OrderDesk

open Lib

variable {s : ChangeOrders} {call : CoCall} {o o' : ChangeOrder}

/-- The rounded totals of the lines add up to their rounded sum. -/
def SumsUp (items : List ChangeOrderLineIn) : Prop :=
  (items.map (·.stored.lineTotal)).sum ≠ 0 → amountOf items = (items.map (·.stored.lineTotal)).sum

instance (items : List ChangeOrderLineIn) : Decidable (SumsUp items) := inferInstanceAs (Decidable (_ → _))

/-- Lines add up to the cent, a bare amount that an order with money on its lines takes is their sum to the cent, and no
    billed order is declined. -/
def KeepsFreeze (s : ChangeOrders) : CoCall → Prop
  | .create _ payload => SumsUp payload.lineItems
  | .update _ id payload => SumsUp payload.lineItems ∧ (payload.lineItems = [] → ∀ a ∈ payload.amount,
      ∀ o ∈ s.order id, o.linesSum ≠ 0 → o.Takes a → moneyCents a = o.linesSum)
  | .decline id => ∀ o ∈ s.order id, o.billedInvoiceId = none
  | _ => True

/-- The amount of an order whose lines carry money is their sum. -/
def AmountIsLines (o : ChangeOrder) : Prop := o.linesSum ≠ 0 → o.amount = o.linesSum

/-- A billed order is approved. -/
def BilledApproved (o : ChangeOrder) : Prop := o.billedInvoiceId ≠ none → o.status = .approved

/-- What billing freezes. -/
structure SameOffer (o o' : ChangeOrder) : Prop where
  lines : o'.lines = o.lines
  amount : o'.amount = o.amount
  taxRate : o'.taxRate = o.taxRate
  jobId : o'.jobId = o.jobId
  customerId : o'.customerId = o.customerId
  deletedAt : o'.deletedAt = o.deletedAt
  approved : o.status = .approved ∧ o'.status = .approved

theorem AmountIsLines.congr (h : AmountIsLines o) (hlines : o'.lines = o.lines) (hamount : o'.amount = o.amount) :
    AmountIsLines o' := by
  unfold AmountIsLines ChangeOrder.linesSum at h ⊢
  rw [hlines, hamount]
  exact h

theorem SumsUp.amountIsLines {items : List ChangeOrderLineIn} (h : SumsUp items)
    (hlines : o.lines = items.map (·.stored)) (hamount : items ≠ [] → o.amount = amountOf items) :
    AmountIsLines o := by
  have hsum : o.linesSum = (items.map (·.stored.lineTotal)).sum := by
    rw [ChangeOrder.linesSum, hlines, List.map_map]
    rfl
  intro hmoney
  have hne : items ≠ [] := by
    rintro rfl
    exact hmoney hsum
  rw [hamount hne, h (hsum ▸ hmoney), hsum]

/-- Every fitting call keeps the amount of an order at its lines. -/
theorem AmountIsLines.wrote (hfit : KeepsFreeze s call) (hrow : s.order o.id = some o) (h : AmountIsLines o)
    (hwrote : Wrote call o o') : AmountIsLines o' := by
  cases hwrote with
  | update hid _ _ hpriced =>
    subst hid
    cases hpriced with
    | lines hitems hlines hamount => exact hfit.1.amountIsLines hlines fun _ => hamount
    | bare a hitems hsent htakes hlines hamount =>
      intro hmoney
      have hsum : o'.linesSum = o.linesSum := by rw [ChangeOrder.linesSum, hlines, ChangeOrder.linesSum]
      rw [hamount, hsum]
      exact hfit.2 hitems a hsent o hrow (hsum ▸ hmoney) htakes
    | kept hlines hamount => exact h.congr hlines hamount
  | approve _ _ _ => exact h.congr rfl rfl
  | decline _ => exact h.congr rfl rfl
  | delete _ _ => exact h.congr rfl rfl
  | bill _ => exact h.congr rfl rfl
  | release => exact h.congr rfl rfl

theorem claims_iff {req : ChangeOrderBilling} : req.claims o = true ↔ o.id ∈ req.fromChangeOrderIds ∧
    o.jobId = req.jobId ∧ (o.customerId = none ∨ o.customerId = req.customerId) ∧ o.status = .approved ∧
    o.billedInvoiceId = none ∧ o.deletedAt = none := by
  simp [ChangeOrderBilling.claims, and_assoc]

theorem BilledApproved.wrote (hfit : KeepsFreeze s call) (hrow : s.order o.id = some o) (h : BilledApproved o)
    (hwrote : Wrote call o o') : BilledApproved o' := by
  cases hwrote with
  | update _ _ hfree' _ => exact fun hb => absurd hfree' hb
  | approve _ _ _ => exact fun _ => rfl
  | decline hid =>
    subst hid
    exact fun hb => absurd (hfit o hrow) hb
  | delete _ _ => exact h
  | bill hclaims => exact fun _ => (claims_iff.mp hclaims).2.2.2.1
  | release => exact fun hb => absurd rfl hb

/-- While the stamp stands, a fitting call that writes the order leaves what was signed. -/
theorem sameOffer_of_wrote (hfit : KeepsFreeze s call) (hrow : s.order o.id = some o)
    (hbilled : o.billedInvoiceId ≠ none) (happroved : o.status = .approved) (hwrote : Wrote call o o') :
    SameOffer o o' := by
  cases hwrote with
  | update _ hfree _ _ => exact absurd hfree hbilled
  | approve rate _ hrate =>
    have hsigned : o.status.signed = true := by
      rw [happroved]
      rfl
    exact ⟨rfl, rfl, hrate hsigned, rfl, rfl, rfl, happroved, rfl⟩
  | decline hid =>
    subst hid
    exact absurd (hfit o hrow) hbilled
  | delete _ hfree => exact absurd hfree hbilled
  | bill hclaims => exact absurd (claims_iff.mp hclaims).2.2.2.2.1 hbilled
  | release => exact ⟨rfl, rfl, rfl, rfl, rfl, rfl, happroved, happroved⟩

theorem run_amountIsLines {calls : List CoCall} (h : Along ChangeOrders.step KeepsFreeze .empty calls) :
    (ChangeOrders.run calls).All AmountIsLines := by
  refine run_all (fun hfit hnew => ?_) (fun hfit hrow hP hwrote => hP.wrote hfit hrow hwrote) h
  cases hnew with
  | create _ hlines hamount => exact hfit.amountIsLines hlines hamount

theorem run_billedApproved {calls : List CoCall} (h : Along ChangeOrders.step KeepsFreeze .empty calls) :
    (ChangeOrders.run calls).All BilledApproved := by
  refine run_all (fun _ hnew => ?_) (fun hfit hrow hP hwrote => hP.wrote hfit hrow hwrote) h
  cases hnew with
  | create hfree _ _ => exact fun hb => absurd hfree hb

/-- Both laws over a whole history: amounts are lines in every state, and no call changes a billed order. -/
def FrozenHistory (calls : List CoCall) : Prop :=
  ∀ before after, calls = before ++ after →
    (ChangeOrders.run before).All AmountIsLines ∧
    ∀ call more, after = call :: more → ∀ id o, (ChangeOrders.run before).order id = some o →
      o.billedInvoiceId ≠ none → ∃ o', (ChangeOrders.run (before ++ [call])).order id = some o' ∧ SameOffer o o'

/-- In every run whose lines add up to the cent, whose bare amounts agree with the lines to the cent and that declines
    no billed order, an amount is the sum of its lines and a billed order does not change. -/
theorem billed_order_frozen (calls : List CoCall) (h : Along ChangeOrders.step KeepsFreeze .empty calls) :
    FrozenHistory calls := by
  rintro before after rfl
  have hbefore := (along_append.mp h).1
  refine ⟨run_amountIsLines hbefore, ?_⟩
  rintro call more rfl id o hrow hbilled
  have hfit : KeepsFreeze (ChangeOrders.run before) call := (along_append.mp h).2.1
  have hrun : ChangeOrders.run (before ++ [call]) = (ChangeOrders.run before).step call := by
    simp [ChangeOrders.run]
  have happroved := run_billedApproved hbefore id o hrow hbilled
  obtain ⟨o', hrow', hwas⟩ := (step_shape (ChangeOrders.run before) call).row (run_keyed before) hrow
  refine ⟨o', hrun ▸ hrow', ?_⟩
  rcases hwas with rfl | hwas
  · exact ⟨rfl, rfl, rfl, rfl, rfl, rfl, happroved, happroved⟩
  · exact sameOffer_of_wrote hfit (key_of_rowOf hrow ▸ hrow) hbilled happroved hwas

/-! ### One order, billed -/

theorem one_quantity_le : 1 ≤ 9999 := by norm_num

/-- One opener for 100.00. -/
def openerLine : ChangeOrderLineIn where
  description := "Opener".toList
  quantity := 1
  unitPrice := 100
  taxable := true
  quantity_pos := Nat.one_pos
  quantity_le := one_quantity_le
  unitPrice_nonneg := by norm_num
  unitPrice_le := by norm_num

theorem unpriced_nonneg : ∀ a ∈ (none : Option ℚ), 0 ≤ a := fun _ ha => by cases ha

def openerOrder : ChangeOrderIn where
  jobId := .uuid 7
  customerId := .notSent
  customerName := none
  title := "Opener".toList
  description := none
  reason := none
  amount := none
  status := some .draft
  lineItems := [openerLine]
  amount_nonneg := unpriced_nonneg

def deskEnv : CoEnv := ⟨0, "office".toList, some 0⟩

/-- Created, approved and billed. -/
def billedOpener : List CoCall :=
  [.create deskEnv openerOrder, .approve deskEnv 0, .bill ⟨9, some 7, none, [0]⟩]

theorem billed_order_frozen_released : FrozenHistory (billedOpener ++ [.approve deskEnv 0, .release 9, .decline 0]) := by
  refine billed_order_frozen _ ?_
  have hsums : SumsUp openerOrder.lineItems := by decide +kernel
  have hfree : ((ChangeOrders.run (billedOpener ++ [.approve deskEnv 0, .release 9])).order 0).all
      (·.billedInvoiceId = none) = true := by decide +kernel
  refine ⟨hsums, trivial, trivial, trivial, trivial, fun o ho => ?_, trivial⟩
  have ho' : (ChangeOrders.run (billedOpener ++ [.approve deskEnv 0, .release 9])).order 0 = some o := ho
  rw [ho'] at hfree
  simpa using hfree

/-- Declining does not look at the stamp: the order is billed and declined. -/
theorem billed_order_declined : ¬ ∀ calls : List CoCall, FrozenHistory calls := by
  intro h
  have hbefore : ((ChangeOrders.run billedOpener).order 0).map (·.billedInvoiceId) = some (some 9) := by decide +kernel
  obtain ⟨o, ho, hb⟩ := Option.map_eq_some_iff.mp hbefore
  obtain ⟨o', ho', hsame⟩ := (h (billedOpener ++ [.decline 0]) billedOpener [.decline 0] rfl).2 (.decline 0) [] rfl 0 o ho
    (by rw [hb]; exact nofun)
  have hafter : ((ChangeOrders.run (billedOpener ++ [.decline 0])).order 0).map (·.status) = some .declined := by
    decide +kernel
  rw [ho', Option.map_some, hsame.approved.2] at hafter
  cases hafter

end Gdx.OrderDesk
