import GdxDispatch.ChangeOrders.Writes

/-! A change order bills what was signed.

    The biller copies the lines of an order that has any and falls back on the amount of one that has none, so that the
    invoice carries the signed amount when the amount is the sum of the lines or there are no lines. With prices in
    whole cents the editor keeps it so, unless a bare amount is saved on an order that has lines and is not their sum:
    lines without money are copied as they are, and the amount is lost. -/

namespace Gdx.OrderDesk

open Lib

variable {s : ChangeOrders} {call : CoCall} {o o' : ChangeOrder} {cos : List ChangeOrder}

/-- The price is in whole cents. -/
def WholeCents (li : ChangeOrderLineIn) : Prop := ∃ c : ℤ, li.unitPrice = c / 100

/-- All prices of a request are in whole cents. -/
def CentPrices : CoCall → Prop
  | .create _ payload => ∀ li ∈ payload.lineItems, WholeCents li
  | .update _ _ payload => ∀ li ∈ payload.lineItems, WholeCents li
  | _ => True

/-- A bare amount that an order with lines takes is their sum to the cent. -/
def AmountsAgree (s : ChangeOrders) : CoCall → Prop
  | .update _ id payload => payload.lineItems = [] → ∀ a ∈ payload.amount, ∀ o ∈ s.order id, o.lines ≠ [] →
      o.Takes a → moneyCents a = o.linesSum
  | _ => True

/-- What the biller relies on: the amount is the sum of the lines, if there are any, and no line is empty. -/
structure Billable (o : ChangeOrder) : Prop where
  amount : o.lines ≠ [] → o.amount = o.linesSum
  qty : ∀ ln ∈ o.lines, 0 < ln.qty

/-! ### Whole cents -/

theorem moneyCents_cents (c : ℤ) : moneyCents (c / 100) = c := by
  have hcancel : (c / 100 * 100 : ℚ) = c := by ring
  have hfloor : ∀ n : ℤ, ⌊(n : ℚ) + 1 / 2⌋ = n := fun n => by
    rw [Int.floor_intCast_add]
    norm_num
  rw [moneyCents, hcancel, roundHalfUp]
  split
  · exact hfloor c
  · have hneg := hfloor (-c)
    push_cast at hneg
    rw [hneg, neg_neg]

/-- In whole cents a total is exact. -/
theorem WholeCents.total {li : ChangeOrderLineIn} (h : WholeCents li) : ∃ c : ℤ, li.total = c / 100 := by
  obtain ⟨c, hc⟩ := h
  refine ⟨c * li.quantity, ?_⟩
  rw [ChangeOrderLineIn.total, hc]
  push_cast
  ring

theorem sum_total {items : List ChangeOrderLineIn} (h : ∀ li ∈ items, WholeCents li) :
    (items.map (·.total)).sum = ((items.map (·.stored.lineTotal)).sum : ℤ) / 100 := by
  induction items with
  | nil => simp
  | cons li items ih =>
    obtain ⟨c, hc⟩ := (h li List.mem_cons_self).total
    have hstored : li.stored.lineTotal = c := by
      change moneyCents li.total = c
      rw [hc, moneyCents_cents]
    rw [List.map_cons, List.sum_cons, List.map_cons, List.sum_cons, ih fun x hx => h x (List.mem_cons_of_mem _ hx), hc,
      hstored]
    push_cast
    ring

/-- The rounded sum of whole cents is the sum of the rounded totals. -/
theorem amountOf_cents {items : List ChangeOrderLineIn} (h : ∀ li ∈ items, WholeCents li) :
    amountOf items = (items.map (·.stored.lineTotal)).sum := by
  rw [amountOf, sum_total h, moneyCents_cents]

/-! ### The editor -/

theorem Billable.ofItems {items : List ChangeOrderLineIn} (h : ∀ li ∈ items, WholeCents li)
    (hlines : o.lines = items.map (·.stored)) (hamount : items ≠ [] → o.amount = amountOf items) : Billable o := by
  refine ⟨fun hne => ?_, fun ln hln => ?_⟩
  · have hitems : items ≠ [] := by
      rintro rfl
      exact hne hlines
    rw [hamount hitems, amountOf_cents h, ChangeOrder.linesSum, hlines, List.map_map]
    rfl
  · rw [hlines] at hln
    obtain ⟨li, -, rfl⟩ := List.mem_map.mp hln
    exact li.quantity_pos

theorem Billable.congr (h : Billable o) (hlines : o'.lines = o.lines) (hamount : o'.amount = o.amount) :
    Billable o' := by
  obtain ⟨h1, h2⟩ := h
  constructor
  · rw [ChangeOrder.linesSum, hlines, hamount]
    exact h1
  · rw [hlines]
    exact h2

theorem Billable.wrote (hfit : AmountsAgree s call) (hcents : CentPrices call) (hrow : s.order o.id = some o)
    (h : Billable o) (hwrote : Wrote call o o') : Billable o' := by
  cases hwrote with
  | update hid _ _ hpriced =>
    subst hid
    cases hpriced with
    | lines hitems hlines hamount => exact .ofItems hcents hlines fun _ => hamount
    | bare a hitems hsent htakes hlines hamount =>
      refine ⟨fun hne => ?_, hlines ▸ h.qty⟩
      rw [hamount, ChangeOrder.linesSum, hlines]
      exact hfit hitems a hsent o hrow (hlines ▸ hne) htakes
    | kept hlines hamount => exact h.congr hlines hamount
  | approve _ _ _ => exact h.congr rfl rfl
  | decline _ => exact h.congr rfl rfl
  | delete _ _ => exact h.congr rfl rfl
  | bill _ => exact h.congr rfl rfl
  | release => exact h.congr rfl rfl

theorem run_billable {calls : List CoCall}
    (h : Along ChangeOrders.step (fun s call => AmountsAgree s call ∧ CentPrices call) .empty calls) :
    (ChangeOrders.run calls).All Billable := by
  refine run_all (fun hfit hnew => ?_) (fun hfit hrow hP hwrote => hP.wrote hfit.1 hfit.2 hrow hwrote) h
  cases hnew with
  | create _ hlines hamount => exact .ofItems hfit.2 hlines hamount

/-! ### The biller -/

/-- What the invoice carries for one order. -/
def billedTotal (id : ℕ) (billed : List BilledLine) : ℤ :=
  ((billed.filter (·.changeOrderId = id)).map (·.lineTotal)).sum

theorem billedTotal_append (id : ℕ) (xs ys : List BilledLine) :
    billedTotal id (xs ++ ys) = billedTotal id xs + billedTotal id ys := by
  simp [billedTotal]

/-- Lines of other orders count nothing. -/
theorem billedTotal_eq_zero {id : ℕ} {billed : List BilledLine} (h : ∀ ln ∈ billed, ln.changeOrderId ≠ id) :
    billedTotal id billed = 0 := by
  have hnil : billed.filter (·.changeOrderId = id) = [] := by simpa using h
  rw [billedTotal, hnil]
  rfl

theorem copyLines_ok (o : ChangeOrder) {lines : List ChangeOrderLine} (h : ∀ ln ∈ lines, 0 < ln.qty) :
    copyLines o lines = .ok (lines.map o.copiedLine) := by
  induction lines with
  | nil => rfl
  | cons ln lines ih =>
    have hbill : zeroQuantityVerdict (some ln.qty) ln.lineTotal = .bill := if_pos (h ln List.mem_cons_self)
    rw [copyLines, hbill, ih fun x hx => h x (List.mem_cons_of_mem _ hx)]
    rfl

theorem copyOrders_ok (h : ∀ o ∈ cos, Billable o) :
    copyOrders cos = .ok (cos.flatMap fun o => o.lines.map o.copiedLine) := by
  induction cos with
  | nil => rfl
  | cons o cos ih =>
    rw [copyOrders, copyLines_ok o (h o List.mem_cons_self).qty, ih fun x hx => h x (List.mem_cons_of_mem _ hx)]
    rfl

theorem mem_copied {ln : BilledLine} (h : ln ∈ cos.flatMap fun o => o.lines.map o.copiedLine) :
    ∃ o ∈ cos, o.lines ≠ [] ∧ ln.changeOrderId = o.id := by
  obtain ⟨o, ho, hln⟩ := List.mem_flatMap.mp h
  obtain ⟨row, hrow, rfl⟩ := List.mem_map.mp hln
  exact ⟨o, ho, List.ne_nil_of_mem hrow, rfl⟩

theorem billedTotal_copiedLines (o : ChangeOrder) : billedTotal o.id (o.lines.map o.copiedLine) = o.linesSum := by
  have hall : (o.lines.map o.copiedLine).filter (·.changeOrderId = o.id) = o.lines.map o.copiedLine := by
    simp [ChangeOrder.copiedLine]
  rw [billedTotal, hall, List.map_map]
  rfl

/-- The copied lines of an order sum to its lines. -/
theorem billedTotal_copied (hids : (cos.map (·.id)).Nodup) (ho : o ∈ cos) :
    billedTotal o.id (cos.flatMap fun o => o.lines.map o.copiedLine) = o.linesSum := by
  induction cos with
  | nil => exact absurd ho List.not_mem_nil
  | cons q cos ih =>
    obtain ⟨hnew, hids⟩ := List.nodup_cons.mp hids
    rw [List.flatMap_cons, billedTotal_append]
    rcases List.mem_cons.mp ho with rfl | ho
    · have hrest : ∀ ln ∈ cos.flatMap fun o => o.lines.map o.copiedLine, ln.changeOrderId ≠ o.id := by
        intro ln hln heq
        obtain ⟨p, hp, -, hid⟩ := mem_copied hln
        exact hnew (List.mem_map.mpr ⟨p, hp, hid.symm.trans heq⟩)
      rw [billedTotal_copiedLines, billedTotal_eq_zero hrest, add_zero]
    · have hq : ∀ ln ∈ q.lines.map q.copiedLine, ln.changeOrderId ≠ o.id := by
        intro ln hln heq
        obtain ⟨row, -, rfl⟩ := List.mem_map.mp hln
        have hqo : q.id = o.id := heq
        exact hnew (List.mem_map.mpr ⟨o, ho, hqo.symm⟩)
      rw [billedTotal_eq_zero hq, zero_add, ih hids ho]

/-- The amounts billed for orders of one list come from that list. -/
theorem mem_billAmounts {copied amounts : List BilledLine} (h : billAmounts copied cos = .ok amounts) :
    ∀ ln ∈ amounts, ∃ o ∈ cos, ln.changeOrderId = o.id := by
  induction cos generalizing amounts with
  | nil =>
    cases h
    exact fun _ => nofun
  | cons q cos ih =>
    have hlift : ∀ {amounts}, billAmounts copied cos = .ok amounts →
        ∀ ln ∈ amounts, ∃ o ∈ q :: cos, ln.changeOrderId = o.id := fun h ln hln => by
      obtain ⟨o, ho, hid⟩ := ih h ln hln
      exact ⟨o, List.mem_cons_of_mem _ ho, hid⟩
    rw [billAmounts] at h
    split at h
    · exact hlift h
    · split at h
      · split at h
        · exact hlift h
        · cases h
      · obtain ⟨more, hmore, h⟩ := except_bind_ok.mp h
        cases h
        intro ln hln
        rcases List.mem_cons.mp hln with rfl | hln
        · exact ⟨q, List.mem_cons_self, rfl⟩
        · exact hlift hmore ln hln

/-- An order that no copied line came from is billed by its amount; the others add nothing here. -/
theorem billedTotal_amounts {copied amounts : List BilledLine} (h : billAmounts copied cos = .ok amounts)
    (hids : (cos.map (·.id)).Nodup) (ho : o ∈ cos) :
    (copied.any (·.changeOrderId = o.id) = true → billedTotal o.id amounts = 0) ∧
    (copied.any (·.changeOrderId = o.id) = false → o.lines = [] → billedTotal o.id amounts = o.amount) := by
  induction cos generalizing amounts with
  | nil => exact absurd ho List.not_mem_nil
  | cons q cos ih =>
    obtain ⟨hnew, hids⟩ := List.nodup_cons.mp hids
    -- what the rest of the orders brings says nothing about the first
    have hothers : ∀ {amounts}, billAmounts copied cos = .ok amounts → billedTotal q.id amounts = 0 := fun h =>
      billedTotal_eq_zero fun ln hln heq => by
        obtain ⟨p, hp, hid⟩ := mem_billAmounts h ln hln
        exact hnew (List.mem_map.mpr ⟨p, hp, hid.symm.trans heq⟩)
    have hne : o ∈ cos → q.id ≠ o.id := fun ho heq => hnew (List.mem_map.mpr ⟨o, ho, heq.symm⟩)
    rw [billAmounts] at h
    split at h
    · rename_i hany
      rcases List.mem_cons.mp ho with rfl | ho
      · exact ⟨fun _ => hothers h, fun hnone => absurd hany (by simp [hnone])⟩
      · exact ih h hids ho
    · rename_i hany
      split at h
      · split at h
        · rename_i hlines
          rcases List.mem_cons.mp ho with rfl | ho
          · exact ⟨fun h' => absurd h' hany, fun _ hnil => absurd hnil hlines⟩
          · exact ih h hids ho
        · cases h
      · obtain ⟨more, hmore, h⟩ := except_bind_ok.mp h
        cases h
        rcases List.mem_cons.mp ho with rfl | ho
        · refine ⟨fun h' => absurd h' hany, fun _ _ => ?_⟩
          have hself : billedTotal o.id [o.amountLine] = o.amount := by simp [billedTotal, ChangeOrder.amountLine]
          rw [← List.singleton_append, billedTotal_append, hself, hothers hmore, add_zero]
        · have hq : billedTotal o.id [q.amountLine] = 0 := billedTotal_eq_zero fun ln hln => by
            rw [List.mem_singleton.mp hln]
            exact hne ho
          rw [← List.singleton_append, billedTotal_append, hq, zero_add]
          exact ih hmore hids ho

/-- From orders the editor keeps in step, a bill carries each one's amount. -/
theorem billedTotal_eq {copied amounts : List BilledLine} (hgood : ∀ o ∈ cos, Billable o)
    (hids : (cos.map (·.id)).Nodup) (hcopied : copyOrders cos = .ok copied)
    (hamounts : billAmounts copied cos = .ok amounts) (ho : o ∈ cos) :
    billedTotal o.id (copied ++ amounts) = o.amount := by
  rw [copyOrders_ok hgood] at hcopied
  cases hcopied
  obtain ⟨hcopiedZero, hbare⟩ := billedTotal_amounts hamounts hids ho
  rw [billedTotal_append, billedTotal_copied hids ho]
  by_cases hlines : o.lines = []
  · have hnone : (cos.flatMap fun o => o.lines.map o.copiedLine).any (·.changeOrderId = o.id) = false := by
      rw [List.any_eq_false]
      intro ln hln heq
      obtain ⟨p, hp, hplines, hid⟩ := mem_copied hln
      have hpo : p = o := List.inj_on_of_nodup_map hids hp ho (hid.symm.trans (by simpa using heq))
      exact hplines (hpo ▸ hlines)
    have hzero : o.linesSum = 0 := by rw [ChangeOrder.linesSum, hlines]; rfl
    rw [hbare hnone hlines, hzero, zero_add]
  · have hany : (cos.flatMap fun o => o.lines.map o.copiedLine).any (·.changeOrderId = o.id) = true := by
      obtain ⟨ln, hln⟩ := List.exists_mem_of_ne_nil _ hlines
      rw [List.any_eq_true]
      exact ⟨o.copiedLine ln, List.mem_flatMap.mpr ⟨o, ho, List.mem_map_of_mem hln⟩, by simp [ChangeOrder.copiedLine]⟩
    rw [hcopiedZero hany, add_zero, (hgood o ho).amount hlines]

/-- The orders of a request that passes are all there. -/
theorem billChangeOrders_ok {req : ChangeOrderBilling} {s' : ChangeOrders} {billed : List BilledLine}
    (h : billChangeOrders req s = .ok (s', billed)) :
    ∃ copied amounts, billed = copied ++ amounts ∧ copyOrders (s.orders.filter req.claims) = .ok copied ∧
      billAmounts copied (s.orders.filter req.claims) = .ok amounts ∧
      ∀ id ∈ req.fromChangeOrderIds, ∃ o ∈ s.orders.filter req.claims, o.id = id := by
  unfold billChangeOrders at h
  split at h
  · cases h
  · rename_i hall
    obtain ⟨copied, hcopied, h⟩ := except_bind_ok.mp h
    obtain ⟨amounts, hamounts, h⟩ := except_bind_ok.mp h
    cases h
    refine ⟨copied, amounts, rfl, hcopied, hamounts, fun id hid => ?_⟩
    have hmem := List.filter_eq_nil_iff.mp (not_not.mp hall) id hid
    rw [Bool.not_eq_true, List.all_eq_false] at hmem
    obtain ⟨o, ho, hoid⟩ := hmem
    exact ⟨o, ho, by simpa using hoid⟩

/-- The invoice of a request carries the amount of every order it lists. -/
def BillsAsSigned (s : ChangeOrders) (req : ChangeOrderBilling) (billed : List BilledLine) : Prop :=
  ∀ id ∈ req.fromChangeOrderIds, ∃ o, s.order id = some o ∧ billedTotal id billed = o.amount

/-- After a history in whole cents whose bare amounts agree with the lines they leave, a bill carries the amount of
    every order it lists. -/
theorem change_order_bills_as_signed (calls : List CoCall) (hcents : ∀ call ∈ calls, CentPrices call)
    (h : Along ChangeOrders.step AmountsAgree .empty calls) (req : ChangeOrderBilling) (s' : ChangeOrders)
    (billed : List BilledLine) (hbill : billChangeOrders req (ChangeOrders.run calls) = .ok (s', billed)) :
    BillsAsSigned (ChangeOrders.run calls) req billed := by
  have hgood := run_billable (h.and hcents)
  have hk := run_keyed calls
  obtain ⟨copied, amounts, rfl, hcopied, hamounts, hlisted⟩ := billChangeOrders_ok hbill
  have hids : (((ChangeOrders.run calls).orders.filter req.claims).map (·.id)).Nodup :=
    (List.filter_sublist.map _).nodup hk.nodup
  have hrow : ∀ o ∈ (ChangeOrders.run calls).orders.filter req.claims, (ChangeOrders.run calls).order o.id = some o :=
    fun o ho => (rowOf_eq_some_iff hk.nodup).mpr ⟨(List.mem_filter.mp ho).1, rfl⟩
  intro id hid
  obtain ⟨o, ho, rfl⟩ := hlisted id hid
  exact ⟨o, hrow o ho, billedTotal_eq (fun q hq => hgood q.id q (hrow q hq)) hids hcopied hamounts ho⟩

/-! ### A described order -/

/-- Rewiring, at a price in whole dollars. -/
def rewiring (dollars : Fin 1000) : ChangeOrderLineIn where
  description := "Rewire opener".toList
  quantity := 1
  unitPrice := dollars
  taxable := true
  quantity_pos := by norm_num
  quantity_le := by norm_num
  unitPrice_nonneg := by positivity
  unitPrice_le := by
    have h : ((dollars : ℕ) : ℚ) < 1000 := by exact_mod_cast dollars.isLt
    linarith

theorem rewiring_whole (dollars : Fin 1000) : WholeCents (rewiring dollars) := by
  refine ⟨dollars * 100, ?_⟩
  change ((dollars : ℕ) : ℚ) = _
  push_cast
  ring

/-- A save with these lines, or with a bare amount of 700.00 and none. -/
def rewiringOrder (items : List ChangeOrderLineIn) : ChangeOrderIn where
  jobId := .notSent
  customerId := .notSent
  customerName := none
  title := "Rewiring".toList
  description := none
  reason := none
  amount := if items = [] then some 700 else none
  status := some .draft
  lineItems := items
  amount_nonneg := by
    split
    · rintro _ ⟨⟩
      norm_num
    · exact fun _ => nofun

def signingEnv : CoEnv := ⟨0, "office".toList, none⟩

/-- Created with one line and approved. -/
def signedRewiring : List CoCall := [.create signingEnv (rewiringOrder [rewiring 45]), .approve signingEnv 0]

/-- Created with one line that carries no money, priced at 700.00 by its amount, and approved. -/
def describedRewiring : List CoCall :=
  [.create signingEnv (rewiringOrder [rewiring 0]), .update signingEnv 0 (rewiringOrder []), .approve signingEnv 0]

/-- The bill of an invoice for order 0. -/
def firstOrderBill : ChangeOrderBilling := ⟨3, none, none, [0]⟩

def billedLines (calls : List CoCall) : List BilledLine :=
  ((billChangeOrders firstOrderBill (ChangeOrders.run calls)).toOption.map (·.2)).getD []

theorem bill_firstOrder (calls : List CoCall)
    (h : (billChangeOrders firstOrderBill (ChangeOrders.run calls)).toOption.isSome = true) :
    ∃ s', billChangeOrders firstOrderBill (ChangeOrders.run calls) = .ok (s', billedLines calls) := by
  unfold billedLines
  cases hbill : billChangeOrders firstOrderBill (ChangeOrders.run calls) with
  | error e =>
    rw [hbill] at h
    cases h
  | ok out => exact ⟨out.1, rfl⟩

theorem change_order_bills_as_signed_rewiring :
    billedTotal 0 (billedLines signedRewiring) = 4500 ∧
      BillsAsSigned (ChangeOrders.run signedRewiring) firstOrderBill (billedLines signedRewiring) := by
  refine ⟨by decide +kernel, ?_⟩
  obtain ⟨s', hbill⟩ := bill_firstOrder signedRewiring (by decide +kernel)
  refine change_order_bills_as_signed signedRewiring ?_ ⟨trivial, trivial, trivial⟩ firstOrderBill s' _ hbill
  intro call hcall
  rcases List.mem_cons.mp hcall with rfl | hcall
  · intro li hli
    rw [List.mem_singleton.mp hli]
    exact rewiring_whole 45
  · rw [List.mem_singleton.mp hcall]
    trivial

/-- A line without money is copied, and the 700.00 the customer signed are not billed. -/
theorem described_order_bills_nothing :
    ¬ ∀ calls : List CoCall, (∀ call ∈ calls, CentPrices call) → ∀ req s' billed,
      billChangeOrders req (ChangeOrders.run calls) = .ok (s', billed) →
        BillsAsSigned (ChangeOrders.run calls) req billed := by
  intro h
  obtain ⟨s', hbill⟩ := bill_firstOrder describedRewiring (by decide +kernel)
  have hcents : ∀ call ∈ describedRewiring, CentPrices call := by
    intro call hcall
    simp only [describedRewiring, List.mem_cons, List.not_mem_nil, or_false] at hcall
    rcases hcall with rfl | rfl | rfl
    · intro li hli
      rw [List.mem_singleton.mp hli]
      exact rewiring_whole 0
    · exact fun _ => nofun
    · trivial
  obtain ⟨o, ho, htotal⟩ := h describedRewiring hcents firstOrderBill s' _ hbill 0 (List.mem_singleton.mpr rfl)
  have hamount : ((ChangeOrders.run describedRewiring).order 0).map (·.amount) = some 70000 := by decide +kernel
  have hbilled : billedTotal 0 (billedLines describedRewiring) = 0 := by decide +kernel
  rw [ho, Option.map_some, ← htotal, hbilled] at hamount
  cases hamount

end Gdx.OrderDesk
