import GdxDispatch.Lib.Runs
import GdxDispatch.ChangeOrders.Orders

/-! What a call does to one change order.

    Each route writes one row or stamps several; `Wrote` says for each what the row is afterwards, and `Created` what a
    new row is. Invariants of single orders follow from these two by `ChangeOrders.run_invariant`. -/

namespace Gdx.OrderDesk

open Lib

variable {s s' : ChangeOrders} {call : CoCall} {env : CoEnv} {payload : ChangeOrderIn} {id : ℕ} {o o' : ChangeOrder}

/-- Ids are a primary key, and new ones are new. -/
structure ChangeOrders.Keyed (s : ChangeOrders) : Prop where
  nodup : (s.orders.map (·.id)).Nodup
  lt_next : ∀ o ∈ s.orders, o.id < s.nextId

/-- The row under an id. -/
def ChangeOrders.order (s : ChangeOrders) (id : ℕ) : Option ChangeOrder := rowOf (·.id) s.orders id

/-- An order that takes a bare amount: it is not billed, and its lines carry no money or half a cent less or more. -/
def ChangeOrder.Takes (o : ChangeOrder) (a : ℚ) : Prop :=
  o.billedInvoiceId = none ∧ (o.linesSum ≠ 0 → |(o.linesSum / 100 : ℚ) - a| ≤ 5 / 1000)

/-- A row after the pricing part of a save. -/
inductive Repriced (payload : ChangeOrderIn) (o o' : ChangeOrder) : Prop
  | lines (hitems : payload.lineItems ≠ []) (hlines : o'.lines = payload.lineItems.map (·.stored))
      (hamount : o'.amount = amountOf payload.lineItems)
  | bare (a : ℚ) (hitems : payload.lineItems = []) (hsent : payload.amount = some a) (htakes : o.Takes a)
      (hlines : o'.lines = o.lines) (hamount : o'.amount = moneyCents a)
  | kept (hlines : o'.lines = o.lines) (hamount : o'.amount = o.amount)

/-- What a call makes of the row it writes. -/
inductive Wrote : CoCall → ChangeOrder → ChangeOrder → Prop
  | update {env : CoEnv} {id : ℕ} {payload : ChangeOrderIn} {o o' : ChangeOrder} (hid : o.id = id)
      (hfree : o.billedInvoiceId = none) (hfree' : o'.billedInvoiceId = none) (hpriced : Repriced payload o o') :
      Wrote (.update env id payload) o o'
  | approve {env : CoEnv} {id : ℕ} {o : ChangeOrder} (rate : Option ℚ) (hid : o.id = id)
      (hrate : o.status.signed = true → rate = o.taxRate) :
      Wrote (.approve env id) o { o with
        status := .approved, approvedBy := some env.actor, approvedAt := some env.now, taxRate := rate }
  | decline {id : ℕ} {o : ChangeOrder} (hid : o.id = id) : Wrote (.decline id) o { o with status := .declined }
  | delete {env : CoEnv} {id : ℕ} {o : ChangeOrder} (hid : o.id = id) (hfree : o.billedInvoiceId = none) :
      Wrote (.delete env id) o { o with deletedAt := some env.now }
  | bill {req : ChangeOrderBilling} {o : ChangeOrder} (hclaims : req.claims o = true) :
      Wrote (.bill req) o { o with billedInvoiceId := some req.invoiceId }
  | release {invoiceId : ℕ} {o : ChangeOrder} : Wrote (.release invoiceId) o { o with billedInvoiceId := none }

/-- A new row: unbilled, with the lines of the request. -/
inductive Created : CoCall → ChangeOrder → Prop
  | create {env : CoEnv} {payload : ChangeOrderIn} {o : ChangeOrder} (hfree : o.billedInvoiceId = none)
      (hlines : o.lines = payload.lineItems.map (·.stored))
      (hamount : payload.lineItems ≠ [] → o.amount = amountOf payload.lineItems) : Created (.create env payload) o

/-! ### The routes, one by one -/

theorem stampTaxRate_eq (env : CoEnv) (o : ChangeOrder) :
    stampTaxRate env o = { o with taxRate := env.rate.orElse fun _ => o.taxRate } := by
  unfold stampTaxRate
  cases env.rate <;> rfl

theorem live_ok (h : s.live id = .ok o) : s.order id = some o := by
  unfold ChangeOrders.live at h
  split at h
  · rename_i co hrow
    split at h
    · cases h
    · cases h
      exact hrow
  · cases h

theorem createChangeOrder_ok (h : createChangeOrder env payload s = .ok s') :
    ∃ o, s' = { s with orders := s.orders ++ [o], nextId := s.nextId + 1 } ∧ o.id = s.nextId ∧
      Created (.create env payload) o := by
  unfold createChangeOrder at h
  split at h
  · cases h
  · obtain ⟨jobId, -, h⟩ := except_bind_ok.mp h
    obtain ⟨customerId, -, h⟩ := except_bind_ok.mp h
    cases h
    rw [stampTaxRate_eq]
    exact ⟨_, rfl, rfl, .create rfl rfl fun hne => if_neg hne⟩

theorem repriced_ok {linked priced : ChangeOrder} (h : linked.repriced payload = .ok priced)
    (hlines : linked.lines = o.lines) (hamount : linked.amount = o.amount) (hfree : o.billedInvoiceId = none) :
    Repriced payload o priced ∧ priced.id = linked.id ∧ priced.billedInvoiceId = linked.billedInvoiceId := by
  unfold ChangeOrder.repriced at h
  split at h
  · rename_i hitems
    cases h
    exact ⟨.lines hitems rfl rfl, rfl, rfl⟩
  · rename_i hitems
    split at h
    · cases h
      exact ⟨.kept hlines hamount, rfl, rfl⟩
    · rename_i a hsent
      have hsum : linked.linesSum = o.linesSum := by rw [ChangeOrder.linesSum, hlines, ChangeOrder.linesSum]
      split at h
      · cases h
      · rename_i hnear
        cases h
        have htakes : o.Takes a := by
          refine ⟨hfree, fun hmoney => not_lt.mp fun hfar => ?_⟩
          rw [← hsum] at hmoney hfar
          exact hnear ⟨fun hnone => hmoney (by simp [ChangeOrder.linesSum, hnone]), hmoney, hfar⟩
        exact ⟨.bare a (not_not.mp hitems) hsent htakes hlines rfl, rfl, rfl⟩

/-- Stamping the rate leaves lines and amount. -/
theorem Repriced.stamp (h : Repriced payload o o') (env : CoEnv) : Repriced payload o (stampTaxRate env o') := by
  rw [stampTaxRate_eq]
  cases h with
  | lines hitems hlines hamount => exact .lines hitems hlines hamount
  | bare a hitems hsent htakes hlines hamount => exact .bare a hitems hsent htakes hlines hamount
  | kept hlines hamount => exact .kept hlines hamount

/-- So does setting the status. -/
theorem Repriced.restatus (h : Repriced payload o o') (status : CoStatus) :
    Repriced payload o { o' with status := status } := by
  cases h with
  | lines hitems hlines hamount => exact .lines hitems hlines hamount
  | bare a hitems hsent htakes hlines hamount => exact .bare a hitems hsent htakes hlines hamount
  | kept hlines hamount => exact .kept hlines hamount

theorem updateChangeOrder_ok (h : updateChangeOrder env id payload s = .ok s') :
    ∃ o o', s.order id = some o ∧ s' = s.put o' ∧ o'.id = o.id ∧ Wrote (.update env id payload) o o' := by
  unfold updateChangeOrder at h
  obtain ⟨o, hlive, h⟩ := except_bind_ok.mp h
  have hrow := live_ok hlive
  split at h
  · cases h
  · rename_i hbilled
    obtain ⟨jobLink, -, h⟩ := except_bind_ok.mp h
    obtain ⟨customerLink, -, h⟩ := except_bind_ok.mp h
    dsimp only at h
    split at h
    · cases h
    · obtain ⟨priced, hpriced, h⟩ := except_bind_ok.mp h
      cases h
      have hfree : o.billedInvoiceId = none := by simpa using hbilled
      obtain ⟨hre, hid, hb⟩ := repriced_ok (o := o) hpriced rfl rfl hfree
      refine ⟨o, _, hrow, rfl, ?_, .update (key_of_rowOf hrow) hfree ?_ ?_⟩
      · split
        · rw [stampTaxRate_eq]
          exact hid
        · exact hid
      · split
        · rw [stampTaxRate_eq]
          exact hb.trans hfree
        · exact hb.trans hfree
      · split
        · exact (hre.restatus _).stamp env
        · exact hre.restatus _

theorem approveChangeOrder_ok (h : approveChangeOrder env id s = .ok s') :
    ∃ o o', s.order id = some o ∧ s' = s.put o' ∧ o'.id = o.id ∧ Wrote (.approve env id) o o' := by
  unfold approveChangeOrder at h
  obtain ⟨o, hlive, h⟩ := except_bind_ok.mp h
  cases h
  have hrow := live_ok hlive
  rw [stampTaxRate_eq]
  by_cases hsigned : o.status.signed = true
  · rw [if_pos hsigned]
    exact ⟨o, _, hrow, rfl, rfl, .approve o.taxRate (key_of_rowOf hrow) fun _ => rfl⟩
  · rw [if_neg hsigned]
    exact ⟨o, _, hrow, rfl, rfl, .approve _ (key_of_rowOf hrow) fun h => absurd h hsigned⟩

theorem declineChangeOrder_ok (h : declineChangeOrder id s = .ok s') :
    ∃ o o', s.order id = some o ∧ s' = s.put o' ∧ o'.id = o.id ∧ Wrote (.decline id) o o' := by
  unfold declineChangeOrder at h
  obtain ⟨o, hlive, h⟩ := except_bind_ok.mp h
  cases h
  have hrow := live_ok hlive
  exact ⟨o, _, hrow, rfl, rfl, .decline (key_of_rowOf hrow)⟩

theorem deleteChangeOrder_ok (h : deleteChangeOrder env id s = .ok s') :
    ∃ o o', s.order id = some o ∧ s' = s.put o' ∧ o'.id = o.id ∧ Wrote (.delete env id) o o' := by
  unfold deleteChangeOrder at h
  obtain ⟨o, hlive, h⟩ := except_bind_ok.mp h
  have hrow := live_ok hlive
  split at h
  · cases h
  · rename_i hbilled
    cases h
    exact ⟨o, _, hrow, rfl, rfl, .delete (key_of_rowOf hrow) (by simpa using hbilled)⟩

/-! ### Any call -/

/-- What a call makes of the table. -/
inductive Shape (call : CoCall) (s : ChangeOrders) : ChangeOrders → Prop
  | same : Shape call s s
  | append {o : ChangeOrder} (hid : o.id = s.nextId) (hnew : Created call o) :
      Shape call s { s with orders := s.orders ++ [o], nextId := s.nextId + 1 }
  | put {id : ℕ} {o o' : ChangeOrder} (hrow : s.order id = some o) (hid : o'.id = o.id) (hwrote : Wrote call o o') :
      Shape call s (s.put o')
  | map {f : ChangeOrder → ChangeOrder} (hid : ∀ o, (f o).id = o.id) (hwrote : ∀ o, f o = o ∨ Wrote call o (f o)) :
      Shape call s { s with orders := s.orders.map f }

/-- A route that writes one row when it succeeds. -/
theorem Shape.route {x : Except CoRefusal ChangeOrders}
    (hx : ∀ s', x = .ok s' → ∃ o o', s.order id = some o ∧ s' = s.put o' ∧ o'.id = o.id ∧ Wrote call o o') :
    Shape call s (x.toOption.getD s) := by
  cases x with
  | error e => exact .same
  | ok s' =>
    obtain ⟨o, o', hrow, hput, hid, hwrote⟩ := hx s' rfl
    change Shape call s s'
    rw [hput]
    exact .put hrow hid hwrote

theorem bill_orders {req : ChangeOrderBilling} {billed : List BilledLine} (h : billChangeOrders req s = .ok (s', billed)) :
    s' = { s with orders := s.orders.map (·.stamped req) } := by
  unfold billChangeOrders at h
  split at h
  · cases h
  · obtain ⟨copied, -, h⟩ := except_bind_ok.mp h
    obtain ⟨amounts, -, h⟩ := except_bind_ok.mp h
    cases h
    rfl

theorem step_shape (s : ChangeOrders) (call : CoCall) : Shape call s (s.step call) := by
  cases call with
  | create env payload =>
    simp only [ChangeOrders.step]
    cases hcreate : createChangeOrder env payload s with
    | error e => exact .same
    | ok s' =>
      obtain ⟨o, rfl, hid, hnew⟩ := createChangeOrder_ok hcreate
      exact .append hid hnew
  | update env id payload => exact .route fun _ => updateChangeOrder_ok
  | approve env id => exact .route fun _ => approveChangeOrder_ok
  | decline id => exact .route fun _ => declineChangeOrder_ok
  | delete env id => exact .route fun _ => deleteChangeOrder_ok
  | bill req =>
    simp only [ChangeOrders.step]
    cases hbill : billChangeOrders req s with
    | error e => exact .same
    | ok out =>
      change Shape _ s out.1
      rw [bill_orders hbill]
      refine .map (fun o => ?_) fun o => ?_
      · unfold ChangeOrder.stamped
        split <;> rfl
      · unfold ChangeOrder.stamped
        split
        · rename_i hclaims
          exact .inr (.bill hclaims)
        · exact .inl rfl
  | release invoiceId =>
    refine .map (fun o => ?_) fun o => ?_
    · split <;> rfl
    · split
      · exact .inr .release
      · exact .inl rfl

theorem Shape.keyed (h : Shape call s s') (hk : s.Keyed) : s'.Keyed := by
  cases h with
  | same => exact hk
  | @append o hid _ =>
    refine ⟨?_, fun q hq => ?_⟩
    · rw [List.map_append, List.nodup_append]
      refine ⟨hk.nodup, List.nodup_singleton _, fun i hi j hj => ?_⟩
      obtain ⟨q, hq, rfl⟩ := List.mem_map.mp hi
      rw [List.map_singleton, List.mem_singleton] at hj
      rw [hj, hid]
      exact (hk.lt_next q hq).ne
    · rcases List.mem_append.mp hq with hq | hq
      · exact (hk.lt_next q hq).trans (Nat.lt_succ_self _)
      · rw [List.mem_singleton.mp hq, hid]
        exact Nat.lt_succ_self _
  | @put id o o' hrow hid _ =>
    refine ⟨?_, fun q hq => ?_⟩
    · rw [ChangeOrders.put, keys_putRow]
      exact hk.nodup
    · rcases mem_putRow.mp hq with ⟨hq, -⟩ | ⟨rfl, -⟩
      · exact hk.lt_next q hq
      · rw [hid]
        exact hk.lt_next o (mem_of_rowOf hrow)
  | @map f hid _ =>
    refine ⟨?_, fun q hq => ?_⟩
    · simpa only [List.map_map, Function.comp_def, hid] using hk.nodup
    · obtain ⟨o, ho, rfl⟩ := List.mem_map.mp hq
      rw [hid]
      exact hk.lt_next o ho

/-- A call keeps an order as it was or writes it. -/
theorem Shape.row (h : Shape call s s') (hk : s.Keyed) (hrow : s.order id = some o) :
    ∃ o', s'.order id = some o' ∧ (o' = o ∨ Wrote call o o') := by
  cases h with
  | same => exact ⟨o, hrow, .inl rfl⟩
  | @append new hid _ =>
    have hlt := hk.lt_next o (mem_of_rowOf hrow)
    rw [key_of_rowOf hrow, ← hid] at hlt
    exact ⟨o, (rowOf_append_ne hlt.ne).trans hrow, .inl rfl⟩
  | @put id₁ o₁ o₁' hrow₁ hid hwrote =>
    have hkey : o₁'.id = id₁ := hid.trans (key_of_rowOf hrow₁)
    by_cases hne : id = id₁
    · subst hne
      obtain rfl : o = o₁ := Option.some.inj (hrow.symm.trans hrow₁)
      refine ⟨o₁', ?_, .inr hwrote⟩
      rw [← hkey]
      exact rowOf_putRow_self (hkey.symm ▸ hrow : rowOf (·.id) s.orders o₁'.id = some o)
    · exact ⟨o, (rowOf_putRow_ne (hkey.symm ▸ hne)).trans hrow, .inl rfl⟩
  | @map f hid hwrote =>
    refine ⟨f o, ?_, hwrote o⟩
    rw [ChangeOrders.order, rowOf_map hid]
    exact congrArg _ hrow

/-- An order that was not there is one the call created. -/
theorem Shape.new (h : Shape call s s') (hnone : s.order id = none) (hrow : s'.order id = some o) :
    Created call o := by
  cases h with
  | same =>
    rw [hnone] at hrow
    cases hrow
  | @append new hid hnew =>
    by_cases hne : id = new.id
    · subst hne
      rw [ChangeOrders.order, rowOf_append_self hnone] at hrow
      cases hrow
      exact hnew
    · rw [ChangeOrders.order, rowOf_append_ne hne] at hrow
      exact absurd (hnone.symm.trans hrow) nofun
  | put _ _ _ =>
    rw [ChangeOrders.put, ChangeOrders.order, rowOf_putRow_none hnone] at hrow
    cases hrow
  | @map f hid _ =>
    rw [ChangeOrders.order, rowOf_map hid] at hrow
    rw [ChangeOrders.order] at hnone
    rw [hnone] at hrow
    cases hrow

/-! ### Runs -/

/-- Every order has the property. -/
def ChangeOrders.All (P : ChangeOrder → Prop) (s : ChangeOrders) : Prop := ∀ id o, s.order id = some o → P o

theorem empty_keyed : ChangeOrders.empty.Keyed := ⟨List.nodup_nil, fun _ => nofun⟩

theorem step_keyed (hk : s.Keyed) (call : CoCall) : (s.step call).Keyed := (step_shape s call).keyed hk

theorem run_keyed (calls : List CoCall) : (ChangeOrders.run calls).Keyed :=
  foldl_keeps (fun _ call hk => step_keyed hk call) empty_keyed

/-- What new orders have and what every fitting call keeps, every order has after a fitting run. -/
theorem run_all {P : ChangeOrder → Prop} {Fit : ChangeOrders → CoCall → Prop}
    (hnew : ∀ {s call o}, Fit s call → Created call o → P o)
    (hwrote : ∀ {s call o o'}, Fit s call → s.order o.id = some o → P o → Wrote call o o' → P o')
    {calls : List CoCall} (h : Along ChangeOrders.step Fit .empty calls) : (ChangeOrders.run calls).All P := by
  have hstep : ∀ s call, s.Keyed ∧ s.All P → Fit s call → (s.step call).Keyed ∧ (s.step call).All P := by
    rintro s call ⟨hk, hall⟩ hfit
    refine ⟨step_keyed hk call, fun id o' hrow' => ?_⟩
    cases hrow : s.order id with
    | none => exact hnew hfit ((step_shape s call).new hrow hrow')
    | some o =>
      obtain ⟨o₁, hrow₁, hwas⟩ := (step_shape s call).row hk hrow
      obtain rfl : o' = o₁ := Option.some.inj (hrow'.symm.trans hrow₁)
      rcases hwas with rfl | hwas
      · exact hall id _ hrow
      · exact hwrote hfit (key_of_rowOf hrow ▸ hrow) (hall id o hrow) hwas
  exact (h.keeps hstep ⟨empty_keyed, fun _ _ => nofun⟩).2

end Gdx.OrderDesk
