import GdxDispatch.Ledger.ReplayAtomic

/-! Which refusals of the replay are whole.

    The items of a replay have sources of their own, so what one of them writes is decided by the
    ledger before the replay started, and an item the report names is untouched exactly when its writes
    are not torn by the lock. -/

namespace Gdx
open Lib

variable {H : ContentHash} {clock : ShopClock} {R : Rows} {acct : Role → ℕ} {L L' M : Ledger} {company : ℕ}

/-- The sources of an item: its own row, or those of the invoice's payments. -/
def ReplayItem.source (R : Rows) : ReplayItem → Text → Text → Bool
  | .invoice i => oneSource "invoice".toList (str i.id)
  | .adjustment a _ => oneSource "adjustment".toList (str a.id)
  | .payments i => fun st sid => (R.paymentsOf i).any fun p => oneSource "payment".toList (str p.id) st sid
  | .expense x => oneSource "expense".toList (str x.id)

def ReplayItem.companyId : ReplayItem → ℕ
  | .invoice i => i.companyId
  | .adjustment _ i => i.companyId
  | .payments i => i.companyId
  | .expense x => x.companyId

/-- The dates of the writes the item needs, in order, read off the rows and the ledger before it. -/
def ReplayItem.writes (H : ContentHash) (clock : ShopClock) (R : Rows) (acct : Role → ℕ) (L : Ledger) :
    ReplayItem → List ℤ
  | .invoice i => invoiceWrites H R acct ACTOR L i
  | .adjustment a i => adjustmentWrites clock R L a i a.kind.event
  | .payments i =>
    if R.ledgerPostingEnabled i.companyId = false then []
    else (R.paymentsOf i).flatMap (paymentWrites H clock R acct ACTOR i L)
  | .expense x => expenseWrites H R acct ACTOR L x

/-- The lock lets the item's first write through and refuses a later one. -/
def ReplayItem.TornBy (H : ContentHash) (clock : ShopClock) (R : Rows) (acct : Role → ℕ) (L : Ledger)
    (item : ReplayItem) : Prop :=
  (lockGuard (L.latestLock item.companyId)).Torn (item.writes H clock R acct L)

/-- The item left its entries as they were. -/
def ReplayItem.Whole (R : Rows) (L L' : Ledger) (item : ReplayItem) : Prop :=
  L'.sourced (item.source R) = L.sourced (item.source R)

/-! ### One item -/

section Item
variable {item : ReplayItem}

theorem resettle_acts {i : Invoice} (hinv : JournalInv H L) (hseed : Seeded L i.companyId acct)
    (hnd : (R.payments.map (·.id)).Nodup) :
    Acts H (fun st sid => (ReplayItem.payments i).source R st sid = true) i.companyId
      (resettleInvoicePayments H clock R i ACTOR none) L ((ReplayItem.payments i).writes H clock R acct L) := by
  unfold ReplayItem.writes resettleInvoicePayments
  by_cases hoff : R.ledgerPostingEnabled i.companyId = false
  · simp only [hoff, Bool.not_false, if_true]
    exact .pure hinv ()
  · simp only [if_neg hoff]
    rw [Bool.not_eq_false] at hoff
    rw [hoff]
    simp only [Bool.not_true, Bool.false_eq_true, if_false]
    refine settleEach_acts hoff _ hinv hseed (hnd.sublist (List.filter_sublist.map _)) fun p hp => ?_
    exact List.any_eq_true.mpr ⟨p, hp, by simp [oneSource]⟩

/-- An item raises over its rows before it writes, or acts as its writes say. -/
theorem item_acts (hinv : JournalInv H L) (hseed : Seeded L item.companyId acct)
    (hnd : (R.payments.map (·.id)).Nodup) :
    (∃ e, e.isComposition = true ∧ item.run H clock R L = .error e L ∧ item.writes H clock R acct L = []) ∨
    Acts H (fun st sid => item.source R st sid = true) item.companyId (item.run H clock R) L
      (item.writes H clock R acct L) := by
  cases item with
  | invoice i => exact repostInvoiceIssuance_acts hinv hseed (by simp [ReplayItem.source, oneSource])
  | adjustment a i => exact Or.inr (adjustment_acts hinv hseed (by simp [ReplayItem.source, oneSource]))
  | payments i => exact Or.inr (resettle_acts hinv hseed hnd)
  | expense x => exact repostExpense_acts hinv hseed (by simp [ReplayItem.source, oneSource])

theorem sourced_filter {Q Q' : Text → Text → Bool} (hsub : ∀ st sid, Q' st sid = true → Q st sid = true) :
    L.sourced Q' = (L.sourced Q).filter fun e => Q' e.sourceType e.sourceId := by
  unfold Ledger.sourced
  rw [List.filter_filter]
  refine List.filter_congr fun e _ => ?_
  cases h : Q' e.sourceType e.sourceId with
  | true => simp [hsub _ _ h]
  | false => simp

/-- What an item writes is decided by the entries of its own sources. -/
theorem ReplayItem.writes_congr (hL : JournalInv H L) (hM : JournalInv H M) (hacc : M.accounts = L.accounts)
    (h : item.Whole R L M) : item.writes H clock R acct M = item.writes H clock R acct L := by
  cases item with
  | invoice i => exact invoiceWrites_congr hL hM hacc h
  | adjustment a i =>
    unfold ReplayItem.writes adjustmentWrites
    simp only [liveEventEntry_congr h]
  | payments i =>
    have heach : (R.paymentsOf i).flatMap (paymentWrites H clock R acct ACTOR i M) =
        (R.paymentsOf i).flatMap (paymentWrites H clock R acct ACTOR i L) := by
      refine List.flatMap_congr fun p hp => paymentWrites_congr hL hM ?_
      have hsub : ∀ st sid, oneSource "payment".toList (str p.id) st sid = true →
          (ReplayItem.payments i).source R st sid = true := fun st sid hs => List.any_eq_true.mpr ⟨p, hp, hs⟩
      rw [sourced_filter hsub, sourced_filter (L := L) hsub, h]
    exact congrArg (fun W => if R.ledgerPostingEnabled i.companyId = false then [] else W) heach
  | expense x => exact expenseWrites_congr hL hM hacc h

theorem length_sourced (Q : Text → Text → Bool) :
    L.entries.length = (L.sourced Q).length + (L.sourced fun st sid => !Q st sid).length :=
  (List.length_eq_length_filter_add _).trans rfl

/-- One caught item is whole unless its writes are torn. -/
theorem item_caught {e : LedgerError} (hinv : JournalInv H L) (hseed : Seeded L item.companyId acct)
    (hnd : (R.payments.map (·.id)).Nodup) (hrun : item.run H clock R L = .error e M) (hc : item.catches e = true) :
    Within H (fun st sid => item.source R st sid = true) L M ∧
      (item.Whole R L M ↔ ¬ item.TornBy H clock R acct L) := by
  rcases item_acts hinv hseed hnd with ⟨e', -, hrun', hw⟩ | hacts
  · rw [hrun'] at hrun
    cases hrun
    refine ⟨.refl hinv, iff_of_true rfl ?_⟩
    unfold ReplayItem.TornBy
    rw [hw]
    rintro ⟨⟨w, hw, -⟩, -⟩
    cases hw
  · have hwithin := hacts.within
    rw [after_error hrun] at hwithin
    refine ⟨hwithin, ?_⟩
    have hlocked : e.isPeriodLocked = true := by
      have hsound := hacts.sound e M hrun
      cases e <;> cases item <;> simp_all [ReplayItem.catches, LedgerError.isComposition, LedgerError.isPeriodLocked]
    rcases hacts.plan.refused hrun hlocked with ⟨hnt, hlog⟩ | ⟨ht, hgrew⟩
    · refine iff_of_true ?_ hnt
      unfold ReplayItem.Whole Ledger.sourced
      rw [show M.entries = L.entries from hlog]
    · refine iff_of_false (fun hwhole => ?_) (not_not_intro ht)
      have hrest := hwithin.others (fun st sid => !item.source R st sid) fun st sid hs => by rw [hs]; rfl
      have hlen := length_sourced (L := M) (item.source R)
      rw [hwhole, hrest, ← length_sourced] at hlen
      exact absurd (show M.entries.length = L.entries.length from hlen) (Nat.ne_of_gt hgrew)

theorem item_done (hinv : JournalInv H L) (hseed : Seeded L item.companyId acct)
    (hnd : (R.payments.map (·.id)).Nodup) (hrun : item.run H clock R L = .ok () M) :
    Within H (fun st sid => item.source R st sid = true) L M ∧ ¬ item.TornBy H clock R acct L := by
  rcases item_acts hinv hseed hnd with ⟨e', -, hrun', -⟩ | hacts
  · rw [hrun'] at hrun
    cases hrun
  · exact ⟨hacts.within_ok hrun, hacts.plan.not_torn hrun⟩

end Item

/-! ### One item after another -/

/-- No source is in both lists of items. -/
def Apart (R : Rows) (items items' : List ReplayItem) : Prop :=
  ∀ i ∈ items, ∀ j ∈ items', ∀ st sid, i.source R st sid = true → j.source R st sid = false

theorem Apart.symm {items items' : List ReplayItem} (h : Apart R items items') : Apart R items' items := by
  intro i hi j hj st sid his
  rw [Bool.eq_false_iff]
  intro hjs
  rw [h j hj i hi st sid hjs] at his
  cases his

/-- The items took the ledger from `L` to `L'` and `named` stand in the report. -/
structure Replayed (H : ContentHash) (clock : ShopClock) (R : Rows) (acct : Role → ℕ) (items : List ReplayItem)
    (L L' : Ledger) (named : Set ReplayItem) : Prop where
  within : Within H (fun st sid => ∃ item ∈ items, item.source R st sid = true) L L'
  known : ∀ item ∈ named, item ∈ items
  whole : (∀ item ∈ named, item.Whole R L L') ↔ ∀ item ∈ items, ¬ item.TornBy H clock R acct L

section Run
variable {items items' : List ReplayItem} {item : ReplayItem} {named named' : Set ReplayItem}

theorem Within.whole_apart (h : Within H (fun st sid => ∃ i ∈ items, i.source R st sid = true) L L')
    (hd : Apart R items [item]) : item.Whole R L L' := by
  refine h.others _ ?_
  rintro st sid ⟨i, hi, hs⟩
  exact hd i hi item (List.mem_singleton_self _) st sid hs

theorem TornBy_congr (hL : JournalInv H L) (hM : JournalInv H M) (hacc : M.accounts = L.accounts)
    (hlocks : M.locks = L.locks) (h : item.Whole R L M) :
    item.TornBy H clock R acct M ↔ item.TornBy H clock R acct L := by
  unfold ReplayItem.TornBy
  rw [ReplayItem.writes_congr hL hM hacc h, latestLock_congr hlocks]

theorem Replayed.nil (hinv : JournalInv H L) : Replayed H clock R acct [] L L ∅ :=
  ⟨.refl hinv, by simp, by simp⟩

theorem Replayed.append (hinv : JournalInv H L) (h : Replayed H clock R acct items L M named)
    (h' : Replayed H clock R acct items' M L' named') (hd : Apart R items items') :
    Replayed H clock R acct (items ++ items') L L' (named ∪ named') := by
  -- what one half names the other half leaves alone
  have hM : ∀ j ∈ items', j.Whole R L M := fun j hj =>
    h.within.whole_apart fun i hi _ hj' => by rw [List.mem_singleton.mp hj']; exact hd i hi j hj
  have hL' : ∀ i ∈ items, i.Whole R M L' := fun i hi =>
    h'.within.whole_apart fun j hj _ hi' => by rw [List.mem_singleton.mp hi']; exact hd.symm j hj i hi
  have htorn : ∀ j ∈ items', (j.TornBy H clock R acct M ↔ j.TornBy H clock R acct L) := fun j hj =>
    TornBy_congr hinv h.within.inv h.within.accounts h.within.locks (hM j hj)
  have hleft : (∀ i ∈ named, i.Whole R L L') ↔ ∀ i ∈ items, ¬ i.TornBy H clock R acct L := by
    rw [← h.whole]
    refine forall₂_congr fun i hi => ?_
    unfold ReplayItem.Whole
    rw [hL' i (h.known i hi)]
  have hright : (∀ j ∈ named', j.Whole R L L') ↔ ∀ j ∈ items', ¬ j.TornBy H clock R acct L := by
    have hwhole := h'.whole
    rw [forall₂_congr fun j hj => not_congr (htorn j hj)] at hwhole
    rw [← hwhole]
    refine forall₂_congr fun j hj => ?_
    unfold ReplayItem.Whole
    rw [hM j (h'.known j hj)]
  refine ⟨?_, ?_, ?_⟩
  · refine Within.trans (h.within.mono ?_) (h'.within.mono ?_)
    · rintro st sid ⟨i, hi, hs⟩
      exact ⟨i, List.mem_append_left _ hi, hs⟩
    · rintro st sid ⟨i, hi, hs⟩
      exact ⟨i, List.mem_append_right _ hi, hs⟩
  · rintro i (hi | hi)
    · exact List.mem_append_left _ (h.known i hi)
    · exact List.mem_append_right _ (h'.known i hi)
  · simp only [Set.mem_union, or_imp, forall_and, List.mem_append, hleft, hright]

theorem Replayed.done (hinv : JournalInv H L) (hseed : Seeded L item.companyId acct)
    (hnd : (R.payments.map (·.id)).Nodup) (hrun : item.run H clock R L = .ok () M) :
    Replayed H clock R acct [item] L M ∅ := by
  obtain ⟨hw, hnt⟩ := item_done hinv hseed hnd hrun
  exact ⟨hw.mono fun st sid hs => ⟨item, List.mem_singleton_self _, hs⟩, by simp, by simpa using hnt⟩

theorem Replayed.caught {e : LedgerError} (hinv : JournalInv H L) (hseed : Seeded L item.companyId acct)
    (hnd : (R.payments.map (·.id)).Nodup) (hrun : item.run H clock R L = .error e M) (hc : item.catches e = true) :
    Replayed H clock R acct [item] L M {item} := by
  obtain ⟨hw, hwhole⟩ := item_caught hinv hseed hnd hrun hc
  exact ⟨hw.mono fun st sid hs => ⟨item, List.mem_singleton_self _, hs⟩, by simp, by simpa using hwhole⟩

/-- The items a report names. -/
def PhaseResult.reported (r : PhaseResult) : Set ReplayItem := {item | ∃ x ∈ r.locked ++ r.refused, x.item = item}

theorem PhaseResult.reported_done (r : PhaseResult) : (r.done item).reported = r.reported := by
  unfold PhaseResult.done PhaseResult.reported
  split_ifs <;> rfl

theorem PhaseResult.reported_caught (r : PhaseResult) (e : LedgerError) :
    (r.caught item e).reported = r.reported ∪ {item} := by
  unfold PhaseResult.caught PhaseResult.reported
  ext i
  split_ifs <;> simp only [List.mem_append, List.mem_singleton, Set.mem_ofPred_eq, Set.mem_union,
    Set.mem_singleton_iff] <;> aesop

/-- One loop of the replay. -/
theorem replayEach_replayed (hnd : (R.payments.map (·.id)).Nodup) : ∀ (items : List ReplayItem) {L : Ledger}
    {r r' : PhaseResult}, JournalInv H L → Seeded L company acct → (∀ i ∈ items, i.companyId = company) →
    items.Pairwise (fun i j => Apart R [i] [j]) → replayEach H clock R items r L = .ok r' L' →
    ∃ named, r'.reported = r.reported ∪ named ∧ Replayed H clock R acct items L L' named
  | [], L, r, r', hinv, _, _, _, h => by
    cases h
    exact ⟨∅, by simp, .nil hinv⟩
  | item :: items, L, r, r', hinv, hseed, hco, hapart, h => by
    have hseed' : Seeded L item.companyId acct := by rwa [hco item (List.mem_cons_self ..)]
    have hrest : ∀ i ∈ items, i.companyId = company := fun i hi => hco i (List.mem_cons_of_mem _ hi)
    obtain ⟨hhead, htail⟩ := List.pairwise_cons.mp hapart
    have hd : Apart R [item] items := by
      intro i hi j hj
      exact hhead j hj i hi j (List.mem_singleton_self _)
    unfold replayEach at h
    cases hrun : item.run H clock R L with
    | ok u M =>
      rw [hrun] at h
      have hone := Replayed.done hinv hseed' hnd hrun
      obtain ⟨named, hnamed, hreplayed⟩ := replayEach_replayed hnd items hone.within.inv
        (hseed.congr hone.within.accounts) hrest htail h
      refine ⟨∅ ∪ named, by rw [hnamed, r.reported_done, Set.empty_union], ?_⟩
      exact hone.append hinv hreplayed hd
    | error e M =>
      rw [hrun] at h
      by_cases hc : item.catches e = true
      · simp only [if_pos hc] at h
        have hone := Replayed.caught hinv hseed' hnd hrun hc
        obtain ⟨named, hnamed, hreplayed⟩ := replayEach_replayed hnd items hone.within.inv
          (hseed.congr hone.within.accounts) hrest htail h
        refine ⟨{item} ∪ named, by rw [hnamed, r.reported_caught, Set.union_assoc], ?_⟩
        exact hone.append hinv hreplayed hd
      · simp only [if_neg hc] at h
        cases h

end Run

/-! ### The whole replay -/

/-- Primary keys. -/
structure Rows.Keyed (R : Rows) : Prop where
  invoices : (R.invoices.map (·.id)).Nodup
  payments : (R.payments.map (·.id)).Nodup
  adjustments : (R.adjustments.map (·.id)).Nodup
  expenses : (R.expenses.map (·.id)).Nodup

/-- The table an item is a row of, and its id there. -/
def ReplayItem.key : ReplayItem → ℕ × ℕ
  | .invoice i => (0, i.id)
  | .adjustment a _ => (1, a.id)
  | .payments i => (2, i.id)
  | .expense x => (3, x.id)

theorem oneSource_apart {st sid st' sid' st₁ sid₁ : Text} (hne : st ≠ st' ∨ sid ≠ sid')
    (h : oneSource st sid st₁ sid₁ = true) : oneSource st' sid' st₁ sid₁ = false := by
  simp only [oneSource, Bool.and_eq_true, beq_iff_eq] at h
  rw [h.1, h.2]
  simp only [oneSource, Bool.and_eq_false_iff, beq_eq_false_iff_ne]
  exact hne

/-- A payment is of one invoice. -/
theorem paymentsOf_apart {i j : Invoice} (hkeyed : R.Keyed) (hne : i.id ≠ j.id) {p q : Payment}
    (hp : p ∈ R.paymentsOf i) (hq : q ∈ R.paymentsOf j) : str p.id ≠ str q.id := by
  simp only [Rows.paymentsOf, List.mem_filter, beq_iff_eq] at hp hq
  intro hid
  have heq : p = q := List.inj_on_of_nodup_map hkeyed.payments hp.1 hq.1 (str_inj.mp hid)
  rw [← hp.2, ← hq.2, heq] at hne
  exact hne rfl

/-- Items of different rows have no source in common. -/
theorem apart_of_key_ne (hkeyed : R.Keyed) {i j : ReplayItem} (hne : i.key ≠ j.key) : Apart R [i] [j] := by
  intro i' hi j' hj st sid hs
  rw [List.mem_singleton] at hi hj
  subst hi hj
  have hpay : ∀ {k : Invoice} {st' sid' : Text}, "payment".toList ≠ st' →
      (ReplayItem.payments k).source R st sid = true → oneSource st' sid' st sid = false := by
    intro k st' sid' hst hany
    obtain ⟨p, -, hp⟩ := List.any_eq_true.mp hany
    exact oneSource_apart (Or.inl hst) hp
  have hpay' : ∀ {k : Invoice} {st' sid' : Text}, st' ≠ "payment".toList → oneSource st' sid' st sid = true →
      (ReplayItem.payments k).source R st sid = false := by
    intro k st' sid' hst hone
    exact List.any_eq_false.mpr fun p _ => Bool.eq_false_iff.mp (oneSource_apart (Or.inl hst) hone)
  cases i' <;> cases j'
  case payments.payments i j =>
    obtain ⟨p, hp, hone⟩ := List.any_eq_true.mp hs
    refine List.any_eq_false.mpr fun q hq => Bool.eq_false_iff.mp (oneSource_apart (Or.inr ?_) hone)
    exact paymentsOf_apart hkeyed (fun hid => hne (by simp [ReplayItem.key, hid])) hp hq
  case payments.invoice => exact hpay (by decide) hs
  case payments.adjustment => exact hpay (by decide) hs
  case payments.expense => exact hpay (by decide) hs
  case invoice.payments => exact hpay' (by decide) hs
  case adjustment.payments => exact hpay' (by decide) hs
  case expense.payments => exact hpay' (by decide) hs
  case invoice.invoice i j =>
    exact oneSource_apart (Or.inr fun h => hne (by simp [ReplayItem.key, str_inj.mp h])) hs
  case adjustment.adjustment a i b j =>
    exact oneSource_apart (Or.inr fun h => hne (by simp [ReplayItem.key, str_inj.mp h])) hs
  case expense.expense x y =>
    exact oneSource_apart (Or.inr fun h => hne (by simp [ReplayItem.key, str_inj.mp h])) hs
  all_goals exact oneSource_apart (Or.inl (by decide)) hs

/-- The rows of one table are items of different keys. -/
theorem pairwise_keys {α : Type} {rows : List α} {id : α → ℕ} (item : α → ReplayItem) (table : ℕ)
    (hnd : (rows.map id).Nodup) (hkey : ∀ a, (item a).key = (table, id a)) :
    (rows.map item).Pairwise fun i j => i.key ≠ j.key := by
  rw [List.pairwise_map]
  refine (List.pairwise_map.mp hnd).imp ?_
  intro a b hab
  rw [hkey a, hkey b]
  exact fun h => hab (Prod.mk.inj h).2

theorem replayAdjustments_ids (hkeyed : R.Keyed) : ((replayAdjustments R company).map (·.1.id)).Nodup := by
  unfold List.Nodup
  rw [List.pairwise_map]
  refine List.Pairwise.filterMap _ (fun a b hab x hx y hy => ?_) (List.pairwise_map.mp hkeyed.adjustments)
  obtain ⟨i, -, rfl⟩ := Option.map_eq_some_iff.mp hx
  obtain ⟨j, -, rfl⟩ := Option.map_eq_some_iff.mp hy
  exact hab

/-- Rows of one table under predicates that exclude each other. -/
theorem nodup_ids_append {rows : List Invoice} {p q : Invoice → Bool} (hnd : (rows.map (·.id)).Nodup)
    (hpq : ∀ i, p i = true → q i = true → False) : ((rows.filter p ++ rows.filter q).map (·.id)).Nodup := by
  rw [List.map_append, List.nodup_append]
  refine ⟨hnd.sublist (List.filter_sublist.map _), hnd.sublist (List.filter_sublist.map _), ?_⟩
  intro a ha b hb hab
  obtain ⟨i, hi, rfl⟩ := List.mem_map.mp ha
  obtain ⟨j, hj, hji⟩ := List.mem_map.mp hb
  rw [List.mem_filter] at hi hj
  have hij : i = j := List.inj_on_of_nodup_map hnd hi.1 hj.1 (hab.trans hji.symm)
  exact hpq i hi.2 (hij ▸ hj.2)

/-- The invoices whose payments the report may name: those replayed, and the era voids. -/
theorem replayPayments_ids (company : ℕ) (hkeyed : R.Keyed) :
    ((replayPayments R company ++ (voidsWithLivePayment R company).filter (preCutoverEra R ·)).map (·.id)).Nodup := by
  have hco : ((companyInvoices R company).map (·.id)).Nodup :=
    hkeyed.invoices.sublist (List.filter_sublist.map _)
  have hvoid : ((voidsWithLivePayment R company).map (·.id)).Nodup := hco.sublist (List.filter_sublist.map _)
  have hsub : ((voidsWithLivePayment R company).filter (!preCutoverEra R ·) ++
      (voidsWithLivePayment R company).filter (preCutoverEra R ·)).Perm (voidsWithLivePayment R company) :=
    List.perm_append_comm.trans (List.filter_append_perm _ _)
  unfold replayPayments
  rw [List.append_assoc]
  refine ((hsub.append_left _).map _).nodup_iff.mpr ?_
  refine nodup_ids_append hco fun i hnot hvoid => ?_
  simp only [decide_eq_true_eq, Bool.and_eq_true, beq_iff_eq] at hnot hvoid
  exact hnot hvoid.1

/-- All the items the report may name, replayed or not. -/
def namableItems (R : Rows) (company : ℕ) (cutover : ℤ) : List ReplayItem :=
  replayItems R company cutover ++ (eraVoidRefusals R company).map (·.item)

theorem pairwise_keys_append {items items' : List ReplayItem} (table : ℕ)
    (h : items.Pairwise fun i j => i.key ≠ j.key) (h' : items'.Pairwise fun i j => i.key ≠ j.key)
    (ht : ∀ i ∈ items, i.key.1 = table) (ht' : ∀ i ∈ items', table < i.key.1) :
    (items ++ items').Pairwise fun i j => i.key ≠ j.key := by
  refine List.pairwise_append.mpr ⟨h, h', fun i hi j hj hij => ?_⟩
  have hi := ht i hi
  have hj := ht' j hj
  rw [hij] at hi
  omega

theorem namableItems_keys (hkeyed : R.Keyed) (cutover : ℤ) :
    (namableItems R company cutover).Pairwise fun i j => i.key ≠ j.key := by
  have hinvs : ((replayIssued R company).map (·.id)).Nodup := hkeyed.invoices.sublist
    ((List.filter_sublist.trans (List.filter_sublist.trans List.filter_sublist)).map _)
  have hadjs : (((replayAdjustments R company).filter (!insideOpening R cutover ·)).map (·.1.id)).Nodup :=
    (replayAdjustments_ids hkeyed).sublist (List.filter_sublist.map _)
  have hexps : ((replayExpenses R company cutover).map (·.id)).Nodup :=
    hkeyed.expenses.sublist (List.filter_sublist.map _)
  have htable : ∀ {α : Type} {rows : List α} {item : α → ReplayItem} (table : ℕ),
      (∀ a, (item a).key.1 = table) → ∀ i ∈ rows.map item, i.key.1 = table := by
    intro α rows item table hitem i hi
    obtain ⟨a, -, rfl⟩ := List.mem_map.mp hi
    exact hitem a
  -- table by table, the era voids beside the other payment groups
  have hpays := pairwise_keys_append 2 (pairwise_keys ReplayItem.payments 2 (replayPayments_ids company hkeyed) fun _ => rfl)
    (pairwise_keys ReplayItem.expense 3 hexps fun _ => rfl) (htable 2 fun _ => rfl)
    fun i hi => by rw [htable 3 (fun _ => rfl) i hi]; omega
  have hmids := pairwise_keys_append 1 (pairwise_keys (fun a => ReplayItem.adjustment a.1 a.2) 1 hadjs fun _ => rfl)
    hpays (htable 1 fun _ => rfl) fun i hi => by
      rcases List.mem_append.mp hi with hi | hi
      · rw [htable 2 (fun _ => rfl) i hi]; omega
      · rw [htable 3 (fun _ => rfl) i hi]; omega
  have hall := pairwise_keys_append 0 (pairwise_keys ReplayItem.invoice 0 hinvs fun _ => rfl) hmids
    (htable 0 fun _ => rfl) fun i hi => by
      rcases List.mem_append.mp hi with hi | hi
      · rw [htable 1 (fun _ => rfl) i hi]; omega
      rcases List.mem_append.mp hi with hi | hi
      · rw [htable 2 (fun _ => rfl) i hi]; omega
      · rw [htable 3 (fun _ => rfl) i hi]; omega
  refine (List.Perm.pairwise_iff (fun h => h.symm) ?_).mp hall
  unfold namableItems replayItems eraVoidRefusals
  rw [List.map_append, List.map_map, List.append_assoc, List.append_assoc, List.append_assoc, List.append_assoc]
  exact (List.perm_append_comm.append_left _).append_left _ |>.append_left _

theorem replayItems_company {cutover : ℤ} {item : ReplayItem} (h : item ∈ replayItems R company cutover) :
    item.companyId = company := by
  have hinv : ∀ i ∈ companyInvoices R company, i.companyId = company := by
    intro i hi
    simp only [companyInvoices, List.mem_filter, Bool.and_eq_true, beq_iff_eq] at hi
    exact hi.2.1
  have hrep : ∀ i ∈ replayInvoices R company, i.companyId = company := fun i hi => hinv i (List.mem_of_mem_filter hi)
  simp only [replayItems, List.mem_append, List.mem_map] at h
  rcases h with ((⟨i, hi, rfl⟩ | ⟨⟨a, i⟩, hai, rfl⟩) | ⟨i, hi, rfl⟩) | ⟨x, hx, rfl⟩
  · exact hrep i (List.mem_of_mem_filter hi)
  · simp only [replayAdjustments, List.mem_filter, List.mem_filterMap, Option.map_eq_some_iff, Prod.mk.injEq] at hai
    obtain ⟨⟨b, -, j, hj, -, rfl⟩, -⟩ := hai
    exact hrep j (List.mem_of_find?_eq_some hj)
  · rcases List.mem_append.mp hi with hi | hi
    · exact hrep i hi
    · exact hinv i (List.mem_of_mem_filter (List.mem_of_mem_filter hi))
  · simp only [replayExpenses, List.mem_filter, Bool.and_eq_true, beq_iff_eq] at hx
    exact hx.2.1

theorem apart_of_pairwise {items items' : List ReplayItem} (hkeyed : R.Keyed)
    (h : (items ++ items').Pairwise fun i j => i.key ≠ j.key) : Apart R items items' := by
  intro i hi j hj
  exact apart_of_key_ne hkeyed ((List.pairwise_append.mp h).2.2 i hi j hj) i (List.mem_singleton_self _) j
    (List.mem_singleton_self _)

theorem PhaseResult.reported_refused (r : PhaseResult) (xs : List ReplayRefusal) :
    ({ r with refused := r.refused ++ xs } : PhaseResult).reported =
      r.reported ∪ {item | item ∈ xs.map (·.item)} := by
  unfold PhaseResult.reported
  ext item
  simp only [List.mem_append, List.mem_map, Set.mem_ofPred_eq, Set.mem_union]
  constructor
  · rintro ⟨x, hx | hx | hx, rfl⟩
    · exact Or.inl ⟨x, Or.inl hx, rfl⟩
    · exact Or.inl ⟨x, Or.inr hx, rfl⟩
    · exact Or.inr ⟨x, hx, rfl⟩
  · rintro (⟨x, hx | hx, rfl⟩ | ⟨x, hx, rfl⟩)
    · exact ⟨x, Or.inl hx, rfl⟩
    · exact ⟨x, Or.inr (Or.inl hx), rfl⟩
    · exact ⟨x, Or.inr (Or.inr hx), rfl⟩

/-- The four loops. -/
theorem replayPhases_replayed {cutover : ℤ} {r : PhaseResult} (hkeyed : R.Keyed) (hinv : JournalInv H L)
    (hseed : Seeded L company acct) (h : replayPhases H clock R company cutover L = .ok r L') :
    ∃ named, r.reported = named ∪ {item | item ∈ (eraVoidRefusals R company).map (·.item)} ∧
      Replayed H clock R acct (replayItems R company cutover) L L' named := by
  have hco : ∀ item ∈ replayItems R company cutover, item.companyId = company := fun _ hi =>
    replayItems_company hi
  have hkeys : (replayItems R company cutover).Pairwise fun i j => i.key ≠ j.key :=
    (List.pairwise_append.mp (namableItems_keys hkeyed cutover)).1
  unfold replayPhases at h
  unfold replayItems at hco hkeys ⊢
  generalize (replayIssued R company).map ReplayItem.invoice = A at h hco hkeys ⊢
  generalize ((replayAdjustments R company).filter (!insideOpening R cutover ·)).map
    (fun a => ReplayItem.adjustment a.1 a.2) = B at h hco hkeys ⊢
  generalize (replayPayments R company).map ReplayItem.payments = C at h hco hkeys ⊢
  generalize (replayExpenses R company cutover).map ReplayItem.expense = D at h hco hkeys ⊢
  have hd1 := apart_of_pairwise hkeyed hkeys
  have hkeys1 := List.pairwise_append.mp hkeys
  have hd2 := apart_of_pairwise hkeyed hkeys1.1
  have hkeys2 := List.pairwise_append.mp hkeys1.1
  have hd3 := apart_of_pairwise hkeyed hkeys2.1
  have hkeys3 := List.pairwise_append.mp hkeys2.1
  have happ : ∀ {items : List ReplayItem}, items.Pairwise (fun i j => i.key ≠ j.key) →
      items.Pairwise fun i j => Apart R [i] [j] := fun hp => hp.imp fun hne => apart_of_key_ne hkeyed hne
  rw [bind_ok] at h
  obtain ⟨r₁, L₁, h₁, h⟩ := h
  rw [bind_ok] at h
  obtain ⟨r₂, L₂, h₂, h⟩ := h
  rw [bind_ok] at h
  obtain ⟨r₃, L₃, h₃, h₄⟩ := h
  obtain ⟨n₁, hn₁, hA⟩ := replayEach_replayed hkeyed.payments A hinv hseed
    (fun i hi => hco i (by simp [hi])) (happ hkeys3.1) h₁
  obtain ⟨n₂, hn₂, hB⟩ := replayEach_replayed hkeyed.payments B hA.within.inv (hseed.congr hA.within.accounts)
    (fun i hi => hco i (by simp [hi])) (happ hkeys3.2.1) h₂
  have hAB := hA.append hinv hB hd3
  obtain ⟨n₃, hn₃, hC⟩ := replayEach_replayed hkeyed.payments C hAB.within.inv (hseed.congr hAB.within.accounts)
    (fun i hi => hco i (by simp [hi])) (happ hkeys2.2.1) h₃
  have hABC := hAB.append hinv hC hd2
  obtain ⟨n₄, hn₄, hD⟩ := replayEach_replayed hkeyed.payments D hABC.within.inv (hseed.congr hABC.within.accounts)
    (fun i hi => hco i (by simp [hi])) (happ hkeys1.2.1) h₄
  refine ⟨_, ?_, hABC.append hinv hD hd1⟩
  rw [hn₄, show ∀ n, PhaseResult.reported { r₃ with skipped := n } = r₃.reported from fun _ => rfl, hn₃,
    PhaseResult.reported_refused, hn₂,
    show ∀ n, PhaseResult.reported { r₁ with skipped := n } = r₁.reported from fun _ => rfl, hn₁]
  rw [show PhaseResult.reported ⟨0, 0, 0, [], []⟩ = ∅ by simp [PhaseResult.reported], Set.empty_union]
  ext item
  simp only [Set.mem_union]
  tauto

/-- The items the replay reports as locked or refused are exactly as they were before it, if and only
    if for no item the lock allowed the first of its writes and refused a later one. -/
theorem replay_refusals_whole (H : ContentHash) (clock : ShopClock) (R : Rows) (acct : Role → ℕ) (company : ℕ)
    (cutover : ℤ) (L L' : Ledger) (result : PhaseResult) (hcut : R.cutoverDate company = some cutover)
    (hkeyed : R.Keyed) (hinv : JournalInv H L) (hseed : Seeded L company acct)
    (hrun : runReplay H clock R company L = .ok result L') :
    (∀ r ∈ result.locked ++ result.refused, r.item.Whole R L L') ↔
      ∀ item ∈ replayItems R company cutover, ¬ item.TornBy H clock R acct L := by
  unfold runReplay at hrun
  by_cases hoff : (!R.ledgerPostingEnabled company) = true
  · rw [if_pos hoff] at hrun
    cases hrun
  rw [if_neg hoff] at hrun
  simp only [hcut] at hrun
  rw [bind_ok] at hrun
  obtain ⟨r, M, hphases, hrest⟩ := hrun
  cases hrest
  obtain ⟨named, hnamed, hreplayed⟩ := replayPhases_replayed hkeyed hinv hseed hphases
  rw [← hreplayed.whole]
  have hvoids : ∀ item ∈ (eraVoidRefusals R company).map (·.item), item.Whole R L L' := fun item hitem =>
    hreplayed.within.whole_apart fun i hi j hj => by
      rw [List.mem_singleton.mp hj]
      exact apart_of_pairwise hkeyed (namableItems_keys hkeyed cutover) i hi item hitem
  have hreport : ∀ item, item ∈ r.reported ↔ item ∈ named ∨ item ∈ (eraVoidRefusals R company).map (·.item) := by
    intro item
    rw [hnamed]
    rfl
  constructor
  · intro hall item hitem
    obtain ⟨x, hx, rfl⟩ := (hreport item).mpr (Or.inl hitem)
    exact hall x hx
  · intro hall x hx
    rcases (hreport x.item).mp ⟨x, hx, rfl⟩ with hn | hv
    · exact hall x.item hn
    · exact hvoids x.item hv

/-- An invoice of the day given, after the cutover. -/
def datedInvoice (day : ℤ) : Invoice := { eraInvoice with invoiceDate := some day, balanceDue := 10000 }

def datedRows (day : ℤ) : Rows :=
  { eraRows with
    invoices := [datedInvoice day]
    lines := [⟨1, 1, "door", 10000, false, none, false⟩]
    payments := [] }

def closedLedger : Ledger := { Ledger.seeded with locks := [⟨120, 0⟩] }

/-- The report on an invoice the lock through day 120 refused. -/
def lockedReport (day refused : ℤ) (created : ℕ) : PhaseResult :=
  ⟨0, 0, created, [⟨.invoice (datedInvoice day), .raised (.periodLocked 120 refused)⟩], []⟩

/-- An invoice dated in the closed month is refused whole. -/
theorem replay_refusals_whole_closed_month :
    (∀ item ∈ replayItems (datedRows 110) 0 100,
        ¬ item.TornBy plainHash utcClock (datedRows 110) seededAcct closedLedger) ∧
      ∀ r ∈ (lockedReport 110 110 0).locked ++ (lockedReport 110 110 0).refused,
        r.item.Whole (datedRows 110) closedLedger (after (runReplay plainHash utcClock (datedRows 110) 0) closedLedger) := by
  have hwhole := replay_refusals_whole plainHash utcClock (datedRows 110) seededAcct 0 100 closedLedger _
    (lockedReport 110 110 0) rfl ⟨by decide, by decide, by decide, by decide⟩
    (.of_empty rfl ⟨by decide +kernel, by decide +kernel⟩) (seeded_seededAcct.congr rfl)
    (returns_ok (by decide +kernel))
  have hone : ∀ item ∈ replayItems (datedRows 110) 0 100,
      (item.writes plainHash utcClock (datedRows 110) seededAcct closedLedger).length ≤ 1 := by
    decide +kernel
  have htorn : ∀ item ∈ replayItems (datedRows 110) 0 100,
      ¬ item.TornBy plainHash utcClock (datedRows 110) seededAcct closedLedger := fun item hitem =>
    Guard.not_torn_of_length (hone item hitem)
  exact ⟨htorn, hwhole.mpr htorn⟩

/-- The invoice was booked on day 110, the month was closed, and the invoice was then dated to day
    130: the replay books it again, reports it as locked, and leaves both entries live. -/
theorem replay_tears_redated_invoice :
    let booked := after (runReplay plainHash utcClock (datedRows 110) 0) Ledger.seeded
    let closed := { booked with locks := [⟨120, 0⟩] }
    returns (runReplay plainHash utcClock (datedRows 130) 0) closed (lockedReport 130 110 1) = true ∧
      ¬ ∀ r ∈ (lockedReport 130 110 1).locked ++ (lockedReport 130 110 1).refused,
        r.item.Whole (datedRows 130) closed (after (runReplay plainHash utcClock (datedRows 130) 0) closed) := by
  intro booked closed
  refine ⟨by decide +kernel, fun hall => ?_⟩
  have hone := congrArg List.length (hall ⟨.invoice (datedInvoice 130), .raised (.periodLocked 120 110)⟩
    (by simp [lockedReport]))
  revert hone
  decide +kernel

end Gdx
