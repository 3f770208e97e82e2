import GdxDispatch.Lib.Draws
import GdxDispatch.Ledger.Fallback
import GdxDispatch.Ledger.DuplicateRepair

/-! Repairing duplicates never overshoots.

    The groups that are marked reversible draw on the drift of their invoice, so any part of them leaves the drift on its
    side. A reversal takes its entry's AR off every invoice the entry is attributed to, and takes the entry out of its
    group; the entries of the groups chosen are distinct, so each loses exactly what its group was counted for. -/

namespace Gdx
open Lib

section Scan
variable {uuid : Text → Option ℕ} {R : Rows} {L : Ledger} {company : ℕ}

/-! ### What the groups claim -/

/-- What is left of an invoice's drift. -/
def leftOf (R : Rows) (L : Ledger) (unclaimed : ℕ → Option ℤ) (id : ℕ) : ℤ := (unclaimed id).getD (invoiceDrift R L id)

/-- What one group does: it is held and leaves every drift, or it takes its AR off its invoice's. -/
inductive Claim (R : Rows) (L : Ledger) (unclaimed : ℕ → Option ℤ) (g : DuplicateGroup) :
    RepairRow → (ℕ → Option ℤ) → Prop
  | held {reason : String} {drift : Option ℤ} {unclaimed' : ℕ → Option ℤ}
      (left : ∀ id, leftOf R L unclaimed' id = leftOf R L unclaimed id) :
      Claim R L unclaimed g (g.held reason drift) unclaimed'
  | taken {row : RepairRow} {id : ℕ} (group : row.toDuplicateGroup = g) (reversible : row.reversible = true)
      (invoice : g.invoiceId = some id) (within : Toward (leftOf R L unclaimed id) g.arCents) :
      Claim R L unclaimed g row (Function.update unclaimed id (some (leftOf R L unclaimed id - g.arCents)))

theorem toward_of_claim {drift ar : ℤ} (hside : ¬ decide (0 < drift) ≠ decide (0 < ar)) (hle : ¬ |drift| < |ar|) :
    Toward drift ar := by
  have hside : 0 < drift ↔ 0 < ar := by simpa using hside
  have hle := not_lt.mp hle
  constructor
  · intro hd
    rw [abs_of_nonneg hd] at hle
    have := abs_le.mp hle
    omega
  · intro hd
    rw [abs_of_nonpos hd] at hle
    have := abs_le.mp hle
    omega

theorem claimDrift_cons (unclaimed : ℕ → Option ℤ) (g : DuplicateGroup) (gs : List DuplicateGroup) :
    ∃ row unclaimed', Claim R L unclaimed g row unclaimed' ∧
      claimDrift R L unclaimed (g :: gs) = row :: claimDrift R L unclaimed' gs := by
  rw [claimDrift]
  by_cases hzero : g.arCents = 0
  · rw [if_pos hzero]
    exact ⟨_, _, .held fun _ => rfl, rfl⟩
  rw [if_neg hzero]
  cases hinv : g.invoiceId with
  | none => exact ⟨_, _, .held fun _ => rfl, rfl⟩
  | some id =>
    by_cases hlater : g.laterEntryMatches = true
    · simp only [if_pos hlater]
      exact ⟨_, _, .held fun _ => rfl, rfl⟩
    simp only [if_neg hlater]
    by_cases hshort : decide (0 < leftOf R L unclaimed id) ≠ decide (0 < g.arCents) ∨
        |leftOf R L unclaimed id| < |g.arCents|
    · refine ⟨_, _, .held fun other => ?_, if_pos hshort⟩
      -- the drift is remembered as it was
      by_cases hid : other = id
      · subst hid
        rw [leftOf, Function.update_self]; rfl
      · rw [leftOf, Function.update_of_ne hid]; rfl
    · exact ⟨_, _, .taken rfl rfl hinv (toward_of_claim (not_or.mp hshort).1 (not_or.mp hshort).2), if_neg hshort⟩

theorem claimDrift_groups (unclaimed : ℕ → Option ℤ) (gs : List DuplicateGroup) :
    (claimDrift R L unclaimed gs).map RepairRow.toDuplicateGroup = gs := by
  induction gs generalizing unclaimed with
  | nil => rfl
  | cons g gs ih =>
    obtain ⟨row, unclaimed', hclaim, hcons⟩ := claimDrift_cons (R := R) (L := L) unclaimed g gs
    rw [hcons, List.map_cons, ih]
    cases hclaim with
    | held => rfl
    | taken group => rw [group]

/-- The reversible rows of an invoice. -/
def drawsOn (id : ℕ) (row : RepairRow) : Bool := row.reversible && row.invoiceId == some id

/-- Among the rows of an invoice, the reversible ones draw on what the earlier ones left of its drift. -/
theorem claimDrift_draws (id : ℕ) (unclaimed : ℕ → Option ℤ) (gs : List DuplicateGroup) :
    Draws (leftOf R L unclaimed id)
      (((claimDrift R L unclaimed gs).filter (drawsOn id)).map fun row => row.arCents) := by
  induction gs generalizing unclaimed with
  | nil => exact .nil _
  | cons g gs ih =>
    obtain ⟨row, unclaimed', hclaim, hcons⟩ := claimDrift_cons (R := R) (L := L) unclaimed g gs
    rw [hcons]
    cases hclaim with
    | held left =>
      rw [List.filter_cons_of_neg (by simp [drawsOn, DuplicateGroup.held]), ← left id]
      exact ih unclaimed'
    | @taken _ other group reversible invoice within =>
      have hrest := ih (Function.update unclaimed other (some (leftOf R L unclaimed other - g.arCents)))
      subst group
      by_cases hid : id = other
      · subst hid
        rw [List.filter_cons_of_pos (by simp [drawsOn, reversible, invoice]), List.map_cons]
        refine .cons within ?_
        rwa [leftOf, Function.update_self, Option.getD_some] at hrest
      · rw [List.filter_cons_of_neg (by simpa [drawsOn, reversible, invoice] using fun h => hid h.symm)]
        rwa [leftOf, Function.update_of_ne hid, ← leftOf] at hrest

/-! ### What a group holds -/

/-- The duplicates of a posting: its live entries but the earliest. -/
def Ledger.duplicatesOf (L : Ledger) (shot : OneShot) : List GlJournalEntry := (L.groupOf shot).tail

/-- A group is the live entries of its posting. -/
structure GroupOf (uuid : Text → Option ℕ) (R : Rows) (L : Ledger) (g : DuplicateGroup) : Prop where
  keeper : ∃ keeper, L.groupOf g.shot = keeper :: L.duplicatesOf g.shot ∧ keeper.id = g.keeperEntryId
  ids : g.duplicateEntryIds = (L.duplicatesOf g.shot).map GlJournalEntry.id
  ar : g.arCents = sumCents L.arOf (L.duplicatesOf g.shot)
  invoice : g.invoiceId = shotInvoiceId uuid R g.shot

theorem duplicateGroup_some {shot : OneShot} {g : DuplicateGroup} (h : duplicateGroup uuid R L company shot = some g) :
    g.shot = shot ∧ GroupOf uuid R L g := by
  unfold duplicateGroup at h
  cases hgroup : L.groupOf shot with
  | nil => simp [hgroup] at h
  | cons keeper ds =>
    cases ds with
    | nil => simp [hgroup] at h
    | cons d ds =>
      simp only [hgroup, Option.some.injEq] at h
      subst h
      have hdup : L.duplicatesOf shot = d :: ds := by rw [Ledger.duplicatesOf, hgroup]; rfl
      refine ⟨rfl, ⟨keeper, ?_, rfl⟩, ?_, ?_, rfl⟩
      · rw [hdup, hgroup]
      · rw [hdup]
      · rw [hdup]

theorem mem_duplicateGroups {g : DuplicateGroup} (h : g ∈ duplicateGroups uuid R L company) : GroupOf uuid R L g := by
  rw [duplicateGroups, (List.perm_insertionSort _ _).mem_iff] at h
  obtain ⟨shot, -, hshot⟩ := List.mem_filterMap.mp h
  exact (duplicateGroup_some hshot).2

/-- A posting has one group. -/
theorem duplicateGroups_nodup : ((duplicateGroups uuid R L company).map DuplicateGroup.shot).Nodup := by
  refine ((List.perm_insertionSort _ _).map _).nodup_iff.mpr ?_
  refine List.Nodup.map_on ?_ ?_
  · intro g hg g' hg' hshot
    obtain ⟨shot, -, h⟩ := List.mem_filterMap.mp hg
    obtain ⟨shot', -, h'⟩ := List.mem_filterMap.mp hg'
    rw [(duplicateGroup_some h).1, (duplicateGroup_some h').1] at hshot
    rw [hshot] at h
    exact Option.some.inj (h.symm.trans h')
  · refine (eraseDups_nodup _).filterMap fun shot shot' g h h' => ?_
    rw [← (duplicateGroup_some h).1, (duplicateGroup_some h').1]

theorem mem_groupOf {shot : OneShot} {e : GlJournalEntry} :
    e ∈ L.groupOf shot ↔ e ∈ L.entries ∧ e.status = .posted ∧ e.oneShot = some shot := by
  simp only [Ledger.groupOf, Ledger.liveOneShots, List.mem_filter, Bool.and_eq_true, isPosted_iff, decide_eq_true_eq]
  constructor
  · rintro ⟨⟨he, hp, -⟩, hs⟩; exact ⟨he, hp, hs⟩
  · rintro ⟨he, hp, hs⟩; exact ⟨⟨he, hp, by rw [hs]; rfl⟩, hs⟩

theorem oneShot_source {e : GlJournalEntry} {shot : OneShot} (h : e.oneShot = some shot) :
    e.sourceType = shot.sourceType ∧ e.sourceId = shot.sourceId ∧ (shot.sourceType, shot.event) ∈ ONE_SHOT_EVENTS := by
  unfold GlJournalEntry.oneShot at h
  split at h
  · split_ifs at h with hcond
    obtain ⟨rfl, rfl, hmem⟩ := hcond
    cases h
    exact ⟨rfl, rfl, hmem⟩
  · cases h

end Scan

/-! ### What the reversals do -/

section Reverse
variable {H : ContentHash} {L L' M : Ledger} {e r : GlJournalEntry} {at' : Option ℤ} {actor : Option Text}

/-- How many AR accounts carry the id. -/
def Ledger.arWeight (L : Ledger) (accountId : ℕ) : ℤ :=
  ((L.accounts.filter fun a => a.id == accountId && a.role == some .ar).length : ℤ)

theorem arOf_eq (L : Ledger) (e : GlJournalEntry) :
    L.arOf e = sumCents (fun l => L.arWeight l.accountId * l.amountCents) e.lines := by
  rw [Ledger.arOf, sumCents_flatMap]
  refine sumCents_congr fun l _ => ?_
  simp [sumCents, Ledger.arWeight]

theorem arOf_accounts (h : L'.accounts = L.accounts) : L'.arOf = L.arOf := by
  funext e
  rw [Ledger.arOf, Ledger.arOf, h]

/-- A mirror entry holds the AR of its original, the other way round. -/
theorem arOf_reversal (when' : ℤ) : L.arOf (e.reversal L when' actor) = -L.arOf e := by
  rw [arOf_eq, arOf_eq]
  change sumCents _ (e.lines.map (·.mirror e.entryNo)) = _
  induction e.lines with
  | nil => rfl
  | cons l lines ih =>
    rw [List.map_cons, sumCents_cons, sumCents_cons, ih]
    simp only [GlJournalLine.mirror]
    ring

/-- A choice of entries by their source. -/
def BySource (p : GlJournalEntry → Bool) : Prop :=
  ∀ x y : GlJournalEntry, x.sourceType = y.sourceType → x.sourceId = y.sourceId → p x = p y

/-- The entries `es` are reversed: live queries lose them, and the AR of every source loses what they hold. -/
structure Reversed (H : ContentHash) (es : List GlJournalEntry) (L L' : Ledger) : Prop where
  inv : JournalInv H L'
  accounts : L'.accounts = L.accounts
  query : ∀ q, LiveQuery q →
    L'.entries.filter q = (L.entries.filter q).filter fun x => !(es.map GlJournalEntry.id).contains x.id
  ar : ∀ p, BySource p →
    sumCents L.arOf (L'.entries.filter p) = sumCents L.arOf (L.entries.filter p) - sumCents L.arOf (es.filter p)

theorem Reversed.refl (hinv : JournalInv H L) : Reversed H [] L L :=
  ⟨hinv, rfl, fun _ _ => by simp, fun _ _ => by simp [sumCents]⟩

theorem Reversed.trans {es es' : List GlJournalEntry} (h : Reversed H es L M) (h' : Reversed H es' M L') :
    Reversed H (es ++ es') L L' := by
  refine ⟨h'.inv, h'.accounts.trans h.accounts, fun q hq => ?_, fun p hp => ?_⟩
  · rw [h'.query q hq, h.query q hq, List.filter_filter]
    refine List.filter_congr fun x _ => ?_
    simp [Bool.and_comm]
  · have hlast := h'.ar p hp
    rw [arOf_accounts h.accounts] at hlast
    rw [hlast, h.ar p hp, List.filter_append, sumCents_append]
    ring

/-- Marking an entry reversed changes no AR. -/
theorem sumCents_markReversed {p : GlJournalEntry → Bool} (hp : BySource p) (id rid : ℕ) (es : List GlJournalEntry) :
    sumCents L.arOf ((es.map fun x => if x.id = id then x.marked rid else x).filter p) =
      sumCents L.arOf (es.filter p) := by
  induction es with
  | nil => rfl
  | cons x es ih =>
    have hpx : p (if x.id = id then x.marked rid else x) = p x := hp _ _ (by split_ifs <;> rfl) (by split_ifs <;> rfl)
    have har : L.arOf (if x.id = id then x.marked rid else x) = L.arOf x := by split_ifs <;> rfl
    rw [List.map_cons, List.filter_cons, List.filter_cons, hpx]
    split
    · rw [sumCents_cons, sumCents_cons, ih, har]
    · exact ih

theorem reverse_reversed (hinv : JournalInv H L) (he : e ∈ L.entries) (hp : e.status = .posted)
    (h : reverseEntry e.id at' actor false L = .ok r L') : Reversed H [e] L L' := by
  refine ⟨reverseEntry_inv hinv h, ?_, fun q hq => ?_, fun p hps => ?_⟩
  · rw [reverse_at hinv he hp h]; rfl
  · rw [query_reverse hq hinv he hp h]
    exact List.filter_congr fun x _ => Bool.eq_iff_iff.mpr (by simp)
  · have hr : p (e.reversal L (at'.getD e.effectiveAt) actor) = p e := hps _ _ rfl rfl
    rw [reverse_at hinv he hp h]
    simp only [Ledger.markReversed, Ledger.insertRow]
    rw [sumCents_markReversed hps, List.filter_append, sumCents_append, List.filter_singleton, List.filter_singleton, hr]
    cases p e
    · simp [sumCents]
    · simp only [cond_true, sumCents_cons, arOf_reversal]
      simp [sumCents]
      ring

/-- The loop over the duplicates. -/
theorem reverseEach_reversed {es : List GlJournalEntry} (hinv : JournalInv H L)
    (hes : ∀ e ∈ es, e ∈ L.entries ∧ e.status = .posted) (hnd : (es.map GlJournalEntry.id).Nodup)
    (h : each (fun id => do let _ ← reverseEntry id at' actor false) (es.map GlJournalEntry.id) L = .ok () L') :
    Reversed H es L L' := by
  induction es generalizing L with
  | nil => cases h; exact .refl hinv
  | cons e es ih =>
    obtain ⟨hmem, hp⟩ := hes e List.mem_cons_self
    rw [List.map_cons, List.nodup_cons] at hnd
    rw [List.map_cons, each, bind_ok] at h
    obtain ⟨⟨⟩, M, hone, h⟩ := h
    rw [bind_ok] at hone
    obtain ⟨r, N, hrev, hone⟩ := hone
    cases hone
    have hfirst := reverse_reversed hinv hmem hp hrev
    refine hfirst.trans (ih hfirst.inv (fun x hx => ?_) hnd.2 h)
    obtain ⟨hxm, hxp⟩ := hes x (List.mem_cons_of_mem _ hx)
    refine ⟨mem_of_reversed_at hinv hmem hp hrev hxm fun hid => hnd.1 ?_, hxp⟩
    rw [← hid]
    exact List.mem_map_of_mem hx

/-- No reversal key spells a one-shot posting. -/
theorem oneShot_reversal {x : GlJournalEntry} {id : ℕ} (h : x.idempotencyKey = reversalKey id) : x.oneShot = none := by
  have hsplit : x.idempotencyKey.splitOn ':' = ["reversal".toList, str id] := by
    have hkey : reversalKey id = "reversal".toList ++ ':' :: str id := by simp [reversalKey, sepCons]
    have hid : (str id).splitOn ':' = [str id] := List.splitOn_eq_singleton (colon_notMem_numeral id)
    rw [h, hkey, List.splitOn_append_cons_self, List.splitOn_eq_singleton (by decide), hid]
    rfl
  rw [GlJournalEntry.oneShot, hsplit]

theorem liveQuery_shot (shot : OneShot) : LiveQuery fun e => e.isPosted && decide (e.oneShot = some shot) := by
  refine ⟨fun x hx => isPosted_iff.mp (Bool.and_eq_true .. ▸ hx).1, fun x id hkey => ?_⟩
  rw [oneShot_reversal hkey]
  simp

theorem groupOf_eq (shot : OneShot) :
    L.groupOf shot = L.entries.filter fun e => e.isPosted && decide (e.oneShot = some shot) := by
  rw [Ledger.groupOf, Ledger.liveOneShots, List.filter_filter]
  refine List.filter_congr fun e _ => ?_
  by_cases hs : e.oneShot = some shot <;> simp [hs]

/-- A group loses the entries that are reversed. -/
theorem Reversed.group {es : List GlJournalEntry} (h : Reversed H es L L') (shot : OneShot) :
    L'.groupOf shot = (L.groupOf shot).filter fun x => !(es.map GlJournalEntry.id).contains x.id := by
  rw [groupOf_eq, groupOf_eq, h.query _ (liveQuery_shot shot)]

/-- An invoice's receivable loses the AR of the entries attributed to it. -/
theorem Reversed.drift {es : List GlJournalEntry} {R : Rows} (h : Reversed H es L L') (invoice : Invoice) :
    driftCents R L' invoice = driftCents R L invoice - sumCents L.arOf (es.filter (attributed R invoice)) := by
  have hsource : BySource (attributed R invoice) := by
    intro x y ht hi
    simp only [attributed, GlJournalEntry.hasSource, ht, hi]
  have hbalance : ∀ K : Ledger, invoiceArBalanceCents R K invoice = sumCents K.arOf (K.entries.filter (attributed R invoice)) :=
    fun K => by rw [invoiceArBalanceCents, sumCents_flatMap]; rfl
  rw [driftCents, driftCents, hbalance, hbalance, arOf_accounts h.accounts, h.ar _ hsource]
  ring

end Reverse

/-! ### The groups chosen -/

section Chosen
variable {uuid : Text → Option ℕ} {R : Rows} {L L' : Ledger} {company : ℕ} {H : ContentHash}
  {rows chosen : List RepairRow} {at' : Option ℤ} {actor : Text} {invoice : Invoice}

/-- A posting of the invoice's, of its payments' or of its adjustments'. -/
def shotOn (R : Rows) (invoice : Invoice) (shot : OneShot) : Bool :=
  (shot.sourceType == "invoice".toList && shot.sourceId == str invoice.id) ||
    (shot.sourceType == "payment".toList && (R.paymentsOf invoice).any (shot.sourceId == str ·.id)) ||
    (shot.sourceType == "adjustment".toList && (R.adjustmentsOf invoice).any (shot.sourceId == str ·.id))

/-- The bills, with their payments and adjustments, are keyed by their ids. -/
structure Rows.BillsKeyed (R : Rows) : Prop where
  invoices : (R.invoices.map Invoice.id).Nodup
  payments : (R.payments.map Payment.id).Nodup
  adjustments : (R.adjustments.map InvoiceAdjustment.id).Nodup

theorem attributed_shot {e : GlJournalEntry} {shot : OneShot} (h : e.oneShot = some shot) :
    attributed R invoice e = shotOn R invoice shot := by
  obtain ⟨ht, hi, -⟩ := oneShot_source h
  simp only [attributed, shotOn, GlJournalEntry.hasSource, ht, hi]

/-- The scan measures such a posting against the invoice. -/
theorem shotInvoiceId_of_shotOn (huuid : ∀ id, uuid (str id) = some id) (hkeyed : R.BillsKeyed) {shot : OneShot}
    (h : shotOn R invoice shot = true) : shotInvoiceId uuid R shot = some invoice.id := by
  simp only [shotOn, Bool.or_eq_true, Bool.and_eq_true, beq_iff_eq, List.any_eq_true] at h
  rcases h with (⟨ht, hs⟩ | ⟨ht, p, hp, hs⟩) | ⟨ht, a, ha, hs⟩
  · rw [shotInvoiceId, hs, huuid, Option.bind_some, if_pos ht]
  · obtain ⟨hmem, howner⟩ := List.mem_filter.mp hp
    have hrow : rowOf Payment.id R.payments p.id = some p := (rowOf_eq_some_iff hkeyed.payments).mpr ⟨hmem, rfl⟩
    rw [shotInvoiceId, hs, huuid, Option.bind_some, ht, if_neg (by decide), if_pos rfl, hrow, Option.map_some,
      beq_iff_eq.mp howner]
  · obtain ⟨hmem, howner⟩ := List.mem_filter.mp ha
    have hrow : rowOf InvoiceAdjustment.id R.adjustments a.id = some a :=
      (rowOf_eq_some_iff hkeyed.adjustments).mpr ⟨hmem, rfl⟩
    rw [shotInvoiceId, hs, huuid, Option.bind_some, ht, if_neg (by decide), if_neg (by decide), hrow, Option.map_some,
      beq_iff_eq.mp howner]

/-- Reversible rows of one scan, in the order of the report. -/
structure Chosen (uuid : Text → Option ℕ) (R : Rows) (L : Ledger) (company : ℕ) (chosen : List RepairRow) : Prop where
  sublist : chosen.Sublist ((claimDrift R L (fun _ => none) (duplicateGroups uuid R L company)).filter (·.reversible))

theorem Chosen.groups (hc : Chosen uuid R L company chosen) :
    (chosen.map RepairRow.toDuplicateGroup).Sublist (duplicateGroups uuid R L company) := by
  have h := (hc.sublist.trans List.filter_sublist).map RepairRow.toDuplicateGroup
  rwa [claimDrift_groups] at h

theorem Chosen.groupOf (hc : Chosen uuid R L company chosen) {row : RepairRow} (hrow : row ∈ chosen) :
    GroupOf uuid R L row.toDuplicateGroup :=
  mem_duplicateGroups (hc.groups.subset (List.mem_map_of_mem hrow))

theorem Chosen.shot_inj (hc : Chosen uuid R L company chosen) : (chosen.map fun row => row.shot).Nodup := by
  have h := duplicateGroups_nodup.sublist (hc.groups.map DuplicateGroup.shot)
  rwa [List.map_map] at h

theorem duplicatesOf_shot {shot : OneShot} {e : GlJournalEntry} (h : e ∈ L.duplicatesOf shot) :
    e ∈ L.entries ∧ e.status = .posted ∧ e.oneShot = some shot := mem_groupOf.mp (List.mem_of_mem_tail h)

theorem groupOf_nodup (hinv : JournalInv H L) (shot : OneShot) : (L.groupOf shot).Nodup :=
  ((List.Nodup.of_map _ hinv.id_nodup).filter _).filter _

/-- The entries of the groups chosen. -/
def chosenEntries (L : Ledger) (chosen : List RepairRow) : List GlJournalEntry :=
  chosen.flatMap fun row => L.duplicatesOf row.shot

theorem mem_chosenEntries {e : GlJournalEntry} :
    e ∈ chosenEntries L chosen ↔ ∃ row ∈ chosen, e ∈ L.duplicatesOf row.shot := List.mem_flatMap

theorem chosenEntries_live {e : GlJournalEntry} (h : e ∈ chosenEntries L chosen) :
    e ∈ L.entries ∧ e.status = .posted := by
  obtain ⟨row, -, he⟩ := mem_chosenEntries.mp h
  obtain ⟨hmem, hp, -⟩ := duplicatesOf_shot he
  exact ⟨hmem, hp⟩

/-- No entry is in two of the groups. -/
theorem chosenEntries_nodup (hinv : JournalInv H L) (hc : Chosen uuid R L company chosen) :
    ((chosenEntries L chosen).map GlJournalEntry.id).Nodup := by
  have hnd : (chosenEntries L chosen).Nodup := by
    refine List.nodup_flatMap.mpr ⟨fun row _ => (groupOf_nodup hinv _).tail, ?_⟩
    refine (List.pairwise_map.mp hc.shot_inj).imp fun {row row'} hne => ?_
    intro e he he'
    obtain ⟨-, -, hs⟩ := duplicatesOf_shot he
    obtain ⟨-, -, hs'⟩ := duplicatesOf_shot he'
    exact hne (Option.some.inj (hs.symm.trans hs'))
  exact hnd.map_on fun x hx y hy hid => hinv.eq_of_id (chosenEntries_live hx).1 (chosenEntries_live hy).1 hid

/-- Reversing the groups reverses their entries. -/
theorem reverseGroups_reversed (hinv : JournalInv H L) (hc : Chosen uuid R L company chosen)
    (h : reverseGroups at' actor chosen L = .ok () L') : Reversed H (chosenEntries L chosen) L L' := by
  unfold reverseGroups at h
  rw [each_flatMap_ok] at h
  have hids : (chosen.flatMap fun row => row.duplicateEntryIds) = (chosenEntries L chosen).map GlJournalEntry.id := by
    rw [chosenEntries, List.map_flatMap]
    exact List.flatMap_congr fun row hrow => (hc.groupOf hrow).ids
  rw [hids] at h
  exact reverseEach_reversed hinv (fun e he => chosenEntries_live he) (chosenEntries_nodup hinv hc) h

/-- The amounts of the rows that are chosen out of the rows. -/
theorem sumCents_filter_ite {α : Type} (f : α → ℤ) (q : α → Bool) (xs : List α) :
    sumCents f (xs.filter q) = sumCents (fun x => if q x then f x else 0) xs := by
  induction xs with
  | nil => rfl
  | cons x xs ih =>
    rw [List.filter_cons, sumCents_cons, ← ih]
    split
    · rw [sumCents_cons]
    · rw [zero_add]

/-- What an invoice's receivable loses is what its groups were counted for. -/
theorem sumCents_chosenEntries (hc : Chosen uuid R L company chosen) :
    sumCents L.arOf ((chosenEntries L chosen).filter (attributed R invoice)) =
      ((chosen.filter fun row => shotOn R invoice row.shot).map fun row => row.arCents).sum := by
  change _ = sumCents (fun row : RepairRow => row.arCents) _
  rw [chosenEntries, List.filter_flatMap, sumCents_flatMap, sumCents_filter_ite]
  refine sumCents_congr fun row hrow => ?_
  have hsame : ∀ e ∈ L.duplicatesOf row.shot, attributed R invoice e = shotOn R invoice row.shot :=
    fun e he => attributed_shot (duplicatesOf_shot he).2.2
  rw [List.filter_congr hsame, (hc.groupOf hrow).ar]
  cases shotOn R invoice row.shot
  · simp [sumCents]
  · simp

/-- The groups of an invoice draw on its drift. -/
theorem Chosen.draws (huuid : ∀ id, uuid (str id) = some id) (hkeyed : R.BillsKeyed) (hc : Chosen uuid R L company chosen)
    (hinvoice : invoice ∈ R.invoices) :
    Draws (driftCents R L invoice)
      ((chosen.filter fun row => shotOn R invoice row.shot).map fun row => row.arCents) := by
  have hdraws := claimDrift_draws (R := R) (L := L) invoice.id (fun _ => none) (duplicateGroups uuid R L company)
  have hdrift : invoiceDrift R L invoice.id = driftCents R L invoice := by
    rw [invoiceDrift, Rows.invoice?, (rowOf_eq_some_iff hkeyed.invoices).mpr ⟨hinvoice, rfl⟩]; rfl
  rw [leftOf, Option.getD_none, hdrift] at hdraws
  refine hdraws.sublist (List.Sublist.map _ ?_)
  have hboth : (chosen.filter fun row => shotOn R invoice row.shot) =
      (chosen.filter (drawsOn invoice.id)).filter fun row => shotOn R invoice row.shot := by
    rw [List.filter_filter]
    refine List.filter_congr fun row hrow => ?_
    cases hshot : shotOn R invoice row.shot
    · rfl
    · have hrev : row.reversible = true := (List.mem_filter.mp (hc.sublist.subset hrow)).2
      have hid : row.invoiceId = some invoice.id :=
        (hc.groupOf hrow).invoice.trans (shotInvoiceId_of_shotOn huuid hkeyed hshot)
      simp [drawsOn, hrev, hid]
  rw [hboth]
  exact List.filter_sublist.trans ((hc.sublist.trans List.filter_sublist).filter _)

/-- The drift of no invoice grew or changed sides, and of the groups chosen the earliest entry alone is left. -/
structure Repaired (R : Rows) (chosen : List RepairRow) (L L' : Ledger) : Prop where
  drift : ∀ invoice ∈ R.invoices, Toward (driftCents R L invoice) (driftCents R L' invoice)
  keeper : ∀ row ∈ chosen, ∃ keeper duplicates, L.groupOf row.shot = keeper :: duplicates ∧
    keeper.id = row.keeperEntryId ∧ L'.groupOf row.shot = [keeper]

theorem Chosen.repaired (huuid : ∀ id, uuid (str id) = some id) (hkeyed : R.BillsKeyed) (hinv : JournalInv H L)
    (hc : Chosen uuid R L company chosen) (h : reverseGroups at' actor chosen L = .ok () L') :
    Repaired R chosen L L' := by
  have hrev := reverseGroups_reversed hinv hc h
  constructor
  · intro invoice hinvoice
    rw [hrev.drift, sumCents_chosenEntries hc]
    exact (hc.draws huuid hkeyed hinvoice).left
  · intro row hrow
    obtain ⟨keeper, hgroup, hid⟩ := (hc.groupOf hrow).keeper
    refine ⟨keeper, _, hgroup, hid, ?_⟩
    have hnd := groupOf_nodup hinv row.shot
    rw [hgroup, List.nodup_cons] at hnd
    have hkeeper : keeper ∈ L.entries ∧ keeper.status = .posted ∧ keeper.oneShot = some row.shot :=
      mem_groupOf.mp (by rw [hgroup]; exact List.mem_cons_self)
    have hkept : keeper.id ∉ (chosenEntries L chosen).map GlJournalEntry.id := by
      intro hmem
      obtain ⟨x, hx, hxid⟩ := List.mem_map.mp hmem
      obtain rfl := hinv.eq_of_id (chosenEntries_live hx).1 hkeeper.1 hxid
      obtain ⟨row', -, hx'⟩ := mem_chosenEntries.mp hx
      have hshot := Option.some.inj ((duplicatesOf_shot hx').2.2.symm.trans hkeeper.2.2)
      exact hnd.1 (hshot ▸ hx')
    have hgone : ∀ x ∈ L.duplicatesOf row.shot, x.id ∈ (chosenEntries L chosen).map GlJournalEntry.id :=
      fun x hx => List.mem_map_of_mem (mem_chosenEntries.mpr ⟨row, hrow, hx⟩)
    rw [hrev.group, hgroup, List.filter_cons_of_pos (by simpa using hkept)]
    congr 1
    exact List.filter_eq_nil_iff.mpr fun x hx => by simpa using hgone x hx

theorem chosen_of_scan (h : duplicateOneShotEntries uuid R L company = some rows)
    (hsub : chosen.Sublist (rows.filter (·.reversible))) : Chosen uuid R L company chosen := by
  unfold duplicateOneShotEntries at h
  split_ifs at h
  cases h
  exact ⟨hsub⟩

/-- Whatever part of the reversible groups is reversed, no drift overshoots and the earliest entry of each group stays; so
    it is for the groups that the repair itself picks. -/
theorem repair_never_overshoots (huuid : ∀ id, uuid (str id) = some id) (hkeyed : R.BillsKeyed) (hinv : JournalInv H L)
    (hscan : duplicateOneShotEntries uuid R L company = some rows) :
    (∀ chosen L', chosen.Sublist (rows.filter (·.reversible)) → reverseGroups at' actor chosen L = .ok () L' →
      Repaired R chosen L L') ∧
    ∀ picked L', reverseDuplicateOneShotEntries uuid R company actor at' L = .ok picked L' → Repaired R picked L L' := by
  refine ⟨fun chosen L' hsub h => (chosen_of_scan hscan hsub).repaired huuid hkeyed hinv h, fun picked L' h => ?_⟩
  unfold reverseDuplicateOneShotEntries at h
  split_ifs at h
  rw [hscan] at h
  simp only at h
  split at h
  · rename_i hrun
    cases h
    refine (chosen_of_scan hscan ?_).repaired huuid hkeyed hinv hrun
    have hboth : (rows.filter fun row => row.reversible && !row.blocked L at') =
        (rows.filter (·.reversible)).filter fun row => !row.blocked L at' := by
      rw [List.filter_filter]
      exact List.filter_congr fun row _ => Bool.and_comm _ _
    rw [hboth]
    exact List.filter_sublist
  · cases h

end Chosen

/-- 30.00 is owed on an invoice that opened at 50.00; its credit memo of 20.00 was posted, and posted again for 15.00. -/
def memoRows : Rows :=
  { eraRows with payments := [], adjustments := [⟨7, 1, .creditMemo, 2000, none, none, 110 * DAY⟩] }

def memoEvent (ev : String) (sourceType : String) (id : ℕ) (cents : ℤ) : PostingEvent :=
  ruleEvent 0 sourceType.toList (str id) ev.toList 110
    [eraInvoice.leg cents .ar "receivable", eraInvoice.leg (-cents) .refunds "credit"] none

def memoOps : List JournalOp :=
  [.post (memoEvent "opening" "invoice" 1 5000) false, .post (memoEvent "credit_memo" "adjustment" 7 (-2000)) false,
    .post (memoEvent "credit_memo" "adjustment" 7 (-1500)) false]

def memoLedger : Ledger := ((Book.mk Ledger.seeded []).run plainHash memoOps).ledger

/-- `UUID(text)`, of an id that was written as one. -/
def readId (text : Text) : Option ℕ :=
  if str (Nat.ofDigitChars 10 text 0) = text then some (Nat.ofDigitChars 10 text 0) else none

theorem readId_str (id : ℕ) : readId (str id) = some id := by
  have h : Nat.ofDigitChars 10 (str id) 0 = id := Nat.ofDigitChars_ten_toDigits
  rw [readId, h, if_pos rfl]

/-- The second memo is reversed: the drift of -15.00 is gone. -/
theorem memo_repaired : ∃ picked L', reverseDuplicateOneShotEntries readId memoRows 0 "pat".toList none memoLedger =
      .ok picked L' ∧ picked.map (fun row => row.arCents) = [-1500] ∧ driftCents memoRows memoLedger eraInvoice = -1500 ∧
    driftCents memoRows L' eraInvoice = 0 ∧ Repaired memoRows picked memoLedger L' := by
  have hinv : JournalInv plainHash memoLedger :=
    (run_inv memoOps (B := ⟨Ledger.seeded, []⟩) (.of_empty rfl chartOk_seeded) ⟨rfl, by simp⟩).1
  have hkeyed : memoRows.BillsKeyed := ⟨by decide, by decide, by decide⟩
  have hscan : (duplicateOneShotEntries readId memoRows memoLedger 0).isSome = true := by decide +kernel
  have hrun : (match reverseDuplicateOneShotEntries readId memoRows 0 "pat".toList none memoLedger with
      | .ok picked L' => decide (picked.map (fun row => row.arCents) = [-1500] ∧
          driftCents memoRows L' eraInvoice = 0)
      | .error _ _ => false) = true := by decide +kernel
  obtain ⟨rows, hrows⟩ := Option.isSome_iff_exists.mp hscan
  cases h : reverseDuplicateOneShotEntries readId memoRows 0 "pat".toList none memoLedger with
  | error err L' => rw [h] at hrun; cases hrun
  | ok picked L' =>
    rw [h] at hrun
    obtain ⟨hpicked, hdrift⟩ := of_decide_eq_true hrun
    exact ⟨picked, L', rfl, hpicked, by decide +kernel, hdrift,
      (repair_never_overshoots readId_str hkeyed hinv hrows).2 picked L' h⟩

end Gdx
