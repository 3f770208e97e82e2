import GdxDispatch.Billing.Sources
import GdxDispatch.Billing.FirstHour

/-! No source is billed twice.

    A request that is accepted claims sources that no live invoice holds, and the lines it saves bill what
    it claimed. So the stamps and the live invoices tell the same story in every state, as long as a request
    names each part on one line, names parts on lines that it saves, and does not leave a part of its list
    off its lines. -/

namespace Gdx

open Lib Claimable

/-! ### Claims -/

def BillingDb.live (db : BillingDb) (o : ℕ) : Prop := ∃ i ∈ db.invoices, i.id = o ∧ i.void = false

def BillingDb.holds (db : BillingDb) (o : ℕ) (x : Source) : Prop := ∃ i ∈ db.invoices, i.id = o ∧ x ∈ i.sources

/-- The ids of the four tables, and which closeout each one supersedes. -/
def BillingDb.keys (db : BillingDb) : List ℕ × List ℕ × List ℕ × List (ℕ × Option ℕ) :=
  (db.parts.map key, db.orders.map key, db.entries.map key, db.closeouts.map fun c => (c.row.id, c.row.supersedesId))

/-- No claim recorded a negative number of hours. -/
def HoursNonneg (db : BillingDb) : Prop := ∀ c ∈ db.closeouts, ∀ h ∈ c.row.manHoursBilled, 0 ≤ h

/-- Ids are unique in their table and were all given out; a closeout supersedes an older one. -/
structure Keyed (db : BillingDb) : Prop where
  parts : (db.parts.map key).Nodup
  orders : (db.orders.map key).Nodup
  entries : (db.entries.map key).Nodup
  closeouts : (db.closeouts.map key).Nodup
  partsLt : ∀ x ∈ db.parts.map key, x < db.nextId
  ordersLt : ∀ x ∈ db.orders.map key, x < db.nextId
  entriesLt : ∀ x ∈ db.entries.map key, x < db.nextId
  closeoutsLt : ∀ x ∈ db.closeouts.map key, x < db.nextId
  older : ∀ c ∈ db.closeouts, ∀ p ∈ c.row.supersedesId, p < c.row.id

/-- Invoice `k` claims some sources: they are free, they get its stamp, and nothing else changes. -/
structure Claims (k : ℕ) (C : List Source) (db db' : BillingDb) : Prop where
  invoices : db'.invoices = db.invoices
  nextId : db'.nextId = db.nextId
  job : db'.job = db.job
  keys : db'.keys = db.keys
  free : ∀ x ∈ C, ∀ o ∈ db.stamp x, ¬db.live o
  stamped : ∀ x, db'.stamp x = if x ∈ C then some k else db.stamp x
  hours : HoursNonneg db → HoursNonneg db'

section Claims

variable {k : ℕ} {db db₁ db' : BillingDb} {C C' : List Source}

theorem Keyed.of_keys (h : Keyed db) (hkeys : db'.keys = db.keys) (hnext : db.nextId ≤ db'.nextId) :
    Keyed db' := by
  simp only [BillingDb.keys, Prod.mk.injEq] at hkeys
  obtain ⟨hp, ho, he, hlinks⟩ := hkeys
  have hc : db'.closeouts.map key = db.closeouts.map key := by
    simpa [List.map_map, Function.comp_def, key] using congrArg (List.map Prod.fst) hlinks
  refine ⟨hp ▸ h.parts, ho ▸ h.orders, he ▸ h.entries, hc ▸ h.closeouts, ?_, ?_, ?_, ?_, ?_⟩
  · exact hp ▸ fun x hx => (h.partsLt x hx).trans_le hnext
  · exact ho ▸ fun x hx => (h.ordersLt x hx).trans_le hnext
  · exact he ▸ fun x hx => (h.entriesLt x hx).trans_le hnext
  · exact hc ▸ fun x hx => (h.closeoutsLt x hx).trans_le hnext
  · intro c hc' p hp'
    have hmem : (c.row.id, c.row.supersedesId) ∈ db.closeouts.map fun c => (c.row.id, c.row.supersedesId) :=
      hlinks ▸ List.mem_map_of_mem hc'
    obtain ⟨q, hq, heq⟩ := List.mem_map.mp hmem
    obtain ⟨hid, hsup⟩ := Prod.mk.inj heq
    exact hid ▸ h.older q hq p (hsup ▸ hp')

theorem live_congr (h : db'.invoices = db.invoices) (o : ℕ) : db'.live o ↔ db.live o := by
  unfold BillingDb.live
  rw [h]

theorem Claims.refl (k : ℕ) (db : BillingDb) : Claims k [] db db :=
  ⟨rfl, rfl, rfl, rfl, by simp, by simp, id⟩

theorem Claims.trans (h : Claims k C db db₁) (h' : Claims k C' db₁ db') : Claims k (C ++ C') db db' := by
  refine ⟨h'.invoices.trans h.invoices, h'.nextId.trans h.nextId, h'.job.trans h.job, h'.keys.trans h.keys,
    ?_, ?_, fun hn => h'.hours (h.hours hn)⟩
  · intro x hx o ho
    by_cases hC : x ∈ C
    · exact h.free x hC o ho
    · have hx' : x ∈ C' := (List.mem_append.mp hx).resolve_left hC
      rw [← live_congr h.invoices]
      refine h'.free x hx' o ?_
      rw [h.stamped, if_neg hC]
      exact ho
  · intro x
    rw [h'.stamped, h.stamped]
    by_cases hC' : x ∈ C'
    · simp [hC']
    · by_cases hC : x ∈ C <;> simp [hC, hC']

theorem Claims.keyed (h : Claims k C db db') (hk : Keyed db) : Keyed db' := hk.of_keys h.keys h.nextId.ge

end Claims

/-! ### What each operation claims -/

/-- A table claimed by one update: the ids asked for get the stamp and were free. -/
structure TableClaim {ρ : Type} [Claimable ρ ℕ ℕ] (k : ℕ) (ids : List ℕ) (rows rows' : List ρ) : Prop where
  keys : rows'.map key = rows.map key
  free : ∀ x ∈ ids, holderOf rows x = none
  stamped : ∀ x, holderOf rows' x = if x ∈ ids then some k else holderOf rows x

/-- An update of free rows that reaches every id asked for. -/
theorem tableClaim_of {ρ : Type} [Claimable ρ ℕ ℕ] {rows : List ρ} {sel : ρ → Bool} {ids : List ℕ} (k : ℕ)
    (hkeys : (rows.map key).Nodup) (hsel : ∀ r ∈ rows, sel r = true → key r ∈ ids ∧ holder r = none)
    (hall : ∀ x ∈ ids, ∃ r ∈ rows, sel r = true ∧ key r = x) : TableClaim k ids rows (claimRows k sel rows) :=
  ⟨keys_claimRows k sel rows,
    holderOf_claimable (P := (· = none)) hkeys (fun r hr hs => (hsel r hr hs).2) hall,
    holderOf_claimRows k hkeys (fun r hr hs => (hsel r hr hs).1) hall⟩

section Operations

variable {k : ℕ} {db db' : BillingDb} {ids : List ℕ}

theorem TableClaim.free_sources {ρ : Type} [Claimable ρ ℕ ℕ] {rows rows' : List ρ} (h : TableClaim k ids rows rows')
    {source : ℕ → Source} (hstamp : ∀ x, db.stamp (source x) = holderOf rows x) :
    ∀ x ∈ ids.map source, ∀ o ∈ db.stamp x, ¬db.live o := by
  intro x hx o ho
  obtain ⟨y, hy, rfl⟩ := List.mem_map.mp hx
  rw [hstamp, h.free y hy] at ho
  cases ho

theorem TableClaim.entries {rows : List TimeEntry} (h : TableClaim k ids db.entries rows) :
    Claims k (ids.map .dayRow) db { db with entries := rows } := by
  refine ⟨rfl, rfl, rfl, ?_, ?_, ?_, id⟩
  · simp [BillingDb.keys, h.keys]
  · exact h.free_sources fun _ => rfl
  · intro x
    cases x with
    | dayRow y => simp only [BillingDb.stamp, h.stamped, List.mem_map, Source.dayRow.injEq, exists_eq_right]
    | _ => simp [BillingDb.stamp]

theorem TableClaim.orders {rows : List ChangeOrder} (h : TableClaim k ids db.orders rows) :
    Claims k (ids.map .order) db { db with orders := rows } := by
  refine ⟨rfl, rfl, rfl, ?_, ?_, ?_, id⟩
  · simp [BillingDb.keys, h.keys]
  · exact h.free_sources fun _ => rfl
  · intro x
    cases x with
    | order y => simp only [BillingDb.stamp, h.stamped, List.mem_map, Source.order.injEq, exists_eq_right]
    | _ => simp [BillingDb.stamp]

theorem TableClaim.parts {rows : List PartRow} (h : TableClaim k ids db.parts rows) :
    Claims k (ids.map .part) db { db with parts := rows } := by
  refine ⟨rfl, rfl, rfl, ?_, ?_, ?_, id⟩
  · simp [BillingDb.keys, h.keys]
  · exact h.free_sources fun _ => rfl
  · intro x
    cases x with
    | part y => simp only [BillingDb.stamp, h.stamped, List.mem_map, Source.part.injEq, exists_eq_right]
    | _ => simp [BillingDb.stamp]

/-- As many rows as ids, and the ids are all there. -/
theorem all_found {ρ : Type} [Claimable ρ ℕ ℕ] {rows : List ρ} {sel : ρ → Bool} (hkeys : (rows.map key).Nodup)
    (hsel : ∀ r, sel r = true → key r ∈ ids) (hlen : (rows.filter sel).length = ids.length) :
    ∀ x ∈ ids, ∃ r ∈ rows, sel r = true ∧ key r = x := by
  have hnodup : ((rows.filter sel).map key).Nodup := hkeys.sublist (List.filter_sublist.map key)
  have hsub : ((rows.filter sel).map key) ⊆ ids := by
    intro x hx
    obtain ⟨r, hr, rfl⟩ := List.mem_map.mp hx
    exact hsel r (List.mem_filter.mp hr).2
  have hperm : ((rows.filter sel).map key).Perm ids :=
    (List.subperm_of_subset hnodup hsub).perm_of_length_le (by rw [List.length_map, hlen])
  intro x hx
  obtain ⟨r, hr, hrx⟩ := List.mem_map.mp (hperm.symm.subset hx)
  exact ⟨r, (List.mem_filter.mp hr).1, (List.mem_filter.mp hr).2, hrx⟩

/-- Day rows are claimed all or not at all. -/
theorem claimLaborDayRows_claims {jobId : Option ℕ} (hk : Keyed db)
    (h : claimLaborDayRows db k jobId ids = .ok db') : Claims k (ids.map .dayRow) db db' := by
  unfold claimLaborDayRows at h
  split at h
  · rename_i hnil
    cases h
    rw [hnil]
    exact Claims.refl k db
  · rw [except_bind_ok] at h
    obtain ⟨-, -, h⟩ := h
    rw [except_bind_ok] at h
    obtain ⟨-, -, h⟩ := h
    dsimp only at h
    split at h
    · rename_i hlen
      cases h
      have hsel : ∀ e : TimeEntry, (decide (e.id ∈ ids) && e.billedInvoiceId.isNone) = true →
          key e ∈ ids ∧ holder e = none := by
        intro e he
        simpa [key, holder] using he
      exact (tableClaim_of k hk.entries (fun e _ => hsel e) (all_found hk.entries (fun e he => (hsel e he).1) hlen)).entries
    · split at h <;> simp [refuseLaborAlreadyBilled, refuseLaborAlreadyOnInvoice] at h

/-- The stamp of one closeout. -/
theorem stampCloseout_claims {c : JobCloseout} (hours : ℚ) (hk : Keyed db) (hc : c ∈ db.closeouts)
    (hpos : 0 ≤ hours) (hfree : ∀ o ∈ c.row.billedInvoiceId, ¬db.live o) :
    Claims k [.closeout c.row.id] db (db.stampCloseout c.row.id k hours) := by
  set f : JobCloseout → JobCloseout := fun q =>
    if q.row.id = c.row.id then
      { q with row := { q.row with billedInvoiceId := some k, manHoursBilled := some hours } }
    else q with hf
  have hkey : ∀ q : JobCloseout, key (f q) = key q := by
    intro q
    rw [hf]
    dsimp only
    split <;> rfl
  have hheld : holderOf db.closeouts c.row.id = c.row.billedInvoiceId := holderOf_of_mem hk.closeouts hc
  refine ⟨rfl, rfl, rfl, ?_, ?_, ?_, ?_⟩
  · have hlinks : (db.closeouts.map f).map (fun c => (c.row.id, c.row.supersedesId)) =
        db.closeouts.map fun c => (c.row.id, c.row.supersedesId) := by
      rw [List.map_map]
      refine List.map_congr_left fun q _ => ?_
      rw [hf]
      simp only [Function.comp_apply]
      split <;> rfl
    simp only [BillingDb.keys, BillingDb.stampCloseout, ← hf, hlinks]
  · intro x hx o ho
    rw [List.mem_singleton.mp hx, BillingDb.stamp, hheld] at ho
    exact hfree o ho
  · intro x
    cases x with
    | closeout y =>
      have hfind := find?_map_of_key f hkey db.closeouts y
      simp only [BillingDb.stamp, BillingDb.stampCloseout, ← hf, List.mem_singleton, Source.closeout.injEq]
      rw [holderOf, hfind, Option.bind_map]
      split
      · rename_i heq
        have hrow : db.closeouts.find? (fun q => key q = y) = some c := heq ▸ find?_key hk.closeouts hc
        rw [hrow, Option.bind_some, Function.comp_apply, hf]
        simp [holder]
      · rename_i hne
        rw [holderOf]
        cases hq : db.closeouts.find? fun q => key q = y with
        | none => rfl
        | some q =>
          have hqy : q.row.id = y := by simpa [key] using List.find?_some hq
          rw [Option.bind_some, Option.bind_some, Function.comp_apply, hf]
          simp only
          rw [if_neg fun heq => hne (hqy.symm.trans heq)]
    | _ => simp [BillingDb.stamp, BillingDb.stampCloseout]
  · intro hn q hq x hx
    obtain ⟨r, hr, rfl⟩ := List.mem_map.mp hq
    split at hx
    · obtain rfl : hours = x := by simpa using hx
      exact hpos
    · exact hn r hr x hx

/-- An invoice is live in the job's book exactly when it is live. -/
theorem labor_isLive (db : BillingDb) (jobId o : ℕ) : (db.labor jobId).isLive o = true ↔ db.live o := by
  simp only [LaborBook.isLive, BillingDb.labor, List.any_map, List.any_eq_true, Function.comp_apply,
    Bool.and_eq_true, decide_eq_true_eq, BillingDb.live, LaborInvoice.live]
  refine exists_congr fun i => and_congr_right fun _ => and_congr_right fun _ => ?_
  cases i.void <;> simp

/-- The current closeout of a job is a row of the table, found by its id in the job's book. -/
theorem labor_current {jobId : ℕ} {c : CloseoutRow} (hk : Keyed db) (h : (db.labor jobId).current = some c) :
    ∃ jc ∈ db.closeouts, jc.row = c ∧ (db.labor jobId).closeout? c.id = some c := by
  have hmem := List.mem_of_find?_eq_some h
  have hnodup : ((db.labor jobId).closeouts.map CloseoutRow.id).Nodup := by
    have hsub : ((db.closeouts.filter fun q => q.jobId = jobId).map key).Nodup :=
      hk.closeouts.sublist (List.filter_sublist.map key)
    simpa [BillingDb.labor, List.map_map, Function.comp_def, key] using hsub
  obtain ⟨jc, hjc, hrow⟩ := List.mem_map.mp hmem
  exact ⟨jc, List.mem_of_mem_filter hjc, hrow, closeout?_of_mem hnodup hmem⟩

/-- Nobody live holds the closeout. -/
theorem closeout_free {jobId : ℕ} {c : CloseoutRow} (hfound : (db.labor jobId).closeout? c.id = some c)
    (h : closeoutHoursHolder (db.labor jobId) c = none) : ∀ o ∈ c.billedInvoiceId, ¬db.live o := by
  intro o ho hlive
  simp only [closeoutHoursHolder, hfound] at h
  rw [Option.mem_def.mp ho, Option.filter, if_pos ((labor_isLive db jobId o).mpr hlive)] at h
  simp at h

theorem claimLaborCloseout_claims {zone : ShopZone} {jobId closeoutId : Option ℕ} {man : Option ℚ} (hk : Keyed db)
    (h : claimLaborCloseout zone db k jobId closeoutId man ids = .ok db') :
    Claims k (closeoutId.toList.map .closeout) db db' := by
  unfold claimLaborCloseout at h
  cases closeoutId with
  | none =>
    cases h
    exact Claims.refl k db
  | some named =>
    simp only at h
    cases hcur : jobId.bind fun j => (db.labor j).current.map fun c => (j, c) with
    | none => simp [hcur, refuseLaborSuggestionStale] at h
    | some jc =>
      obtain ⟨j, c⟩ := jc
      obtain ⟨j', -, hj'⟩ := Option.bind_eq_some_iff.mp hcur
      obtain ⟨c', hcurrent, heq⟩ := Option.map_eq_some_iff.mp hj'
      cases heq
      simp only [hcur] at h
      split at h
      · simp [refuseLaborSuggestionStale] at h
      rename_i hnamed
      split at h
      · simp [refuseLaborSuggestionStale] at h
      split at h
      · split at h <;> simp [refuseLaborAlreadyBilled, refuseLaborAlreadyOnInvoice] at h
      rename_i hholder
      split at h
      · cases h
        obtain ⟨row, hrow, rfl, hfound⟩ := labor_current hk hcurrent
        push Not at hnamed
        rw [← hnamed.1]
        exact stampCloseout_claims _ hk hrow (le_max_left _ _) (closeout_free hfound hholder)
      · simp [refuseLaborAlreadyBilled] at h

/-- The labor a line of the request bills. -/
def LineItem.laborSources (l : LineItem) : List Source :=
  (l.timeEntryIds.getD []).map .dayRow ++ l.closeoutId.toList.map .closeout

theorem claimLineItems_claims {zone : ShopZone} {jobId : Option ℕ} : ∀ {lines : List LineItem} {db : BillingDb},
    Keyed db → claimLineItems zone k jobId lines db = .ok db' →
    Claims k (lines.flatMap LineItem.laborSources) db db' := by
  intro lines
  induction lines with
  | nil =>
    intro db _ h
    cases h
    exact Claims.refl k _
  | cons l rest ih =>
    intro db hk h
    rw [claimLineItems, except_bind_ok] at h
    obtain ⟨db₁, h₁, h⟩ := h
    rw [except_bind_ok] at h
    obtain ⟨db₂, h₂, h⟩ := h
    have hc₁ := claimLaborDayRows_claims hk h₁
    have hc₂ := claimLaborCloseout_claims (hc₁.keyed hk) h₂
    have hc := hc₁.trans hc₂
    rw [List.flatMap_cons]
    exact hc.trans (ih (hc.keyed hk) h)

/-- The ids a filter leaves nothing of are all there. -/
theorem found_of_filter_nil {ρ : Type} [Claimable ρ ℕ ℕ] {rows : List ρ} {sel : ρ → Bool}
    (h : (ids.filter fun x => !rows.any fun r => sel r && decide (key r = x)) = []) :
    ∀ x ∈ ids, ∃ r ∈ rows, sel r = true ∧ key r = x := by
  intro x hx
  have hany := List.filter_eq_nil_iff.mp h x hx
  simp only [Bool.not_eq_true, Bool.not_eq_false', List.any_eq_true, Bool.and_eq_true, decide_eq_true_eq] at hany
  exact hany

/-- A copied line bills its change order and nothing else. -/
theorem copyOrderLines_sources {co : ChangeOrder} : ∀ {lns : List ChangeOrderLine} {lines : List BillLine},
    copyOrderLines co lns = .ok lines → ∀ l ∈ lines, l.partId = none ∧ l.sources = [.order co.id] := by
  intro lns
  induction lns with
  | nil =>
    intro lines h
    cases h
    simp
  | cons ln rest ih =>
    intro lines h
    rw [copyOrderLines] at h
    cases hv : zeroQuantityVerdict (some ln.qty) ln.lineTotal with
    | refuse => simp [hv] at h
    | skip =>
      simp only [hv] at h
      exact ih h
    | bill =>
      simp only [hv] at h
      rw [except_bind_ok] at h
      obtain ⟨copied, hcopied, h⟩ := h
      cases h
      exact List.forall_mem_cons.mpr ⟨⟨rfl, rfl⟩, ih hcopied⟩

theorem lumpSum_sources {co : ChangeOrder} {lines : List BillLine} (h : lumpSum co = .ok lines) :
    ∀ l ∈ lines, l.partId = none ∧ l.sources = [.order co.id] := by
  unfold lumpSum at h
  split at h
  · cases h
    exact List.forall_mem_cons.mpr ⟨⟨rfl, rfl⟩, by simp⟩
  · split at h
    · cases h
      simp
    · simp at h

theorem orderLines_sources : ∀ {orders : List ChangeOrder} {lines : List BillLine}, orderLines orders = .ok lines →
    ∀ l ∈ lines, l.partId = none ∧ ∃ co ∈ orders, l.sources = [.order co.id] := by
  intro orders
  induction orders with
  | nil =>
    intro lines h
    cases h
    simp
  | cons co rest ih =>
    intro lines h
    rw [orderLines, except_bind_ok] at h
    obtain ⟨copied, hcopied, h⟩ := h
    rw [except_bind_ok] at h
    obtain ⟨own, hown, h⟩ := h
    rw [except_bind_ok] at h
    obtain ⟨others, hothers, h⟩ := h
    cases h
    have hfirst : ∀ l ∈ own, l.partId = none ∧ l.sources = [.order co.id] := by
      unfold copiedOrLump at hown
      split at hown
      · exact lumpSum_sources hown
      · cases hown
        exact copyOrderLines_sources hcopied
    intro l hl
    rcases List.mem_append.mp hl with hl | hl
    · exact ⟨(hfirst l hl).1, co, by simp, (hfirst l hl).2⟩
    · obtain ⟨hpart, co', hco', hsources⟩ := ih hothers l hl
      exact ⟨hpart, co', by simp [hco'], hsources⟩

theorem claimChangeOrders_claims {req : CreateIn} {lines : List BillLine} (hk : Keyed db)
    (h : claimChangeOrders db k req = .ok (db', lines)) :
    Claims k (req.fromChangeOrderIds.map .order) db db' ∧
      ∀ l ∈ lines, l.partId = none ∧ ∀ x ∈ l.sources, x ∈ req.fromChangeOrderIds.map Source.order := by
  unfold claimChangeOrders at h
  dsimp only at h
  rw [except_bind_ok] at h
  obtain ⟨u, hfound, h⟩ := h
  rw [except_bind_ok] at h
  obtain ⟨lines', hlines, h⟩ := h
  cases h
  rw [refuse_ok] at hfound
  have hsel : ∀ co : ChangeOrder, billableOrder req co = true → key co ∈ req.fromChangeOrderIds ∧ holder co = none := by
    intro co hco
    simp only [billableOrder, Bool.and_eq_true, decide_eq_true_eq, Option.isNone_iff_eq_none] at hco
    exact ⟨hco.1.1.1.1.1, hco.1.2⟩
  refine ⟨?_, ?_⟩
  · exact (tableClaim_of k hk.orders (fun co _ => hsel co) (found_of_filter_nil (not_not.mp hfound))).orders
  · intro l hl
    obtain ⟨hpart, co, hco, hsources⟩ := orderLines_sources hlines l hl
    refine ⟨hpart, fun x hx => ?_⟩
    rw [hsources] at hx
    rw [List.mem_singleton.mp hx]
    exact List.mem_map_of_mem (hsel co (List.mem_filter.mp hco).2).1

theorem claimParts_claims {req : CreateIn} (hk : Keyed db) (h : claimParts db k req = .ok db') :
    Claims k (req.allPartIds.map .part) db db' := by
  unfold claimParts at h
  dsimp only at h
  rw [except_bind_ok] at h
  obtain ⟨u, hfound, h⟩ := h
  cases h
  rw [refuse_ok] at hfound
  have hsel : ∀ p : PartRow, billablePart req p = true → key p ∈ req.allPartIds ∧ holder p = none := by
    intro p hp
    simp only [billablePart, Bool.and_eq_true, decide_eq_true_eq, Option.isNone_iff_eq_none] at hp
    exact ⟨hp.1.1, hp.2⟩
  exact (tableClaim_of k hk.parts (fun p _ => hsel p) (found_of_filter_nil (not_not.mp hfound))).parts

/-! ### The create request -/

/-- Each part on one line, and only on lines that are saved, and no part of the list left off the lines. -/
structure CreateIn.Plain (req : CreateIn) : Prop where
  once : req.lineParts.Nodup
  saved : req.estimate.isSome = true → req.lineParts = []
  listed : req.lineParts ≠ [] → ∀ p ∈ req.fromPartIds, p ∈ req.lineParts

/-- What the request claims. -/
def CreateIn.claimed (req : CreateIn) : List Source :=
  (if req.estimate.isSome then [] else req.lineItems.flatMap LineItem.laborSources) ++
    req.fromChangeOrderIds.map .order ++ req.allPartIds.map .part

theorem addInvoice_keyed (hk : Keyed db) (i : BillInvoice) : Keyed (db.addInvoice i) :=
  hk.of_keys rfl (Nat.le_succ _)

theorem createInvoiceRequest_ok {zone : ShopZone} {req : CreateIn} (hk : Keyed db)
    (h : createInvoiceRequest zone db req = .ok db') :
    ∃ db₁ discount orders, Claims db.nextId req.claimed (db.addInvoice (req.row db.nextId)) db₁ ∧
      operatorDiscount req = .ok discount ∧
      (∀ l ∈ orders, l.partId = none ∧ ∀ x ∈ l.sources, x ∈ req.fromChangeOrderIds.map Source.order) ∧
      db' = db₁.setLines db.nextId (req.ownLines ++ discount ++ orders) := by
  unfold createInvoiceRequest at h
  dsimp only at h
  rw [except_bind_ok] at h
  obtain ⟨-, -, h⟩ := h
  rw [except_bind_ok] at h
  obtain ⟨dbL, hL, h⟩ := h
  rw [except_bind_ok] at h
  obtain ⟨discount, hdiscount, h⟩ := h
  rw [except_bind_ok] at h
  obtain ⟨⟨dbO, orders⟩, hO, h⟩ := h
  rw [except_bind_ok] at h
  obtain ⟨dbP, hP, h⟩ := h
  cases h
  have hk₀ := addInvoice_keyed hk (req.row db.nextId)
  have hcL : Claims db.nextId (if req.estimate.isSome then [] else req.lineItems.flatMap LineItem.laborSources)
      (db.addInvoice (req.row db.nextId)) dbL := by
    unfold claimOwnLabor at hL
    split at hL
    · rename_i hest
      cases hL
      rw [if_pos hest]
      exact Claims.refl _ _
    · rename_i hest
      rw [if_neg hest]
      exact claimLineItems_claims hk₀ hL
  obtain ⟨hcO, horders⟩ := claimChangeOrders_claims (hcL.keyed hk₀) hO
  have hcP := claimParts_claims (hcO.keyed (hcL.keyed hk₀)) hP
  exact ⟨dbP, discount, orders, (hcL.trans hcO).trans hcP, hdiscount, horders, rfl⟩

theorem operatorDiscount_sources {req : CreateIn} {lines : List BillLine} (h : operatorDiscount req = .ok lines) :
    ∀ l ∈ lines, l.partId = none ∧ l.sources = [] := by
  unfold operatorDiscount at h
  dsimp only at h
  split at h
  · rw [except_bind_ok] at h
    obtain ⟨-, -, h⟩ := h
    cases h
    exact List.forall_mem_cons.mpr ⟨⟨rfl, rfl⟩, by simp⟩
  · cases h
    simp

end Operations

/-! ### The invariant -/

structure DbOk (db : BillingDb) : Prop where
  keyed : Keyed db
  invoiceIds : (db.invoices.map BillInvoice.id).Nodup
  numbered : ∀ i ∈ db.invoices, i.id < db.nextId
  hours : HoursNonneg db
  exact : Exact db.stamp db.live db.holds
  once : ∀ i ∈ db.invoices, i.void = false → ∀ p, (i.partLines p).length ≤ 1
  drafts : ∀ i ∈ db.invoices, i.autodraft = true →
    i.pulledParts = [] ∧ i.pulledOrders = [] ∧ ∀ l ∈ i.lines, l.changeOrderId = none

section Invariant

variable {db db' : BillingDb}

theorem DbOk.not_live_next (h : DbOk db) : ¬db.live db.nextId := by
  rintro ⟨i, hi, hid, -⟩
  exact (h.numbered i hi).ne hid

/-- A new invoice whose lines bill what it claims. -/
theorem DbOk.adopt (h : DbOk db) {inv : BillInvoice} {C : List Source} (hid : inv.id = db.nextId)
    (hvoid : inv.void = false) (hinvoices : db'.invoices = db.invoices ++ [inv]) (hnext : db'.nextId = db.nextId + 1)
    (hkeyed : Keyed db') (hhours : HoursNonneg db') (hfree : ∀ x ∈ C, ∀ o ∈ db.stamp x, ¬db.live o)
    (hstamped : ∀ x, db'.stamp x = if x ∈ C then some db.nextId else db.stamp x)
    (hsources : ∀ x, x ∈ inv.sources ↔ x ∈ C) (honce : ∀ p, (inv.partLines p).length ≤ 1)
    (hdraft : inv.autodraft = true →
      inv.pulledParts = [] ∧ inv.pulledOrders = [] ∧ ∀ l ∈ inv.lines, l.changeOrderId = none) : DbOk db' := by
  have hmem : ∀ i, i ∈ db'.invoices ↔ i ∈ db.invoices ∨ i = inv := by
    intro i
    rw [hinvoices, List.mem_append, List.mem_singleton]
  refine ⟨hkeyed, ?_, ?_, hhours, ?_, ?_, ?_⟩
  · rw [hinvoices, List.map_append, List.nodup_append]
    refine ⟨h.invoiceIds, by simp, ?_⟩
    rintro a ha b hb rfl
    obtain ⟨i, hi, rfl⟩ := List.mem_map.mp ha
    have heq : i.id = inv.id := by simpa using hb
    exact (h.numbered i hi).ne (heq.trans hid)
  · intro i hi
    rw [hnext]
    rcases (hmem i).mp hi with hi | rfl
    · exact Nat.lt_succ_of_lt (h.numbered i hi)
    · rw [hid]
      exact Nat.lt_succ_self _
  · refine h.exact.claim (k := db.nextId) (C := (· ∈ C)) h.not_live_next hfree hstamped ?_ ?_ ?_
    · intro o
      constructor
      · rintro ⟨i, hi, hio, hiv⟩
        rcases (hmem i).mp hi with hi | rfl
        · exact Or.inl ⟨i, hi, hio, hiv⟩
        · exact Or.inr (hio.symm.trans hid)
      · rintro (⟨i, hi, hio, hiv⟩ | rfl)
        · exact ⟨i, (hmem i).mpr (Or.inl hi), hio, hiv⟩
        · exact ⟨inv, (hmem inv).mpr (Or.inr rfl), hid, hvoid⟩
    · intro x
      rw [← hsources]
      constructor
      · rintro ⟨i, hi, hio, hx⟩
        rcases (hmem i).mp hi with hi | rfl
        · exact absurd hio (h.numbered i hi).ne
        · exact hx
      · exact fun hx => ⟨inv, (hmem inv).mpr (Or.inr rfl), hid, hx⟩
    · intro o hne x
      constructor
      · rintro ⟨i, hi, hio, hx⟩
        rcases (hmem i).mp hi with hi | rfl
        · exact ⟨i, hi, hio, hx⟩
        · exact absurd (hio.symm.trans hid) hne
      · rintro ⟨i, hi, hio, hx⟩
        exact ⟨i, (hmem i).mpr (Or.inl hi), hio, hx⟩
  · intro i hi hiv
    rcases (hmem i).mp hi with hi | rfl
    · exact h.once i hi hiv
    · exact honce
  · intro i hi
    rcases (hmem i).mp hi with hi | rfl
    · exact h.drafts i hi
    · exact hdraft

/-- Steps that change no stamp and no invoice. -/
theorem DbOk.quiet (h : DbOk db) (hkeyed : Keyed db') (hnext : db.nextId ≤ db'.nextId)
    (hinvoices : db'.invoices = db.invoices) (hstamp : ∀ x, db'.stamp x = db.stamp x)
    (hhours : HoursNonneg db') : DbOk db' := by
  refine ⟨hkeyed, hinvoices ▸ h.invoiceIds, ?_, hhours, ?_, hinvoices ▸ h.once, hinvoices ▸ h.drafts⟩
  · intro i hi
    exact (h.numbered i (hinvoices ▸ hi)).trans_le hnext
  · refine h.exact.congr hstamp (live_congr hinvoices) fun o _ x => ?_
    unfold BillingDb.holds
    rw [hinvoices]

/-- The lines of the newest invoice are set. -/
theorem setLines_append (inv : BillInvoice) {lines : List BillLine} {invoices : List BillInvoice}
    (hnew : ∀ i ∈ invoices, i.id ≠ inv.id) (hinvoices : db.invoices = invoices ++ [inv]) :
    (db.setLines inv.id lines).invoices = invoices ++ [{ inv with lines := lines }] := by
  have hold : invoices.map (fun i => if i.id = inv.id then { i with lines := lines } else i) = invoices :=
    (List.map_congr_left fun i hi => if_neg (hnew i hi)).trans (List.map_id' invoices)
  change db.invoices.map _ = _
  rw [hinvoices, List.map_append, hold, List.map_singleton, if_pos rfl]

theorem setLines_stamp (db : BillingDb) (k : ℕ) (lines : List BillLine) (x : Source) :
    (db.setLines k lines).stamp x = db.stamp x := by
  cases x <;> rfl

theorem addInvoice_stamp (db : BillingDb) (i : BillInvoice) (x : Source) : (db.addInvoice i).stamp x = db.stamp x := by
  cases x <;> rfl

theorem mem_plainLine {l : LaborLine} {x : Source} : x ∉ (plainLine l).sources := by
  simp [BillLine.sources, plainLine]

/-- What a saved line of the request bills: its part and its labor. -/
theorem mem_lineItem_sources {l : LineItem} {x : Source} :
    x ∈ l.line.sources ↔ (∃ p ∈ l.partId, x = .part p) ∨ x ∈ l.laborSources := by
  simp only [BillLine.sources, LineItem.line, LineItem.laborSources, List.mem_append, List.mem_map,
    Option.mem_toList, Option.toList_none, List.map_nil, List.not_mem_nil, or_false, Option.mem_def, or_assoc]
  constructor
  · rintro (⟨p, hp, rfl⟩ | h | h)
    · exact Or.inl ⟨p, hp, rfl⟩
    · exact Or.inr (Or.inl h)
    · exact Or.inr (Or.inr h)
  · rintro (⟨p, hp, rfl⟩ | h | h)
    · exact Or.inl ⟨p, hp, rfl⟩
    · exact Or.inr (Or.inl h)
    · exact Or.inr (Or.inr h)

/-- The saved lines of a plain request bill the parts on its lines and the labor it claims. -/
theorem mem_ownLines_sources {req : CreateIn} (hplain : req.Plain) {x : Source} :
    (∃ l ∈ req.ownLines, x ∈ l.sources) ↔ (∃ p ∈ req.lineParts, x = .part p) ∨
      x ∈ (if req.estimate.isSome then [] else req.lineItems.flatMap LineItem.laborSources) := by
  unfold CreateIn.ownLines
  cases hest : req.estimate with
  | some copied =>
    have hnil : req.lineParts = [] := hplain.saved (by rw [hest]; rfl)
    rw [hnil]
    simp only [Option.isSome_some, if_true, List.not_mem_nil, false_and, exists_false, or_false, iff_false,
      not_exists, not_and]
    intro l hl hx
    obtain ⟨q, -, rfl⟩ := List.mem_map.mp hl
    exact mem_plainLine hx
  | none =>
    simp only [Option.isSome_none, Bool.false_eq_true, if_false, List.mem_flatMap, CreateIn.lineParts,
      List.mem_filterMap]
    constructor
    · rintro ⟨l, hl, hx⟩
      obtain ⟨li, hli, rfl⟩ := List.mem_map.mp hl
      rcases mem_lineItem_sources.mp hx with ⟨p, hp, rfl⟩ | hx
      · exact Or.inl ⟨p, ⟨li, hli, hp⟩, rfl⟩
      · exact Or.inr ⟨li, hli, hx⟩
    · rintro (⟨p, ⟨li, hli, hp⟩, rfl⟩ | ⟨li, hli, hx⟩)
      · exact ⟨_, List.mem_map_of_mem hli, mem_lineItem_sources.mpr (Or.inl ⟨p, hp, rfl⟩)⟩
      · exact ⟨_, List.mem_map_of_mem hli, mem_lineItem_sources.mpr (Or.inr hx)⟩

/-- The parts a plain request names, on its lines or in its list, are the parts it stamps. -/
theorem mem_allPartIds {req : CreateIn} (hplain : req.Plain) {p : ℕ} :
    p ∈ req.allPartIds ↔ p ∈ req.lineParts ∨ p ∈ req.fromPartIds := by
  unfold CreateIn.allPartIds
  by_cases hnil : req.lineParts = []
  · simp [hnil]
  · rw [if_pos hnil]
    exact ⟨Or.inl, fun h => h.elim id (hplain.listed hnil p)⟩

/-- The lines of a plain request have a part at most once. -/
theorem ownLines_once {req : CreateIn} (hplain : req.Plain) (p : ℕ) :
    (req.ownLines.filter fun l => l.partId = some p).length ≤ 1 := by
  unfold CreateIn.ownLines
  cases hest : req.estimate with
  | some copied =>
    have hnone : (copied.map plainLine).filter (fun l => l.partId = some p) = [] := by
      refine List.filter_eq_nil_iff.mpr fun l hl => ?_
      obtain ⟨q, -, rfl⟩ := List.mem_map.mp hl
      simp [plainLine]
    simp only [hnone, List.length_nil, Nat.zero_le]
  | none =>
    have hcount : ∀ items : List LineItem,
        ((items.map LineItem.line).filter fun l => l.partId = some p).length =
          (items.filterMap LineItem.partId).count p := by
      intro items
      induction items with
      | nil => rfl
      | cons li rest ih =>
        rw [List.map_cons, List.filter_cons, List.filterMap_cons]
        have hpart : li.line.partId = li.partId := rfl
        rw [hpart]
        cases hp : li.partId with
        | none => simpa using ih
        | some q =>
          by_cases hq : q = p
          · simp [hq, ih]
          · simp [hq, ih]
    simp only
    rw [hcount]
    exact List.nodup_iff_count_le_one.mp hplain.once p

theorem or_regroup {P L O FP FO : Prop} (h : O → FO) : (((P ∨ L) ∨ O) ∨ FP) ∨ FO ↔ (L ∨ FO) ∨ P ∨ FP := by
  tauto

/-- The invoice a plain request makes bills what the request claims. -/
theorem mem_created_sources {req : CreateIn} (hplain : req.Plain) {discount orders : List BillLine} {id : ℕ}
    (hdiscount : ∀ l ∈ discount, l.sources = [])
    (horders : ∀ l ∈ orders, ∀ x ∈ l.sources, x ∈ req.fromChangeOrderIds.map Source.order) {x : Source} :
    x ∈ ({ req.row id with lines := req.ownLines ++ discount ++ orders } : BillInvoice).sources ↔
      x ∈ req.claimed := by
  have hsplit : (∃ l ∈ req.ownLines ++ discount ++ orders, x ∈ l.sources) ↔
      (∃ l ∈ req.ownLines, x ∈ l.sources) ∨ ∃ l ∈ orders, x ∈ l.sources := by
    have hnone : ¬∃ l ∈ discount, x ∈ l.sources := by
      rintro ⟨l, hl, hx⟩
      rw [hdiscount l hl] at hx
      simp at hx
    simp only [List.mem_append, or_and_right, exists_or, hnone, or_false]
  have hords : (∃ l ∈ orders, x ∈ l.sources) → x ∈ req.fromChangeOrderIds.map Source.order := by
    rintro ⟨l, hl, hx⟩
    exact horders l hl x hx
  have hparts : x ∈ req.allPartIds.map Source.part ↔
      (∃ p ∈ req.lineParts, x = .part p) ∨ x ∈ req.fromPartIds.map Source.part := by
    simp only [List.mem_map, mem_allPartIds hplain, or_and_right, exists_or]
    refine or_congr ?_ Iff.rfl
    exact exists_congr fun p => and_congr_right fun _ => eq_comm
  rw [BillInvoice.sources, CreateIn.claimed, List.mem_append, List.mem_append, List.mem_append, List.mem_append,
    List.mem_flatMap, hsplit, mem_ownLines_sources hplain, hparts]
  exact or_regroup hords

/-- An accepted request that names its parts plainly keeps the books. -/
theorem DbOk.create (h : DbOk db) {zone : ShopZone} {req : CreateIn} (hplain : req.Plain)
    (hok : createInvoiceRequest zone db req = .ok db') : DbOk db' := by
  obtain ⟨db₁, discount, orders, hclaims, hdiscount, horders, rfl⟩ := createInvoiceRequest_ok h.keyed hok
  have hdisc := operatorDiscount_sources hdiscount
  set lines := req.ownLines ++ discount ++ orders with hlines
  have hinvoices : (db₁.setLines db.nextId lines).invoices =
      db.invoices ++ [{ req.row db.nextId with lines := lines }] := by
    refine setLines_append (req.row db.nextId) (fun i hi => (h.numbered i hi).ne) ?_
    exact hclaims.invoices
  have hkeyed : Keyed (db₁.setLines db.nextId lines) :=
    (hclaims.keyed (addInvoice_keyed h.keyed _)).of_keys rfl (le_refl _)
  refine h.adopt (C := req.claimed) rfl rfl hinvoices ?_ hkeyed (hclaims.hours h.hours) ?_ ?_ ?_ ?_
    (fun hauto => by simp [CreateIn.row] at hauto)
  · exact hclaims.nextId
  · intro x hx o ho hlive
    refine hclaims.free x hx o (by rwa [addInvoice_stamp]) ?_
    obtain ⟨i, hi, hio, hiv⟩ := hlive
    exact ⟨i, List.mem_append_left _ hi, hio, hiv⟩
  · intro x
    rw [setLines_stamp, hclaims.stamped, addInvoice_stamp]
  · exact fun x => mem_created_sources hplain (fun l hl => (hdisc l hl).2) fun l hl => (horders l hl).2
  · intro p
    have hnone : ∀ {ls : List BillLine}, (∀ l ∈ ls, l.partId = none) →
        ls.filter (fun l => l.partId = some p) = [] := by
      intro ls hls
      refine List.filter_eq_nil_iff.mpr fun l hl => ?_
      simp [hls l hl]
    simp only [BillInvoice.partLines, hlines, List.filter_append, hnone fun l hl => (hdisc l hl).1,
      hnone fun l hl => (horders l hl).1, List.append_nil]
    exact ownLines_once hplain p

end Invariant

/-! ### The final day of an autodraft -/

section FinalDay

variable {s s' : LaborBook} {c : CloseoutRow} {k : ℕ}

theorem roundedCrew_pos {hours : ℚ} (h : 0 < hours) (techs : Option ℤ) : 0 < roundupToHalf hours * crewOf techs := by
  have hround : 0 < roundupToHalf hours := by
    have hceil : 0 < ⌈hours * 2⌉ := Int.ceil_pos.mpr (by linarith)
    have hcast : (0 : ℚ) < (⌈hours * 2⌉ : ℚ) := by exact_mod_cast hceil
    unfold roundupToHalf
    linarith
  have hcrew : (0 : ℚ) < crewOf techs := by
    have hone : 1 ≤ crewOf techs := le_max_left _ _
    exact_mod_cast (by omega : 0 < crewOf techs)
  exact mul_pos hround hcrew

/-- The closeout's hours are on the invoice when it may offer them and the run has not billed them. -/
theorem finalDay_hours_pos : 0 < (finalDay s (some c) (some k)).hours ↔
    0 < offeredHours s c (some k) ∧
      closeoutHoursBilledBefore s c < roundupToHalf (offeredHours s c (some k)) * crewOf c.techsOnSite := by
  unfold finalDay
  dsimp only
  generalize offeredHours s c (some k) = hours
  by_cases hpos : 0 < hours
  · have hman := roundedCrew_pos hpos c.techsOnSite
    rw [if_pos hpos, if_pos hman]
    by_cases hbefore : 0 < closeoutHoursBilledBefore s c
    · rw [if_pos hbefore]
      simp only [hpos, true_and]
      split
      · rename_i hleft
        have := (le_max_right _ _).trans hleft
        constructor
        · exact fun h => absurd h (lt_irrefl _)
        · intro h
          linarith
      · rename_i hleft
        push Not at hleft
        refine ⟨fun _ => ?_, fun _ => hpos⟩
        rcases lt_max_iff.mp hleft with h | h
        · exact absurd h (lt_irrefl _)
        · linarith
    · rw [if_neg hbefore]
      push Not at hbefore
      exact ⟨fun _ => ⟨hpos, by linarith⟩, fun _ => hpos⟩
  · rw [if_neg hpos]
    simp only [lt_irrefl, if_false]
    exact ⟨fun h => absurd h hpos, fun h => absurd h.1 hpos⟩

theorem finalDay_man_nonneg (closeout : Option CloseoutRow) (i : Option ℕ) : 0 ≤ (finalDay s closeout i).man := by
  unfold finalDay
  cases closeout with
  | none => exact le_refl _
  | some c =>
    dsimp only
    generalize offeredHours s c i = hours
    have hman : 0 ≤ (if 0 < hours then roundupToHalf hours * crewOf c.techsOnSite else 0) := by
      split
      · rename_i hpos
        exact (roundedCrew_pos hpos _).le
      · exact le_refl _
    generalize (if 0 < hours then roundupToHalf hours * crewOf c.techsOnSite else 0) = man at hman
    generalize (if 0 < man then closeoutHoursBilledBefore s c else 0) = carried
    split
    · exact le_max_left _ _
    · exact hman

theorem finalDay_man_pos (h : 0 < (finalDay s (some c) (some k)).hours) :
    0 < (finalDay s (some c) (some k)).man := by
  obtain ⟨hpos, hbefore⟩ := finalDay_hours_pos.mp h
  unfold finalDay
  dsimp only
  generalize offeredHours s c (some k) = hours at *
  have hman := roundedCrew_pos hpos c.techsOnSite
  rw [if_pos hpos, if_pos hman]
  split
  · exact lt_max_of_lt_right (by linarith)
  · exact hman

/-- The claim of a closeout that is in the book. -/
theorem claimCloseoutHours_iff (hfound : s.closeout? c.id = some c) :
    (claimCloseoutHours s k (some c)).2 = true ↔
      closeoutHoursBilledBefore s c < closeoutManHours c ∧ c.billedInvoiceId.any s.isLive = false := by
  have htoBill : closeoutManHoursToBill s c ≤ 0 ↔ ¬closeoutHoursBilledBefore s c < closeoutManHours c := by
    unfold closeoutManHoursToBill
    rw [max_le_iff]
    constructor
    · rintro ⟨-, h⟩
      linarith
    · intro h
      exact ⟨le_refl _, by linarith⟩
  simp only [claimCloseoutHours, hfound]
  by_cases hb : closeoutManHoursToBill s c ≤ 0
  · rw [if_pos hb]
    simp [htoBill.mp hb]
  · rw [if_neg hb]
    have hlt := not_not.mp (mt htoBill.mpr hb)
    cases hany : c.billedInvoiceId.any s.isLive <;> simp [hlt]

/-- A closeout book in which the older rows of a closeout read the same. -/
structure SameOlder (c : CloseoutRow) (s s' : LaborBook) : Prop where
  length : s'.closeouts.length = s.closeouts.length
  uncompleted : s'.uncompletedAt = s.uncompletedAt
  live : ∀ i, s'.isLive i = s.isLive i
  found : ∀ x, x ≠ c.id → s'.closeout? x = s.closeout? x

/-- The run behind a closeout goes to older rows, which read the same. -/
theorem SameOlder.restatedFrom_eq (h : SameOlder c s s')
    (holder : ∀ r ∈ s.closeouts, ∀ p ∈ r.supersedesId, p < r.id) :
    ∀ (fuel : ℕ) (seen : List ℕ) (cur : CloseoutRow), cur ∈ s.closeouts → cur.id ≤ c.id →
    restatedFrom s' fuel seen cur = restatedFrom s fuel seen cur ∧
      ∀ r ∈ restatedFrom s fuel seen cur, r.id < c.id := by
  intro fuel
  induction fuel with
  | zero => simp [restatedFrom]
  | succ fuel ih =>
    intro seen cur hcur hle
    rw [restatedFrom, restatedFrom]
    cases hsup : cur.supersedesId with
    | none => simp
    | some prior =>
      have hlt : prior < c.id := (holder cur hcur prior hsup).trans_le hle
      by_cases hseen : prior ∈ seen
      · simp [hseen]
      simp only [if_neg hseen, h.found prior hlt.ne]
      cases hp : s.closeout? prior with
      | none => simp
      | some row =>
        have hrowid : row.id = prior := by simpa using List.find?_some hp
        obtain ⟨hrec, hids⟩ := ih (prior :: seen) row (List.mem_of_find?_eq_some hp) (by omega)
        have hrestates : restates s' cur row = restates s cur row := by
          unfold restates
          rw [h.uncompleted]
        simp only [hrestates, hrec]
        split
        · exact ⟨trivial, List.forall_mem_cons.mpr ⟨by omega, hids⟩⟩
        · simp

theorem SameOlder.billedBefore_eq (h : SameOlder c s s')
    (holder : ∀ r ∈ s.closeouts, ∀ p ∈ r.supersedesId, p < r.id) (hc : c ∈ s.closeouts) :
    closeoutHoursBilledBefore s' c = closeoutHoursBilledBefore s c := by
  obtain ⟨hrun, hids⟩ := h.restatedFrom_eq holder s.closeouts.length [] c hc (le_refl _)
  unfold closeoutHoursBilledBefore restatedRun
  rw [h.length, hrun]
  unfold billedOver
  have hholder : ∀ r ∈ restatedFrom s s.closeouts.length [] c, closeoutHoursHolder s' r = closeoutHoursHolder s r := by
    intro r hr
    unfold closeoutHoursHolder
    rw [h.found r.id (hids r hr).ne]
    cases s.closeout? r.id with
    | none => rfl
    | some row => simp only [funext h.live]
  rw [List.filter_congr fun r hr => by rw [hholder r hr]]
  congr 1
  refine List.map_congr_left fun r hr => ?_
  unfold claimManHours
  rw [h.found r.id (hids r (List.mem_of_mem_filter hr)).ne]

theorem closeoutHoursBilledBefore_nonneg (hn : ∀ r ∈ s.closeouts, ∀ x ∈ r.manHoursBilled, 0 ≤ x) :
    0 ≤ closeoutHoursBilledBefore s c := by
  refine List.sum_nonneg fun x hx => ?_
  obtain ⟨r, -, rfl⟩ := List.mem_map.mp hx
  unfold claimManHours
  cases hrow : s.closeout? r.id with
  | none => exact closeoutManHours_nonneg r
  | some row =>
    cases hb : row.manHoursBilled with
    | none => simpa [hb] using closeoutManHours_nonneg r
    | some b => simpa [hb] using hn row (List.mem_of_find?_eq_some hrow) b hb

/-- A claimed closeout's hours are on the invoice, one that was not claimed has none there. -/
theorem finalDay_hours_claimed (hfound : s.closeout? c.id = some c) (hlive : s.isLive k = true)
    (hfree : c.billedInvoiceId ≠ some k) (holder : ∀ r ∈ s.closeouts, ∀ p ∈ r.supersedesId, p < r.id)
    (hn : ∀ r ∈ s.closeouts, ∀ x ∈ r.manHoursBilled, 0 ≤ x)
    (hsame : SameOlder c s s')
    (hclaimed : (claimCloseoutHours s k (some c)).2 = true → closeoutHoursHolder s' c = some k)
    (hkept : (claimCloseoutHours s k (some c)).2 = false → closeoutHoursHolder s' c = closeoutHoursHolder s c) :
    0 < (finalDay s' (some c) (some k)).hours ↔ (claimCloseoutHours s k (some c)).2 = true := by
  have hbefore := hsame.billedBefore_eq holder (List.mem_of_find?_eq_some hfound)
  have hnonneg := closeoutHoursBilledBefore_nonneg (s := s) (c := c) hn
  have hiff := claimCloseoutHours_iff (k := k) hfound
  rw [finalDay_hours_pos, hbefore]
  by_cases hwork : 0 < c.hoursWorked
  · have hman : closeoutManHours c = roundupToHalf c.hoursWorked * crewOf c.techsOnSite := by
      rw [closeoutManHours, if_neg (by linarith)]
    cases hclaim : (claimCloseoutHours s k (some c)).2 with
    | true =>
      have hoffer : offeredHours s' c (some k) = c.hoursWorked := by
        simp [offeredHours, hwork, hclaimed hclaim]
      rw [hoffer, ← hman]
      exact ⟨fun _ => rfl, fun _ => ⟨hwork, (hiff.mp hclaim).1⟩⟩
    | false =>
      refine iff_of_false ?_ (by simp)
      rintro ⟨hpos, hlt⟩
      -- nothing is offered when somebody else holds it, and nothing is left when nobody does
      have hnone : closeoutHoursHolder s c = none := by
        cases hh : closeoutHoursHolder s c with
        | none => rfl
        | some o =>
          have hne : o ≠ k := by
            rintro rfl
            simp only [closeoutHoursHolder, hfound] at hh
            exact hfree (Option.filter_eq_some_iff.mp hh).1
          have hzero : offeredHours s' c (some k) = 0 := by
            simp [offeredHours, hwork, hkept hclaim, hh, hne]
          rw [hzero] at hpos
          exact absurd hpos (lt_irrefl _)
      have hoffer : offeredHours s' c (some k) = c.hoursWorked := by
        simp [offeredHours, hwork, hkept hclaim, hnone]
      rw [hoffer, ← hman] at hlt
      have hdead : c.billedInvoiceId.any s.isLive = false := by
        simp only [closeoutHoursHolder, hfound] at hnone
        cases hb : c.billedInvoiceId with
        | none => rfl
        | some o =>
          rw [hb, Option.filter] at hnone
          split at hnone
          · simp at hnone
          · rename_i hl
            simpa using hl
      rw [hiff.mpr ⟨hlt, hdead⟩] at hclaim
      simp at hclaim
  · have hman : closeoutManHours c = 0 := by
      rw [closeoutManHours, if_pos (by linarith)]
    have hoffer : offeredHours s' c (some k) = c.hoursWorked := by
      simp [offeredHours, hwork]
    refine iff_of_false (fun h => hwork (hoffer ▸ h.1)) fun hclaim => ?_
    have hlt := (hiff.mp hclaim).1
    rw [hman] at hlt
    linarith

/-- The last line of a build names the day rows and, when it bills them, the closeout. -/
theorem jobLaborLines_links (zone : ShopZone) (hlane : s.lane = .service) (rows : List DayRow) :
    (0 < attestedMan s (some c) (some k) rows →
      ∃ pre last, jobLaborLines zone s (some c) (some k) rows = pre ++ [last] ∧
        last.timeEntryIds = some (rows.map DayRow.id) ∧
        last.closeoutId = (if 0 < (finalDay s (some c) (some k)).hours then some c.id else none) ∧
        ∀ b ∈ pre, b.timeEntryIds = none ∧ b.closeoutId = none) ∧
      (attestedMan s (some c) (some k) rows ≤ 0 → jobLaborLines zone s (some c) (some k) rows = []) := by
  unfold jobLaborLines
  rw [if_neg (by simp [hlane])]
  dsimp only
  rw [← attestedMan]
  refine ⟨fun hpos => ?_, fun hle => if_pos hle⟩
  rw [if_neg (by linarith)]
  split
  · exact ⟨[], _, rfl, rfl, rfl, by simp⟩
  · split
    · exact ⟨[_], _, rfl, rfl, rfl, by simp⟩
    · exact ⟨[], _, rfl, rfl, rfl, by simp⟩

end FinalDay

/-! ### The autodraft -/

section Autodraft

variable {zone : ShopZone} {k jobId : ℕ} {db db' : BillingDb} {c : CloseoutRow}

/-- The free day rows of the job. -/
def freeDayRows (db : BillingDb) (jobId : ℕ) : List ℕ :=
  (db.entries.filter fun e => decide (e.jobId = jobId) && e.isDayRow && e.billedInvoiceId.isNone).map TimeEntry.id

theorem claimFreeDayRows_claims (k jobId : ℕ) (hk : Keyed db) :
    Claims k ((freeDayRows db jobId).map .dayRow) db (db.claimDayRows k (freeDayRows db jobId)) := by
  refine (tableClaim_of k hk.entries ?_ ?_).entries
  · intro e _ he
    simpa [key, holder] using he
  · intro x hx
    obtain ⟨e, he, rfl⟩ := List.mem_map.mp hx
    obtain ⟨hmem, hsel⟩ := List.mem_filter.mp he
    simp only [Bool.and_eq_true] at hsel
    exact ⟨e, hmem, by simp [hx, hsel.2], rfl⟩

/-- What a new draft holds after its claim are the rows that were free. -/
theorem mem_heldDayRows (jobId : ℕ) (hk : Keyed db) (hnone : ∀ x, db.stamp x ≠ some k) (x : ℕ) :
    x ∈ (heldDayRows (db.claimDayRows k (freeDayRows db jobId)) k fun e =>
      decide (e.jobId = jobId) && e.isDayRow).map DayRow.id ↔ x ∈ freeDayRows db jobId := by
  simp only [heldDayRows, List.map_map, List.mem_map, List.mem_filter, BillingDb.claimDayRows, claimRows,
    Function.comp_apply]
  constructor
  · rintro ⟨e', ⟨⟨e, he, rfl⟩, hsel⟩, rfl⟩
    split at hsel
    · rename_i hclaim
      simp only [Bool.and_eq_true, decide_eq_true_eq] at hclaim
      rw [if_pos (by simp [hclaim])]
      exact hclaim.1
    · rename_i hskip
      simp only [Bool.and_eq_true, decide_eq_true_eq] at hsel
      exact absurd ((holderOf_of_mem hk.entries he).trans hsel.2) (hnone (.dayRow e.id))
  · intro hx
    obtain ⟨e, he, rfl⟩ := List.mem_map.mp hx
    obtain ⟨hmem, hsel⟩ := List.mem_filter.mp he
    simp only [Bool.and_eq_true, decide_eq_true_eq] at hsel
    refine ⟨_, ⟨⟨e, hmem, rfl⟩, ?_⟩, ?_⟩
    · rw [if_pos (by simp [hx, hsel.2])]
      simpa [stamp, TimeEntry.isDayRow] using hsel.1
    · rw [if_pos (by simp [hx, hsel.2])]
      rfl

theorem heldDayRows_minutes (db : BillingDb) (k : ℕ) {sel : TimeEntry → Bool} (hsel : ∀ e, sel e = true → e.isDayRow = true) :
    ∀ r ∈ heldDayRows db k sel, 0 < r.minutes := by
  intro r hr
  obtain ⟨e, he, rfl⟩ := List.mem_map.mp hr
  have hrow := hsel e (by simpa using (Bool.and_eq_true _ _ ▸ (List.mem_filter.mp he).2).1)
  simp only [TimeEntry.isDayRow, Bool.and_eq_true, decide_eq_true_eq] at hrow
  exact hrow.1.1.2

theorem rowsMan_pos {rows : List DayRow} (hne : rows ≠ []) (hmin : ∀ r ∈ rows, 0 < r.minutes) : 0 < rowsMan rows := by
  have hsum : 0 < rowMinutes rows := by
    obtain ⟨r, rest, rfl⟩ := List.exists_cons_of_ne_nil hne
    have := hmin r (by simp)
    simp only [rowMinutes, List.map_cons, List.sum_cons]
    omega
  have hnat : 0 < (rowMinutes rows + 29) / 30 := by omega
  have hcast : (0 : ℚ) < (((rowMinutes rows + 29) / 30 : ℕ) : ℚ) := by exact_mod_cast hnat
  unfold rowsMan
  linarith

theorem rowsMan_nonneg (rows : List DayRow) : 0 ≤ rowsMan rows := by
  unfold rowsMan
  positivity

/-- The closeout's stamp as the job's book reads it afterwards. -/
theorem labor_stampCloseout (hours : ℚ) (hlive : db.live k) (hfound : (db.labor jobId).closeout? c.id = some c) :
    SameOlder c (db.labor jobId) ((db.stampCloseout c.id k hours).labor jobId) ∧
      closeoutHoursHolder ((db.stampCloseout c.id k hours).labor jobId) c = some k := by
  set g : CloseoutRow → CloseoutRow := fun r =>
    if r.id = c.id then { r with billedInvoiceId := some k, manHoursBilled := some hours } else r with hg
  have hrows : ((db.stampCloseout c.id k hours).labor jobId).closeouts =
      (db.labor jobId).closeouts.map g := by
    simp only [BillingDb.labor, BillingDb.stampCloseout, List.filter_map, List.map_map]
    have hfilter : ((fun q : JobCloseout => decide (q.jobId = jobId)) ∘ fun q =>
        if q.row.id = c.id then
          { q with row := { q.row with billedInvoiceId := some k, manHoursBilled := some hours } }
        else q) = fun q => decide (q.jobId = jobId) := by
      funext q
      simp only [Function.comp_apply]
      split <;> rfl
    rw [hfilter]
    refine List.map_congr_left fun q _ => ?_
    simp only [Function.comp_apply, hg]
    split <;> rfl
  have hlookup : ∀ x, ((db.stampCloseout c.id k hours).labor jobId).closeout? x =
      ((db.labor jobId).closeout? x).map g := by
    intro x
    unfold LaborBook.closeout?
    rw [hrows, List.find?_map]
    congr 2
    funext r
    simp only [Function.comp_apply, hg]
    split <;> rfl
  refine ⟨⟨?_, rfl, fun _ => rfl, ?_⟩, ?_⟩
  · rw [hrows, List.length_map]
  · intro x hx
    rw [hlookup]
    cases hrow : (db.labor jobId).closeout? x with
    | none => rfl
    | some r =>
      have hid : r.id = x := by simpa using List.find?_some hrow
      simp [hg, hid, hx]
  · unfold closeoutHoursHolder
    rw [hlookup, hfound]
    have hlive' : ((db.stampCloseout c.id k hours).labor jobId).isLive k = true :=
      (labor_isLive db jobId k).mpr hlive
    simp [hg, Option.filter, hlive']

/-- What a build's lines bill: the day rows it was given, and the closeout when its hours are on it. -/
theorem mem_billed_sources {s : LaborBook} (hlane : s.lane = .service) {rows : List DayRow}
    (hrows : rows ≠ [] → 0 < rowsMan rows) {x : Source} :
    (∃ l ∈ (jobLaborLines zone s (some c) (some k) rows).map BuiltLine.billed, x ∈ l.sources) ↔
      x ∈ (rows.map DayRow.id).map Source.dayRow ∨
        (0 < (finalDay s (some c) (some k)).hours ∧ x = .closeout c.id) := by
  obtain ⟨hlines, hnil⟩ := jobLaborLines_links (c := c) (k := k) zone hlane rows
  by_cases hpos : 0 < attestedMan s (some c) (some k) rows
  · obtain ⟨pre, last, heq, hids, hclose, hpre⟩ := hlines hpos
    have hpre' : ∀ b ∈ pre, (BuiltLine.billed b).sources = [] := by
      intro b hb
      obtain ⟨h1, h2⟩ := hpre b hb
      simp [BuiltLine.billed, BillLine.sources, h1, h2]
    have hlast : x ∈ (BuiltLine.billed last).sources ↔ x ∈ (rows.map DayRow.id).map Source.dayRow ∨
        (0 < (finalDay s (some c) (some k)).hours ∧ x = .closeout c.id) := by
      simp only [BillLine.sources, BuiltLine.billed, hids, hclose, Option.toList_none, List.map_nil,
        List.nil_append, Option.getD_some, List.mem_append]
      split <;> simp_all
    rw [heq, ← hlast]
    constructor
    · rintro ⟨l, hl, hx⟩
      rw [List.map_append, List.mem_append] at hl
      rcases hl with hl | hl
      · obtain ⟨b, hb, rfl⟩ := List.mem_map.mp hl
        rw [hpre' b hb] at hx
        simp at hx
      · rw [List.map_singleton, List.mem_singleton] at hl
        exact hl ▸ hx
    · exact fun hx => ⟨_, List.mem_map_of_mem (List.mem_append_right _ (List.mem_singleton_self last)), hx⟩
  · have hman := finalDay_man_nonneg (s := s) (some c) (some k)
    have hrow : rows = [] := by
      by_contra hne
      refine hpos ?_
      have := hrows hne
      unfold attestedMan
      linarith
    have hhours : ¬0 < (finalDay s (some c) (some k)).hours := by
      intro h
      refine hpos ?_
      have h1 := finalDay_man_pos h
      have h2 := rowsMan_nonneg rows
      unfold attestedMan
      linarith
    rw [hnil (by linarith), hrow]
    simp [hhours]

/-- The labor of a draft that holds nothing yet: its lines bill what it claims. -/
theorem buildCloseoutLabor_claims (zone : ShopZone) (hk : Keyed db) (hn : HoursNonneg db) (hlive : db.live k)
    (hnone : ∀ x, db.stamp x ≠ some k) (hcur : (db.labor jobId).current = some c) :
    ∃ C, Claims k C db (buildCloseoutLabor zone db k jobId c).1 ∧
      (∀ x, x ∈ C ↔ ∃ l ∈ (buildCloseoutLabor zone db k jobId c).2, x ∈ l.sources) ∧
      ∀ l ∈ (buildCloseoutLabor zone db k jobId c).2, l.partId = none ∧ l.changeOrderId = none := by
  unfold buildCloseoutLabor
  by_cases hlane : (db.job jobId).lane ≠ .service
  · rw [if_pos hlane]
    exact ⟨[], Claims.refl k db, by simp, by simp⟩
  rw [if_neg hlane]
  push Not at hlane
  rw [← freeDayRows]
  have hclaim := claimFreeDayRows_claims k jobId hk
  have hheld := mem_heldDayRows jobId hk hnone
  have hday : ∀ e : TimeEntry, (decide (e.jobId = jobId) && e.isDayRow) = true → e.isDayRow = true := by
    intro e he
    simp only [Bool.and_eq_true] at he
    exact he.2
  have hminutes := heldDayRows_minutes (db.claimDayRows k (freeDayRows db jobId)) k hday
  set db₁ := db.claimDayRows k (freeDayRows db jobId) with hdb₁
  set rows := heldDayRows db₁ k fun e => decide (e.jobId = jobId) && e.isDayRow with hrowsdef
  have hbook : db₁.labor jobId = db.labor jobId := rfl
  dsimp only
  rw [hbook]
  obtain ⟨jc, hjc, rfl, hfound⟩ := labor_current hk hcur
  have hfreek : jc.row.billedInvoiceId ≠ some k := by
    intro h
    exact hnone (.closeout jc.row.id) ((holderOf_of_mem hk.closeouts hjc).trans h)
  have hbookRows : ∀ r ∈ (db.labor jobId).closeouts, ∃ q ∈ db.closeouts, q.row = r := by
    intro r hr
    obtain ⟨q, hq, hqr⟩ := List.mem_map.mp hr
    exact ⟨q, List.mem_of_mem_filter hq, hqr⟩
  have holderRows : ∀ r ∈ (db.labor jobId).closeouts, ∀ p ∈ r.supersedesId, p < r.id := by
    intro r hr
    obtain ⟨q, hq, rfl⟩ := hbookRows r hr
    exact hk.older q hq
  have hnonneg : ∀ r ∈ (db.labor jobId).closeouts, ∀ x ∈ r.manHoursBilled, 0 ≤ x := by
    intro r hr
    obtain ⟨q, hq, rfl⟩ := hbookRows r hr
    exact hn q hq
  have hlivek : (db.labor jobId).isLive k = true := (labor_isLive db jobId k).mpr hlive
  have hrowsPos : rows ≠ [] → 0 < rowsMan rows := fun hne => rowsMan_pos hne hminutes
  have hmem : ∀ {s : LaborBook}, s.lane = .service → ∀ x,
      (∃ l ∈ (jobLaborLines zone s (some jc.row) (some k) rows).map BuiltLine.billed, x ∈ l.sources) ↔
        x ∈ (freeDayRows db jobId).map Source.dayRow ∨
          (0 < (finalDay s (some jc.row) (some k)).hours ∧ x = .closeout jc.row.id) := by
    intro s hs x
    rw [mem_billed_sources hs hrowsPos]
    simp only [List.mem_map (l := rows.map DayRow.id), List.mem_map (l := freeDayRows db jobId), hheld]
  have hparts : ∀ {ls : List BuiltLine}, ∀ l ∈ ls.map BuiltLine.billed,
      l.partId = none ∧ l.changeOrderId = none := by
    intro ls l hl
    obtain ⟨b, -, rfl⟩ := List.mem_map.mp hl
    exact ⟨rfl, rfl⟩
  cases hsucc : (claimCloseoutHours (db.labor jobId) k (some jc.row)).2 with
  | true =>
    have hiff := (claimCloseoutHours_iff (k := k) hfound).mp hsucc
    have hdead : ∀ o ∈ jc.row.billedInvoiceId, ¬db₁.live o := by
      intro o ho hlo
      have : (db.labor jobId).isLive o = true := (labor_isLive db jobId o).mpr hlo
      have hany := hiff.2
      rw [Option.mem_def.mp ho] at hany
      simp [this] at hany
    have hstamp := stampCloseout_claims (k := k) (closeoutManHoursToBill (db.labor jobId) jc.row)
      (hclaim.keyed hk) (c := jc) hjc (le_max_left _ _) hdead
    have hlive₁ : db₁.live k := hlive
    obtain ⟨hsame, hholder⟩ := labor_stampCloseout (closeoutManHoursToBill (db.labor jobId) jc.row) hlive₁ hfound
    have hhours := finalDay_hours_claimed hfound hlivek hfreek holderRows hnonneg hsame
      (fun _ => hholder) (fun h => by simp [hsucc] at h)
    rw [if_pos rfl]
    refine ⟨_, hclaim.trans hstamp, fun x => ?_, hparts⟩
    rw [hmem hlane, List.mem_append, List.mem_singleton, hhours]
    simp [hsucc]
  | false =>
    have hhours := finalDay_hours_claimed hfound hlivek hfreek holderRows hnonneg
      ⟨rfl, rfl, fun _ => rfl, fun _ _ => rfl⟩ (fun h => by simp [hsucc] at h) (fun _ => rfl)
    rw [if_neg (by simp)]
    refine ⟨_, hclaim, fun x => ?_, hparts⟩
    rw [hbook, hmem hlane, hhours]
    simp [hsucc]

/-- The parts a closeout bills. -/
def closeoutParts (db : BillingDb) (jobId : ℕ) : List PartRow := db.parts.filter (closeoutPart jobId)

theorem closeoutParts_claims (k jobId : ℕ) (hk : Keyed db) :
    Claims k ((closeoutParts db jobId).map fun p => .part p.id) db
      { db with parts := claimRows k (closeoutPart jobId) db.parts } := by
  have hids : (closeoutParts db jobId).map (fun p => Source.part p.id) =
      ((closeoutParts db jobId).map PartRow.id).map .part := by
    rw [List.map_map]
    rfl
  rw [hids]
  refine (tableClaim_of k hk.parts ?_ ?_).parts
  · intro p hmem hp
    refine ⟨List.mem_map_of_mem (List.mem_filter.mpr ⟨hmem, hp⟩), ?_⟩
    · simp only [closeoutPart, Bool.and_eq_true, Option.isNone_iff_eq_none] at hp
      exact hp.1.1.1.2
  · intro x hx
    obtain ⟨p, hp, rfl⟩ := List.mem_map.mp hx
    obtain ⟨hmem, hsel⟩ := List.mem_filter.mp hp
    exact ⟨p, hmem, hsel, rfl⟩

/-- Everything a draft that holds nothing yet claims is on its lines, a part on one of them. -/
theorem buildCloseoutLines_claims (zone : ShopZone) (matrix : Option LaborLine) (hk : Keyed db) (hn : HoursNonneg db)
    (hlive : db.live k) (hnone : ∀ x, db.stamp x ≠ some k) (hcur : (db.labor jobId).current = some c) :
    ∃ C, Claims k C db (buildCloseoutLines zone db k jobId c matrix).1 ∧
      (∀ x, x ∈ C ↔ ∃ l ∈ (buildCloseoutLines zone db k jobId c matrix).2, x ∈ l.sources) ∧
      (∀ p, ((buildCloseoutLines zone db k jobId c matrix).2.filter fun l => l.partId = some p).length ≤ 1) ∧
      ∀ l ∈ (buildCloseoutLines zone db k jobId c matrix).2, l.changeOrderId = none := by
  obtain ⟨C, hclaims, hC, hlabor⟩ := buildCloseoutLabor_claims zone hk hn hlive hnone hcur
  have hparts := closeoutParts_claims k jobId (hclaims.keyed hk)
  unfold buildCloseoutLines
  dsimp only
  rw [← closeoutParts]
  generalize hb : buildCloseoutLabor zone db k jobId c = built at *
  obtain ⟨db₁, labor⟩ := built
  set install := if (db.job jobId).lane = .install then matrix.toList.map plainLine else [] with hinstall
  have hplain : ∀ l ∈ install, ∃ q, l = plainLine q := by
    intro l hl
    rw [hinstall] at hl
    split at hl
    · obtain ⟨q, -, rfl⟩ := List.mem_map.mp hl
      exact ⟨q, rfl⟩
    · simp at hl
  have hpartSources : ∀ p : PartRow, p.line.sources = [.part p.id] := fun _ => rfl
  refine ⟨_, hclaims.trans hparts, fun x => ?_, fun p => ?_, ?_⟩
  · simp only [List.mem_append, or_and_right, exists_or, hC]
    have hnone' : ¬∃ l ∈ install, x ∈ l.sources := by
      rintro ⟨l, hl, hx⟩
      obtain ⟨q, rfl⟩ := hplain l hl
      exact mem_plainLine hx
    have hlines : (∃ l ∈ (closeoutParts db₁ jobId).map PartRow.line, x ∈ l.sources) ↔
        x ∈ (closeoutParts db₁ jobId).map fun p => Source.part p.id := by
      constructor
      · rintro ⟨l, hl, hx⟩
        obtain ⟨q, hq, rfl⟩ := List.mem_map.mp hl
        rw [hpartSources, List.mem_singleton] at hx
        exact hx ▸ List.mem_map_of_mem hq
      · intro hx
        obtain ⟨q, hq, rfl⟩ := List.mem_map.mp hx
        exact ⟨q.line, List.mem_map_of_mem hq, by rw [hpartSources]; exact List.mem_singleton_self _⟩
    simp only [hnone', false_or, hlines]
  · have hzero : (install ++ labor).filter (fun l => l.partId = some p) = [] := by
      refine List.filter_eq_nil_iff.mpr fun l hl => ?_
      rcases List.mem_append.mp hl with hl | hl
      · obtain ⟨q, rfl⟩ := hplain l hl
        simp [plainLine]
      · simp [(hlabor l hl).1]
    rw [List.filter_append, hzero, List.nil_append, List.filter_map, List.length_map]
    have hnodup : ((closeoutParts db₁ jobId).map key).Nodup :=
      (hclaims.keyed hk).parts.sublist (List.filter_sublist.map key)
    have hcount : ((closeoutParts db₁ jobId).filter
        ((fun l : BillLine => decide (l.partId = some p)) ∘ PartRow.line)).length =
        ((closeoutParts db₁ jobId).map key).count p := by
      rw [List.count, List.countP_map, List.countP_eq_length_filter]
      congr 1
      refine List.filter_congr fun q _ => ?_
      rw [Bool.eq_iff_iff]
      simp [PartRow.line, key]
    rw [hcount]
    exact List.nodup_iff_count_le_one.mp hnodup p
  · intro l hl
    rcases List.mem_append.mp hl with hl | hl
    · rcases List.mem_append.mp hl with hl | hl
      · obtain ⟨q, rfl⟩ := hplain l hl
        rfl
      · exact (hlabor l hl).2
    · obtain ⟨q, -, rfl⟩ := List.mem_map.mp hl
      rfl

end Autodraft

/-! ### Steps -/

section Steps

variable {zone : ShopZone} {db db' : BillingDb}

/-- An autodraft on a job with no live invoice. -/
theorem DbOk.autodraft (h : DbOk db) (jobId : ℕ) (number : String) (createdAt : Option ℤ)
    (matrix : Option LaborLine) : DbOk (autodraftNew zone db jobId number createdAt matrix) := by
  unfold autodraftNew
  cases hcur : (db.labor jobId).current with
  | none => exact h
  | some c =>
    simp only
    split
    · exact h
    set draft : BillInvoice :=
      { id := db.nextId, number := number, jobId := some jobId, createdAt := createdAt, void := false
        autodraft := true, pulledParts := [], pulledOrders := [], lines := [] } with hdraft
    have hlive : (db.addInvoice draft).live db.nextId := ⟨draft, by simp [BillingDb.addInvoice], rfl, rfl⟩
    have hnone : ∀ x, (db.addInvoice draft).stamp x ≠ some db.nextId := by
      intro x hx
      rw [addInvoice_stamp] at hx
      exact h.not_live_next (h.exact.alive x _ hx)
    obtain ⟨C, hclaims, hC, honce, horders⟩ := buildCloseoutLines_claims zone matrix
      (addInvoice_keyed h.keyed draft) h.hours hlive hnone (c := c) hcur
    generalize buildCloseoutLines zone (db.addInvoice draft) db.nextId jobId c matrix = built at *
    obtain ⟨db₁, lines⟩ := built
    have hkeyed := hclaims.keyed (addInvoice_keyed h.keyed draft)
    have hfree : ∀ x ∈ C, ∀ o ∈ db.stamp x, ¬db.live o := by
      intro x hx o ho hlo
      refine hclaims.free x hx o (by rwa [addInvoice_stamp]) ?_
      obtain ⟨i, hi, hio, hiv⟩ := hlo
      exact ⟨i, List.mem_append_left _ hi, hio, hiv⟩
    split
    · rename_i hnil
      -- a draft without lines claimed nothing
      have hempty : ∀ x, x ∉ C := by
        intro x hx
        obtain ⟨l, hl, -⟩ := (hC x).mp hx
        rw [hnil] at hl
        simp at hl
      have hstamp : ∀ x, db₁.stamp x = db.stamp x := by
        intro x
        rw [hclaims.stamped, if_neg (hempty x), addInvoice_stamp]
      refine h.quiet ?_ ?_ rfl ?_ (hclaims.hours h.hours)
      · exact hkeyed.of_keys rfl (le_refl _)
      · rw [show ({ db₁ with invoices := db.invoices } : BillingDb).nextId = db.nextId + 1 from hclaims.nextId]
        exact Nat.le_succ _
      · intro x
        rw [← hstamp]
        cases x <;> rfl
    · have hinvoices : (db₁.setLines db.nextId lines).invoices =
          db.invoices ++ [{ draft with lines := lines }] := by
        refine setLines_append draft (fun i hi => (h.numbered i hi).ne) ?_
        exact hclaims.invoices
      refine h.adopt (C := C) rfl rfl hinvoices hclaims.nextId (hkeyed.of_keys rfl (le_refl _))
        (hclaims.hours h.hours) hfree ?_ ?_ honce (fun _ => ⟨rfl, rfl, horders⟩)
      · intro x
        rw [setLines_stamp, hclaims.stamped, addInvoice_stamp]
      · intro x
        rw [hC]
        simp [BillInvoice.sources, List.mem_flatMap, hdraft]

theorem live_iff_of_ids {invoices : List BillInvoice} {f : BillInvoice → BillInvoice}
    (hid : ∀ i, (f i).id = i.id) (hvoid : ∀ i, (f i).void = i.void) (hinv : db.invoices = invoices)
    (hinv' : db'.invoices = invoices.map f) (o : ℕ) : db'.live o ↔ db.live o := by
  unfold BillingDb.live
  rw [hinv, hinv']
  constructor
  · rintro ⟨i, hi, hio, hiv⟩
    obtain ⟨j, hj, rfl⟩ := List.mem_map.mp hi
    exact ⟨j, hj, (hid j).symm.trans hio, (hvoid j).symm.trans hiv⟩
  · rintro ⟨j, hj, hjo, hjv⟩
    exact ⟨f j, List.mem_map_of_mem hj, (hid j).trans hjo, (hvoid j).trans hjv⟩

/-- A release of parts and labor, seen from a source. -/
theorem released_stamp (db : BillingDb) (k : ℕ) (x : Source) (hx : ∀ o, x ≠ .order o) :
    ((db.releaseParts k).releaseLabor k).stamp x = (db.stamp x).filter fun p => p ≠ k := by
  cases x with
  | order o => exact absurd rfl (hx o)
  | part y => exact holderOf_releaseRows k db.parts y
  | dayRow y => exact holderOf_releaseRows k db.entries y
  | closeout y => exact holderOf_releaseRows k db.closeouts y

theorem released_keyed (hk : Keyed db) (k : ℕ) : Keyed ((db.releaseParts k).releaseLabor k) := by
  refine hk.of_keys ?_ (le_refl _)
  have hlinks : (releaseRows k db.closeouts).map (fun c => (c.row.id, c.row.supersedesId)) =
      db.closeouts.map fun c => (c.row.id, c.row.supersedesId) := by
    rw [releaseRows, List.map_map]
    refine List.map_congr_left fun c _ => ?_
    simp only [Function.comp_apply]
    split <;> rfl
  simp only [BillingDb.keys, BillingDb.releaseParts, BillingDb.releaseLabor, keys_releaseRows, hlinks]

theorem released_hours (hn : HoursNonneg db) (k : ℕ) : HoursNonneg ((db.releaseParts k).releaseLabor k) := by
  intro c hc x hx
  obtain ⟨r, hr, rfl⟩ := List.mem_map.mp hc
  refine hn r hr x ?_
  split at hx <;> exact hx

/-- An autodraft bills no change order. -/
theorem DbOk.draft_order (h : DbOk db) {i : BillInvoice} (hi : i ∈ db.invoices) (hauto : i.autodraft = true)
    (o : ℕ) : .order o ∉ i.sources := by
  obtain ⟨hparts, horders, hlines⟩ := h.drafts i hi hauto
  rw [BillInvoice.sources, hparts, horders]
  simp only [List.map_nil, List.append_nil, List.mem_flatMap, not_exists, not_and]
  intro l hl
  simp [BillLine.sources, hlines l hl]

/-- The rebuild of an autodraft: it gives everything back and claims anew. -/
theorem DbOk.rebuild (h : DbOk db) (jobId k : ℕ) (matrix : Option LaborLine) :
    DbOk (autodraftRebuild zone db jobId k matrix) := by
  unfold autodraftRebuild
  split
  swap
  · exact h
  rename_i hany
  obtain ⟨inv, hinv, hsel⟩ := List.any_eq_true.mp hany
  simp only [Bool.and_eq_true, decide_eq_true_eq, Bool.not_eq_true'] at hsel
  obtain ⟨⟨⟨hid, -⟩, hauto⟩, hvoid⟩ := hsel
  set released := (db.releaseParts k).releaseLabor k with hreleased
  dsimp only
  cases hcur : ((released.setLines k []).labor jobId).current with
  | none => exact h
  | some c =>
    simp only
    have hlivedb : db.live k := ⟨inv, hinv, hid, hvoid⟩
    have hset : ∀ lines : List BillLine, ∀ i : BillInvoice,
        (if i.id = k then { i with lines := lines } else i).id = i.id ∧
          (if i.id = k then { i with lines := lines } else i).void = i.void ∧
          (if i.id = k then { i with lines := lines } else i).autodraft = i.autodraft := by
      intro lines i
      split <;> exact ⟨rfl, rfl, rfl⟩
    have hempty : ∀ o, (released.setLines k []).live o ↔ db.live o :=
      live_iff_of_ids (fun i => (hset [] i).1) (fun i => (hset [] i).2.1) rfl rfl
    -- every stamp of the draft is gone: it held no change order
    have hstampR : ∀ x, (released.setLines k []).stamp x = (db.stamp x).filter fun p => p ≠ k := by
      intro x
      rw [setLines_stamp]
      by_cases hx : ∃ o, x = .order o
      · obtain ⟨o, rfl⟩ := hx
        have hkeep : ∀ p ∈ db.stamp (.order o), p ≠ k := by
          rintro p hp rfl
          obtain ⟨i, hi, hik, hio⟩ := (h.exact.held p hlivedb (.order o)).mpr hp
          have heq := List.inj_on_of_nodup_map h.invoiceIds hi hinv (hik.trans hid.symm)
          exact h.draft_order hinv hauto o (heq ▸ hio)
        change db.stamp (.order o) = _
        cases hs : db.stamp (.order o) with
        | none => rfl
        | some p => simp [Option.filter, hkeep p hs]
      · exact released_stamp db k x fun o ho => hx ⟨o, ho⟩
    have hnone : ∀ x, (released.setLines k []).stamp x ≠ some k := by
      intro x hx
      rw [hstampR, Option.filter_eq_some_iff] at hx
      simp at hx
    have hkeyedR : Keyed (released.setLines k []) := (released_keyed h.keyed k).of_keys rfl (le_refl _)
    obtain ⟨C, hclaims, hC, honce, horders⟩ := buildCloseoutLines_claims zone matrix hkeyedR
      (released_hours h.hours k) ((hempty k).mpr hlivedb) hnone hcur
    generalize buildCloseoutLines zone (released.setLines k []) k jobId c matrix = built at *
    obtain ⟨db₁, lines⟩ := built
    have hinvoices : (db₁.setLines k lines).invoices =
        db.invoices.map fun i => if i.id = k then { i with lines := lines } else i := by
      change db₁.invoices.map _ = _
      rw [hclaims.invoices]
      change (db.invoices.map _).map _ = _
      rw [List.map_map]
      refine List.map_congr_left fun i _ => ?_
      simp only [Function.comp_apply]
      by_cases hik : i.id = k <;> simp [hik]
    have hmem : ∀ i ∈ (db₁.setLines k lines).invoices, (i.id ≠ k ∧ i ∈ db.invoices) ∨
        i = { inv with lines := lines } := by
      intro i hi
      rw [hinvoices] at hi
      obtain ⟨j, hj, rfl⟩ := List.mem_map.mp hi
      by_cases hjk : j.id = k
      · rw [if_pos hjk, List.inj_on_of_nodup_map h.invoiceIds hj hinv (hjk.trans hid.symm)]
        exact Or.inr rfl
      · rw [if_neg hjk]
        exact Or.inl ⟨hjk, hj⟩
    have hnew : ({ inv with lines := lines } : BillInvoice) ∈ (db₁.setLines k lines).invoices := by
      rw [hinvoices]
      refine List.mem_map.mpr ⟨inv, hinv, ?_⟩
      rw [if_pos hid]
    obtain ⟨hpulled, hpulledOrders, -⟩ := h.drafts inv hinv hauto
    refine ⟨?_, ?_, ?_, hclaims.hours (released_hours h.hours k), ?_, ?_, ?_⟩
    · exact (hclaims.keyed hkeyedR).of_keys rfl (le_refl _)
    · rw [hinvoices, List.map_map]
      exact (List.map_congr_left fun i _ => (hset lines i).1) ▸ h.invoiceIds
    · intro i hi
      rw [show (db₁.setLines k lines).nextId = db.nextId from hclaims.nextId]
      rcases hmem i hi with ⟨-, hi⟩ | rfl
      · exact h.numbered i hi
      · exact h.numbered inv hinv
    · have hrest := h.exact.release (k := k)
        (fun _ => rfl) (fun _ => Iff.rfl)
        (fun _ _ _ => Iff.rfl)
      refine hrest.claim (k := k) (C := (· ∈ C)) (fun hk => hk.2 rfl) ?_ ?_ ?_ ?_ ?_
      · rintro x hx o ho ⟨hlo, -⟩
        exact hclaims.free x hx o (by rwa [hstampR]) ((hempty o).mpr hlo)
      · intro x
        rw [setLines_stamp, hclaims.stamped, hstampR]
      · intro o
        rw [live_iff_of_ids (fun i => (hset lines i).1) (fun i => (hset lines i).2.1) rfl hinvoices]
        constructor
        · intro hlo
          by_cases hok : o = k
          · exact Or.inr hok
          · exact Or.inl ⟨hlo, hok⟩
        · rintro (⟨hlo, -⟩ | rfl)
          · exact hlo
          · exact hlivedb
      · intro x
        rw [hC]
        have hsources : x ∈ ({ inv with lines := lines } : BillInvoice).sources ↔ ∃ l ∈ lines, x ∈ l.sources := by
          simp [BillInvoice.sources, hpulled, hpulledOrders, List.mem_flatMap]
        rw [← hsources]
        constructor
        · rintro ⟨i, hi, hik, hx⟩
          rcases hmem i hi with ⟨hne, -⟩ | rfl
          · exact absurd hik hne
          · exact hx
        · exact fun hx => ⟨_, hnew, hid, hx⟩
      · intro o hne x
        constructor
        · rintro ⟨i, hi, hio, hx⟩
          rcases hmem i hi with ⟨-, hi⟩ | rfl
          · exact ⟨i, hi, hio, hx⟩
          · exact absurd (hio.symm.trans hid) hne
        · rintro ⟨i, hi, hio, hx⟩
          refine ⟨i, ?_, hio, hx⟩
          rw [hinvoices]
          refine List.mem_map.mpr ⟨i, hi, if_neg fun hik => hne (hio.symm.trans hik)⟩
    · intro i hi hiv
      rcases hmem i hi with ⟨-, hi⟩ | rfl
      · exact h.once i hi hiv
      · exact honce
    · intro i hi
      rcases hmem i hi with ⟨-, hi⟩ | rfl
      · exact h.drafts i hi
      · exact fun _ => ⟨hpulled, hpulledOrders, horders⟩

/-- A void gives back everything the invoice holds. -/
theorem DbOk.void (h : DbOk db) (k : ℕ) : DbOk (voidBilledInvoice db k) := by
  unfold voidBilledInvoice
  split
  swap
  · exact h
  have hmem : ∀ i, i ∈ (db.setVoid k).invoices → ∃ j ∈ db.invoices, i.id = j.id ∧ i.lines = j.lines ∧
      i.sources = j.sources ∧ (i.autodraft = true → j.autodraft = true) ∧ i.pulledParts = j.pulledParts ∧
      i.pulledOrders = j.pulledOrders ∧ (i.void = false → i.id ≠ k ∧ i = j) := by
    intro i hi
    obtain ⟨j, hj, rfl⟩ := List.mem_map.mp hi
    refine ⟨j, hj, ?_⟩
    by_cases hjk : j.id = k
    · rw [if_pos hjk]
      exact ⟨rfl, rfl, rfl, id, rfl, rfl, fun hv => by simp at hv⟩
    · rw [if_neg hjk]
      exact ⟨rfl, rfl, rfl, id, rfl, rfl, fun _ => ⟨hjk, rfl⟩⟩
  have hlive : ∀ o, (db.setVoid k).live o ↔ db.live o ∧ o ≠ k := by
    intro o
    constructor
    · rintro ⟨i, hi, hio, hiv⟩
      obtain ⟨j, hj, -, -, -, -, -, -, hkeep⟩ := hmem i hi
      obtain ⟨hne, rfl⟩ := hkeep hiv
      exact ⟨⟨i, hj, hio, hiv⟩, hio ▸ hne⟩
    · rintro ⟨⟨i, hi, hio, hiv⟩, hne⟩
      refine ⟨i, List.mem_map.mpr ⟨i, hi, if_neg fun hik => hne (hio.symm.trans hik)⟩, hio, hiv⟩
  have hholds : ∀ o x, (db.setVoid k).holds o x ↔ db.holds o x := by
    intro o x
    constructor
    · rintro ⟨i, hi, hio, hx⟩
      obtain ⟨j, hj, hid, -, hsrc, -⟩ := hmem i hi
      exact ⟨j, hj, hid ▸ hio, hsrc ▸ hx⟩
    · rintro ⟨i, hi, hio, hx⟩
      refine ⟨_, List.mem_map_of_mem hi, ?_, ?_⟩
      · split <;> exact hio
      · split <;> exact hx
  have hkeyed : Keyed ({ db.releaseParts k with orders := releaseRows k db.orders }.releaseLabor k) := by
    refine (released_keyed h.keyed k).of_keys ?_ (le_refl _)
    simp only [BillingDb.keys, BillingDb.releaseParts, BillingDb.releaseLabor, keys_releaseRows]
  refine ⟨hkeyed.of_keys rfl (le_refl _), ?_, ?_, released_hours h.hours k, ?_, ?_, ?_⟩
  · change ((db.invoices.map _).map _).Nodup
    rw [List.map_map]
    refine (List.map_congr_left fun i _ => ?_) ▸ h.invoiceIds
    simp only [Function.comp_apply]
    split <;> rfl
  · intro i hi
    obtain ⟨j, hj, hid, -⟩ := hmem i hi
    exact hid ▸ h.numbered j hj
  · refine h.exact.release (k := k) ?_ hlive fun o _ x => hholds o x
    intro x
    cases x with
    | part y => exact holderOf_releaseRows k db.parts y
    | order y => exact holderOf_releaseRows k db.orders y
    | dayRow y => exact holderOf_releaseRows k db.entries y
    | closeout y => exact holderOf_releaseRows k db.closeouts y
  · intro i hi hiv
    obtain ⟨j, hj, -, -, -, -, -, -, hkeep⟩ := hmem i hi
    obtain ⟨-, rfl⟩ := hkeep hiv
    exact h.once i hj hiv
  · intro i hi hauto
    obtain ⟨j, hj, -, hlines, -, hdraft, hparts, horders, -⟩ := hmem i hi
    rw [hlines, hparts, horders]
    exact h.drafts j hj (hdraft hauto)

/-- A new row takes the next id. -/
theorem fresh_keys {ρ : Type} [Claimable ρ ℕ ℕ] {keys : List ℕ} {rows : List ρ} {n : ℕ} (hkeys : keys.Nodup)
    (hlt : ∀ x ∈ keys, x < n) (hrows : (rows.map key).Perm (n :: keys)) :
    (rows.map key).Nodup ∧ ∀ x ∈ rows.map key, x < n + 1 := by
  refine ⟨hrows.nodup_iff.mpr (List.nodup_cons.mpr ⟨fun hn => (hlt n hn).false, hkeys⟩), fun x hx => ?_⟩
  rcases List.mem_cons.mp (hrows.mem_iff.mp hx) with rfl | hx
  · exact Nat.lt_succ_self _
  · exact Nat.lt_succ_of_lt (hlt x hx)

theorem keys_append {ρ : Type} [Claimable ρ ℕ ℕ] (rows : List ρ) {r : ρ} {n : ℕ} (hr : key r = n) :
    ((rows ++ [r]).map key).Perm (n :: rows.map key) := by
  rw [List.map_append, List.map_singleton, hr]
  exact List.perm_append_singleton n (rows.map key)

theorem Keyed.later (h : Keyed db) : Keyed { db with nextId := db.nextId + 1 } := h.of_keys rfl (Nat.le_succ _)

theorem DbOk.addPart (h : DbOk db) (row : PartRow) : DbOk (billingStep zone db (.addPart row)) := by
  have hk := h.keyed
  obtain ⟨hnodup, hlt⟩ := fresh_keys hk.parts hk.partsLt
    (keys_append db.parts (r := { row with id := db.nextId, billedInvoiceId := none }) rfl)
  refine h.quiet { hk.later with parts := hnodup, partsLt := hlt } (Nat.le_succ _) rfl ?_ h.hours
  intro x
  cases x with
  | part y => exact holderOf_append_free db.parts rfl y
  | _ => rfl

theorem DbOk.addOrder (h : DbOk db) (row : ChangeOrder) : DbOk (billingStep zone db (.addOrder row)) := by
  have hk := h.keyed
  obtain ⟨hnodup, hlt⟩ := fresh_keys hk.orders hk.ordersLt
    (keys_append db.orders (r := { row with id := db.nextId, billedInvoiceId := none }) rfl)
  refine h.quiet { hk.later with orders := hnodup, ordersLt := hlt } (Nat.le_succ _) rfl ?_ h.hours
  intro x
  cases x with
  | order y => exact holderOf_append_free db.orders rfl y
  | _ => rfl

theorem DbOk.addEntry (h : DbOk db) (row : TimeEntry) : DbOk (billingStep zone db (.addEntry row)) := by
  have hk := h.keyed
  obtain ⟨hnodup, hlt⟩ := fresh_keys hk.entries hk.entriesLt
    (keys_append db.entries (r := { row with id := db.nextId, billedInvoiceId := none }) rfl)
  refine h.quiet { hk.later with entries := hnodup, entriesLt := hlt } (Nat.le_succ _) rfl ?_ h.hours
  intro x
  cases x with
  | dayRow y => exact holderOf_append_free db.entries rfl y
  | _ => rfl

/-- A closeout is a new row that nobody holds, and the row it supersedes is older. -/
theorem DbOk.closeout (h : DbOk db) (jobId : ℕ) (hours : ℚ) (techs : Option ℤ) (now : ℤ) :
    DbOk (db.closeout jobId hours techs now) := by
  have hk := h.keyed
  unfold BillingDb.closeout
  set prior := (db.labor jobId).current with hprior
  set mark : JobCloseout → JobCloseout := fun c =>
    if some c.row.id = prior.map CloseoutRow.id then { c with row := { c.row with superseded := true } }
    else c with hmark
  have hkey : ∀ c, key (mark c) = key c := by
    intro c
    simp only [hmark]
    split <;> rfl
  have hholder : ∀ c, holder (mark c) = holder c := by
    intro c
    simp only [hmark]
    split <;> rfl
  have hrest : ∀ c, (mark c).row.supersedesId = c.row.supersedesId ∧ (mark c).row.id = c.row.id ∧
      (mark c).row.manHoursBilled = c.row.manHoursBilled := by
    intro c
    simp only [hmark]
    split <;> exact ⟨rfl, rfl, rfl⟩
  have hkeys : (db.closeouts.map mark).map key = db.closeouts.map key := by
    rw [List.map_map]
    exact List.map_congr_left fun c _ => hkey c
  dsimp only
  set new : JobCloseout :=
    { jobId := jobId
      row := { id := db.nextId, hoursWorked := hours, techsOnSite := techs, closedAt := some now
               superseded := false, supersedesId := prior.map CloseoutRow.id
               isRestatement := some (prior.isSome && (db.job jobId).completed), billedInvoiceId := none
               manHoursBilled := none } } with hnew
  have hperm : ((new :: db.closeouts.map mark).map key).Perm (db.nextId :: db.closeouts.map key) := by
    rw [List.map_cons, hkeys]
    exact List.Perm.refl _
  obtain ⟨hnodup, hlt⟩ := fresh_keys hk.closeouts hk.closeoutsLt hperm
  refine h.quiet { hk.later with closeouts := hnodup, closeoutsLt := hlt, older := ?_ } (Nat.le_succ _) rfl ?_ ?_
  · intro c hc p hp
    rcases List.mem_cons.mp hc with rfl | hc
    · obtain ⟨r, hr, rfl⟩ := Option.mem_map.mp hp
      obtain ⟨q, hq, hrow, -⟩ := labor_current hk hr
      exact hk.closeoutsLt _ (List.mem_map.mpr ⟨q, hq, congrArg CloseoutRow.id hrow⟩)
    · obtain ⟨q, hq, rfl⟩ := List.mem_map.mp hc
      obtain ⟨hold, hid, -⟩ := hrest q
      rw [hid]
      exact hk.older q hq p (hold ▸ hp)
  · intro x
    cases x with
    | part y => rfl
    | order y => rfl
    | dayRow y => rfl
    | closeout y =>
      change holderOf (new :: db.closeouts.map mark) y = holderOf db.closeouts y
      rw [← holderOf_map mark hkey hholder db.closeouts y]
      exact holderOf_cons_free rfl (hkeys ▸ fun hn => (hk.closeoutsLt _ hn).false) y
  · intro c hc x hx
    rcases List.mem_cons.mp hc with rfl | hc
    · simp [hnew] at hx
    · obtain ⟨q, hq, rfl⟩ := List.mem_map.mp hc
      exact h.hours q hq x ((hrest q).2.2 ▸ hx)

theorem DbOk.of_empty (job : ℕ → ShopJob) : DbOk (BillingDb.empty job) := by
  constructor
  case keyed => constructor <;> simp [BillingDb.empty]
  case exact =>
    refine ⟨by simp [BillingDb.empty, BillingDb.live], fun x o hx => ?_⟩
    cases x <;> simp [BillingDb.empty, BillingDb.stamp, holderOf] at hx
  all_goals simp [BillingDb.empty, HoursNonneg]

/-- The requests of a run name each part on one line that is saved. -/
def BillingStep.Plain : BillingStep → Prop
  | .create req => req.Plain
  | _ => True

/-- One step keeps stamps and lines together. -/
theorem DbOk.step (h : DbOk db) {s : BillingStep} (hplain : s.Plain) : DbOk (billingStep zone db s) := by
  cases s with
  | addPart row => exact h.addPart row
  | addOrder row => exact h.addOrder row
  | addEntry row => exact h.addEntry row
  | closeout jobId hours techs now => exact h.closeout jobId hours techs now
  | uncomplete jobId now => exact h.quiet (h.keyed.of_keys rfl (le_refl _)) (le_refl _) rfl (fun _ => rfl) h.hours
  | saveSettings settings =>
    exact h.quiet (h.keyed.of_keys rfl (le_refl _)) (le_refl _) rfl (fun _ => rfl) h.hours
  | create req =>
    simp only [billingStep]
    split
    · exact h.create hplain ‹_›
    · exact h
  | autodraft jobId number createdAt matrix => exact h.autodraft jobId number createdAt matrix
  | rebuild jobId invoiceId matrix => exact h.rebuild jobId invoiceId matrix
  | void invoiceId => exact h.void invoiceId

theorem DbOk.run {steps : List BillingStep} (h : DbOk db) (hplain : ∀ s ∈ steps, s.Plain) :
    DbOk (runBilling zone db steps) := by
  induction steps generalizing db with
  | nil => exact h
  | cons s rest ih => exact ih (h.step (hplain s (by simp))) fun t ht => hplain t (by simp [ht])

end Steps

/-! ### No source is billed twice -/

/-- Every source is billed by one live invoice at most, a part by one of its lines, and the stamps name
    exactly the live invoices that bill. -/
structure BilledOnce (db : BillingDb) : Prop where
  invoice : ∀ i ∈ db.invoices, ∀ j ∈ db.invoices, i.void = false → j.void = false →
    ∀ x, x ∈ i.sources → x ∈ j.sources → i = j
  line : ∀ i ∈ db.invoices, i.void = false → ∀ p, (i.partLines p).length ≤ 1
  stamped : ∀ x o, db.stamp x = some o ↔ ∃ i ∈ db.invoices, i.id = o ∧ i.void = false ∧ x ∈ i.sources

theorem DbOk.billedOnce {db : BillingDb} (h : DbOk db) : BilledOnce db := by
  refine ⟨?_, h.once, ?_⟩
  · intro i hi j hj hiv hjv x hx hx'
    have hids := h.exact.unique ⟨i, hi, rfl, hiv⟩ ⟨j, hj, rfl, hjv⟩ ⟨i, hi, rfl, hx⟩ ⟨j, hj, rfl, hx'⟩
    exact List.inj_on_of_nodup_map h.invoiceIds hi hj hids
  · intro x o
    constructor
    · intro hs
      obtain ⟨i, hi, hio, hx⟩ := (h.exact.held o (h.exact.alive x o hs) x).mpr hs
      obtain ⟨j, hj, hjo, hjv⟩ := h.exact.alive x o hs
      obtain rfl := List.inj_on_of_nodup_map h.invoiceIds hi hj (hio.trans hjo.symm)
      exact ⟨i, hi, hio, hjv, hx⟩
    · rintro ⟨i, hi, hio, hiv, hx⟩
      exact (h.exact.held o ⟨i, hi, hio, hiv⟩ x).mp ⟨i, hi, hio, hx⟩

/-- In every run whose requests are plain no source is billed twice, and a refused request moves no stamp. -/
theorem no_source_billed_twice (zone : ShopZone) (job : ℕ → ShopJob) (steps : List BillingStep)
    (hplain : ∀ s ∈ steps, s.Plain) :
    BilledOnce (runBilling zone (BillingDb.empty job) steps) ∧
      ∀ (req : CreateIn) (e : ApiError),
        createInvoiceRequest zone (runBilling zone (BillingDb.empty job) steps) req = .error e →
        ∀ x, (billingStep zone (runBilling zone (BillingDb.empty job) steps) (.create req)).stamp x =
          (runBilling zone (BillingDb.empty job) steps).stamp x := by
  refine ⟨((DbOk.of_empty job).run hplain).billedOnce, fun req e he x => ?_⟩
  simp only [billingStep, he]

section Opener

/-- Every job is a service job, still open. -/
def openServiceJobs : ℕ → ShopJob := fun _ => { lane := .service, completed := false, uncompletedAt := [] }

def opener : PartRow where
  id := 0
  jobId := 5
  partName := "Opener".toList
  sku := none
  quantity := some 1
  unitPrice := some 40000
  source := .mobile
  wontBill := false
  billedInvoiceId := none

/-- Bill part `0` once for each description. -/
def billOpener (descriptions : List String) : CreateIn where
  number := "INV-1"
  jobId := some 5
  customerId := 9
  createdAt := some 20
  lineItems := descriptions.map fun d =>
    { description := d.toList, quantity := 1, unitPrice := 40000, partId := some 0 }

/-- A part billed, voided and billed again with the job's hours by an autodraft. -/
def openerRebilled : List BillingStep :=
  [.saveSettings { firstHourPrice := some 150, hourlyRate := some 100, template := fun _ => none
                   updatedAt := some 0 },
    .addPart opener, .closeout 5 1 (some 1) 10, .create (billOpener ["Opener"]), .void 2,
    .autodraft 5 "INV-2" (some 30) none]

theorem no_source_billed_twice_rebilled :
    let db := runBilling utcZone (BillingDb.empty openServiceJobs) openerRebilled
    db.stamp (.part 0) = some 3 ∧ db.stamp (.closeout 1) = some 3 ∧ BilledOnce db := by
  have hplain : ∀ s ∈ openerRebilled, s.Plain := by
    intro s hs
    simp only [openerRebilled, List.mem_cons, List.not_mem_nil, or_false] at hs
    rcases hs with rfl | rfl | rfl | rfl | rfl | rfl
    case inr.inr.inr.inl => exact ⟨by decide, by decide, by decide⟩
    all_goals exact trivial
  exact ⟨by decide +kernel, by decide +kernel, (no_source_billed_twice utcZone openServiceJobs openerRebilled hplain).1⟩

/-- A request with the same part on two of its lines is accepted, and both lines bill it. -/
theorem part_billed_on_two_lines :
    ¬BilledOnce (runBilling utcZone (BillingDb.empty openServiceJobs)
      [.addPart opener, .create (billOpener ["Opener", "Opener, rail and rack"])]) := by
  intro h
  set db := runBilling utcZone (BillingDb.empty openServiceJobs)
    [.addPart opener, .create (billOpener ["Opener", "Opener, rail and rack"])] with hdb
  have hany : db.invoices.any fun i => !i.void && decide (1 < (i.partLines 0).length) := by decide +kernel
  obtain ⟨i, hi, hsel⟩ := List.any_eq_true.mp hany
  simp only [Bool.and_eq_true, Bool.not_eq_true', decide_eq_true_eq] at hsel
  exact absurd (h.line i hi hsel.1 0) (not_le.mpr hsel.2)

end Opener

end Gdx
