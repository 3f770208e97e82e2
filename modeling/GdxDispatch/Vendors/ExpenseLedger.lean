import GdxDispatch.Ledger.Queries
import GdxDispatch.Vendors.BillDesk

/-! What the journal holds of an expense.

    On the live book an expense is one posting at its date, or nothing. Posting, re-dating and dropping an expense move
    its own postings only, also where a locked period refuses one half of a repost and the other half has landed. -/

namespace Gdx
open Lib

variable {H : ContentHash} {S : Text → Text → Prop} {L L' M : Ledger} {R : Rows} {x : Expense}

/-- The live postings of an expense. -/
def Ledger.expenseLive (L : Ledger) (id : ℕ) : Finset Posting := L.liveOf "expense".toList (str id)

/-- The expense has one live posting, recorded at the date. -/
def BookedAt (L : Ledger) (x : Expense) (date : ℤ) : Prop :=
  ∃ p, L.expenseLive x.id = {p} ∧ p.companyId = x.companyId ∧ p.event = "recorded".toList ∧ p.effectiveAt = date

/-- Only the postings of one expense moved, and they are now `B`. -/
structure ExpenseStep (H : ContentHash) (S : Text → Text → Prop) (L L' : Ledger) (id : ℕ) (B : Finset Posting) : Prop where
  tracked : Tracked H S L'
  live : L'.expenseLive id = B
  others : ∀ id', id' ≠ id → L'.expenseLive id' = L.expenseLive id'

theorem ExpenseStep.refl (ht : Tracked H S L) (id : ℕ) : ExpenseStep H S L L id (L.expenseLive id) :=
  ⟨ht, rfl, fun _ _ => rfl⟩

theorem ExpenseStep.trans {id : ℕ} {B B' : Finset Posting} (h : ExpenseStep H S L M id B)
    (h' : ExpenseStep H S M L' id B') : ExpenseStep H S L L' id B' :=
  ⟨h'.tracked, h'.live, fun id' hid => (h'.others id' hid).trans (h.others id' hid)⟩

theorem mem_expenseLive {id : ℕ} {p : Posting} :
    p ∈ L.expenseLive id ↔ p ∈ L.live ∧ p.sourceType = "expense".toList ∧ p.sourceId = str id := mem_liveOf

/-! ### Posting and reversing -/

/-- A posting for an expense is one more live posting of it, at its date. -/
theorem post_expense {lines : List PostingLine} {actor : Option Text} {e : GlJournalEntry} (hfree : H.CollisionFree)
    (ht : Tracked H S L) (hs : S "expense".toList (str x.id))
    (h : postForEvent H (expenseEvent x lines actor) false L = .ok e L') :
    ExpenseStep H S L L' x.id (insert e.posting (L.expenseLive x.id)) ∧ Stands L' e ∧
      e.posting.companyId = x.companyId ∧ e.posting.event = "recorded".toList ∧ e.posting.effectiveAt = x.date ∧
      e.posting.sourceType = "expense".toList ∧ e.posting.sourceId = str x.id := by
  obtain ⟨N, rs, -, -, -, htracked, hst, hlive, hposting⟩ := post_books hfree ht rfl hs h
  have hsource : e.posting.sourceType = "expense".toList ∧ e.posting.sourceId = str x.id := by
    rw [hposting]
    exact ⟨rfl, rfl⟩
  refine ⟨⟨htracked, ?_, ?_⟩, hst, ?_, ?_, ?_, hsource⟩
  · ext p
    rw [mem_expenseLive, hlive, Finset.mem_insert, Finset.mem_insert, mem_expenseLive]
    constructor
    · rintro ⟨rfl | hp, hsrc⟩
      · exact .inl rfl
      · exact .inr ⟨hp, hsrc⟩
    · rintro (rfl | ⟨hp, hsrc⟩)
      · exact ⟨.inl rfl, hsource⟩
      · exact ⟨.inr hp, hsrc⟩
  · intro id' hid
    ext p
    rw [mem_expenseLive, hlive, Finset.mem_insert, mem_expenseLive]
    constructor
    · rintro ⟨rfl | hp, hsrc⟩
      · exact absurd (str_injective (hsrc.2.symm.trans hsource.2)) hid
      · exact ⟨hp, hsrc⟩
    · rintro ⟨hp, hsrc⟩
      exact ⟨.inr hp, hsrc⟩
  · rw [hposting]
    rfl
  · rw [hposting]
    rfl
  · rw [hposting]
    rfl

/-- Reversing an entry of an expense takes its posting off the live book. -/
theorem reverse_expense {e r : GlJournalEntry} {id : ℕ} {at' : Option ℤ} {actor : Option Text} (ht : Tracked H S L)
    (hs : S "expense".toList (str id)) (he : Stands L e) (hmem : e.posting ∈ L.expenseLive id)
    (h : reverseEntry e.id at' actor false L = .ok r L') :
    ExpenseStep H S L L' id ((L.expenseLive id).erase e.posting) := by
  obtain ⟨-, htype, hid⟩ := mem_expenseLive.mp hmem
  have hlands := reverse_lands ht he (show S e.sourceType e.sourceId from by
    rw [show e.sourceType = _ from htype, show e.sourceId = _ from hid]
    exact hs) h
  refine ⟨hlands.tracked, ?_, ?_⟩
  · ext p
    rw [mem_expenseLive, hlands.live, Finset.mem_erase, Finset.mem_erase, mem_expenseLive, and_assoc]
  · intro id' hne
    ext p
    rw [mem_expenseLive, hlands.live, Finset.mem_erase, mem_expenseLive]
    constructor
    · rintro ⟨⟨-, hp⟩, hsrc⟩
      exact ⟨hp, hsrc⟩
    · rintro ⟨hp, hsrc⟩
      refine ⟨⟨?_, hp⟩, hsrc⟩
      rintro rfl
      exact hne (str_injective (hsrc.2.symm.trans hid))

/-- A posting that raises leaves every expense as it was. -/
theorem post_expense_error {event : PostingEvent} {err : LedgerError} (ht : Tracked H S L)
    (h : postForEvent H event false L = .error err L') :
    Tracked H S L' ∧ L'.entries = L.entries := by
  obtain ⟨N, hgrows, haudit⟩ := postForEvent_error h
  have hentries : L'.entries = L.entries := haudit.entries.trans hgrows.entries
  have hinv := (ht.inv.grow hgrows).congr haudit.entries haudit.accounts haudit.nextId
  exact ⟨ht.of_entries hinv hentries, hentries⟩

/-! ### The entries the queries find -/

/-- A live posting of an expense is the posting of an entry that stands. -/
theorem exists_stands {id : ℕ} {p : Posting} (h : p ∈ L.expenseLive id) : ∃ e, Stands L e ∧ e.posting = p := by
  obtain ⟨e, he, hposted, hrev, rfl⟩ := mem_live.mp (mem_expenseLive.mp h).1
  exact ⟨e, ⟨he, hposted, hrev⟩, rfl⟩

theorem mem_postedEntries {e : GlJournalEntry} :
    e ∈ postedEntries L x ↔ Stands L e ∧ e.companyId = x.companyId ∧ e.posting ∈ L.expenseLive x.id := by
  unfold postedEntries
  simp only [List.mem_filter, Bool.and_eq_true, beq_iff_eq, hasSource_iff, isPosted_iff, Option.isNone_iff_eq_none]
  constructor
  · rintro ⟨hmem, ⟨⟨hcompany, htype, hid⟩, hposted⟩, hrev⟩
    have hst : Stands L e := ⟨hmem, hposted, hrev⟩
    exact ⟨hst, hcompany, mem_expenseLive.mpr ⟨hst.mem_live, htype, hid⟩⟩
  · rintro ⟨hst, hcompany, hlive⟩
    obtain ⟨-, htype, hid⟩ := mem_expenseLive.mp hlive
    exact ⟨hst.mem, ⟨⟨hcompany, htype, hid⟩, hst.posted⟩, hst.not_reversal⟩

theorem postedEntries_nil (h : L.expenseLive x.id = ∅) : postedEntries L x = [] := by
  refine List.eq_nil_iff_forall_not_mem.mpr fun e he => ?_
  have hlive := (mem_postedEntries.mp he).2.2
  rw [h] at hlive
  exact absurd hlive (Finset.notMem_empty _)

/-- A list without repetition whose members are all one is that one alone. -/
theorem eq_singleton_of_nodup {α : Type} {l : List α} {a : α} (hnodup : l.Nodup) (ha : a ∈ l) (hall : ∀ b ∈ l, b = a) :
    l = [a] := by
  cases l with
  | nil => exact absurd ha List.not_mem_nil
  | cons b rest =>
    rw [hall b List.mem_cons_self] at hnodup ⊢
    cases rest with
    | nil => rfl
    | cons c rest =>
      rw [hall c (by simp)] at hnodup
      exact absurd List.mem_cons_self (List.nodup_cons.mp hnodup).1

/-- The entries a query finds of an expense with one posting. -/
theorem query_singleton {id : ℕ} {p : Posting} {q : GlJournalEntry → Bool} (ht : Tracked H S L)
    (hs : S "expense".toList (str id)) (hlive : L.expenseLive id = {p})
    (hfinds : ∀ e ∈ L.entries, q e = true → Stands L e ∧ e.posting ∈ L.expenseLive id)
    (hall : ∀ e, Stands L e → e.posting = p → q e = true) :
    ∃ e, L.entries.filter q = [e] ∧ Stands L e ∧ e.posting = p := by
  obtain ⟨e, hst, hposting⟩ := exists_stands (hlive ▸ Finset.mem_singleton_self p : p ∈ L.expenseLive id)
  have hsource := (mem_expenseLive.mp (hlive ▸ Finset.mem_singleton_self p : p ∈ L.expenseLive id)).2
  refine ⟨e, ?_, hst, hposting⟩
  refine eq_singleton_of_nodup ((ht.inv.id_nodup.of_map _).filter _) ?_ ?_
  · exact List.mem_filter.mpr ⟨hst.mem, hall e hst hposting⟩
  · intro e' he'
    obtain ⟨hmem, hq⟩ := List.mem_filter.mp he'
    obtain ⟨hst', hlive'⟩ := hfinds e' hmem hq
    rw [hlive, Finset.mem_singleton] at hlive'
    refine ht.eq_of_posting hst'.mem hst.mem ?_ hst'.posted hst.posted hst'.not_reversal hst.not_reversal
      (hlive'.trans hposting.symm)
    rw [show e'.sourceType = _ from (congrArg Posting.sourceType hlive').trans hsource.1,
      show e'.sourceId = _ from (congrArg Posting.sourceId hlive').trans hsource.2]
    exact hs

theorem postedEntries_singleton {p : Posting} (ht : Tracked H S L) (hs : S "expense".toList (str x.id))
    (hlive : L.expenseLive x.id = {p}) (hcompany : p.companyId = x.companyId) :
    ∃ e, postedEntries L x = [e] ∧ Stands L e ∧ e.posting = p := by
  refine query_singleton ht hs hlive ?_ ?_
  · intro e he hq
    have hmem : e ∈ postedEntries L x := List.mem_filter.mpr ⟨he, hq⟩
    obtain ⟨hst, -, hlive'⟩ := mem_postedEntries.mp hmem
    exact ⟨hst, hlive'⟩
  · intro e hst hposting
    have hmem : e ∈ postedEntries L x := by
      refine mem_postedEntries.mpr ⟨hst, ?_, ?_⟩
      · rw [← hcompany, ← hposting]
        rfl
      · rw [hposting, hlive]
        exact Finset.mem_singleton_self p
    exact (List.mem_filter.mp hmem).2

theorem mem_liveRecorded {e : GlJournalEntry} (ht : Tracked H S L) (hs : S "expense".toList (str x.id)) :
    e ∈ liveLike L x.companyId "expense".toList (str x.id) "recorded".toList ↔
      StandsFor L x.companyId "expense".toList (str x.id) "recorded".toList e :=
  ht.mem_liveLike_plain (plainSource_expense x.id) hs (by decide) (by decide)

theorem liveExpenseEntry_none (ht : Tracked H S L) (hs : S "expense".toList (str x.id))
    (h : L.expenseLive x.id = ∅) : liveExpenseEntry L x = none := by
  unfold liveExpenseEntry
  rw [List.head?_eq_none_iff]
  refine List.eq_nil_iff_forall_not_mem.mpr fun e he => ?_
  have hfor := (mem_liveRecorded ht hs).mp he
  have hlive : e.posting ∈ L.expenseLive x.id := mem_expenseLive.mpr ⟨hfor.stands.mem_live, hfor.type_eq, hfor.id_eq⟩
  rw [h] at hlive
  exact absurd hlive (Finset.notMem_empty _)

theorem liveExpenseEntry_some {p : Posting} (ht : Tracked H S L) (hs : S "expense".toList (str x.id))
    (hlive : L.expenseLive x.id = {p}) (hcompany : p.companyId = x.companyId) (hevent : p.event = "recorded".toList) :
    ∃ e, liveExpenseEntry L x = some e ∧ Stands L e ∧ e.posting = p := by
  have hquery : ∃ e, liveLike L x.companyId "expense".toList (str x.id) "recorded".toList = [e] ∧ Stands L e ∧
      e.posting = p := by
    refine query_singleton ht hs hlive ?_ ?_
    · intro e he hq
      have hfor := (mem_liveRecorded ht hs).mp (List.mem_filter.mpr ⟨he, hq⟩)
      exact ⟨hfor.stands, mem_expenseLive.mpr ⟨hfor.stands.mem_live, hfor.type_eq, hfor.id_eq⟩⟩
    · intro e hst hposting
      have hmem : e.posting ∈ L.expenseLive x.id := by
        rw [hposting, hlive]
        exact Finset.mem_singleton_self p
      obtain ⟨-, htype, hid⟩ := mem_expenseLive.mp hmem
      have hfor : StandsFor L x.companyId "expense".toList (str x.id) "recorded".toList e := by
        refine ⟨hst, ?_, htype, hid, by rw [hposting, hevent]⟩
        rw [← hcompany, ← hposting]
        rfl
      exact (List.mem_filter.mp ((mem_liveRecorded ht hs).mpr hfor)).2
  obtain ⟨e, heq, hst, hposting⟩ := hquery
  refine ⟨e, ?_, hst, hposting⟩
  unfold liveExpenseEntry
  rw [heq]
  rfl

/-! ### Dropping, posting and re-dating -/

/-- A tolerant reversal takes the posting off, at whichever date it lands. -/
theorem reverseLockTolerant_ok {e : GlJournalEntry} {id : ℕ} {today : ℤ} {actor : Option Text} (ht : Tracked H S L)
    (hs : S "expense".toList (str id)) (he : Stands L e) (hmem : e.posting ∈ L.expenseLive id)
    (h : reverseLockTolerant today actor e L = .ok () L') :
    ExpenseStep H S L L' id ((L.expenseLive id).erase e.posting) := by
  unfold reverseLockTolerant at h
  cases hrev : reverseEntry e.id none actor false L with
  | ok r M =>
    rw [hrev] at h
    cases h
    exact reverse_expense ht hs he hmem hrev
  | error err M =>
    obtain rfl := reverseEntry_error ht.inv hrev
    rw [hrev] at h
    cases err with
    | periodLocked lockDate effectiveAt =>
      obtain ⟨r, N, hrev', h⟩ := bind_ok.mp h
      cases h
      exact reverse_expense ht hs he hmem hrev'
    | _ => cases h

theorem each_singleton {ε σ α : Type} (f : α → EStateM ε σ Unit) (a : α) (s : σ) : each f [a] s = f a s := by
  unfold each
  rw [bind_apply]
  cases f a s <;> rfl

/-- Taking off the one posting leaves none. -/
theorem reverseAll_singleton {e : GlJournalEntry} {id : ℕ} {p : Posting} {today : ℤ} {actor : Option Text}
    (ht : Tracked H S L) (hs : S "expense".toList (str id)) (he : Stands L e) (hposting : e.posting = p)
    (hlive : L.expenseLive id = {p}) (h : each (reverseLockTolerant today actor) [e] L = .ok () L') :
    ExpenseStep H S L L' id ∅ := by
  rw [each_singleton] at h
  have hmem : e.posting ∈ L.expenseLive id := by
    rw [hposting, hlive]
    exact Finset.mem_singleton_self p
  have hstep := reverseLockTolerant_ok ht hs he hmem h
  rwa [hlive, hposting, Finset.erase_singleton] at hstep

/-- The expense belongs on the books: posting is on, the row is live and not empty, and its date is in these books. -/
def OnBooks (R : Rows) (x : Expense) : Prop :=
  R.ledgerPostingEnabled x.companyId = true ∧ x.deleted = false ∧ x.amount ≠ 0 ∧
    beforeCutover R x.companyId x.date = false

/-- The journal holds of the expense what belongs there. -/
structure Reflects (R : Rows) (L : Ledger) (x : Expense) : Prop where
  booked : OnBooks R x → BookedAt L x x.date
  unbooked : ¬ OnBooks R x → L.expenseLive x.id = ∅

theorem buildExpenseLines_zero (h : x.amount = 0) : buildExpenseLines R L x = .ok [] := by
  unfold buildExpenseLines
  rw [if_pos h]

theorem buildExpenseLines_plain (h : x.amount ≠ 0) (hlines : x.lines = []) :
    ∃ debit credit, buildExpenseLines R L x = .ok [debit, credit] := by
  unfold buildExpenseLines
  rw [if_neg h, if_neg (by simp [hlines])]
  exact ⟨_, _, rfl⟩

/-- One posting landed on an expense that had none. -/
theorem booked_of_post {lines : List PostingLine} {e : GlJournalEntry} (hfree : H.CollisionFree) (ht : Tracked H S L)
    (hs : S "expense".toList (str x.id)) (hnone : L.expenseLive x.id = ∅)
    (h : postForEvent H (expenseEvent x lines none) false L = .ok e L') :
    ExpenseStep H S L L' x.id (L'.expenseLive x.id) ∧ BookedAt L' x x.date := by
  obtain ⟨hstep, -, hcompany, hevent, hdate, -⟩ := post_expense hfree ht hs h
  have hlive := hstep.live
  rw [hnone, insert_empty_eq] at hlive
  exact ⟨⟨hstep.tracked, rfl, hstep.others⟩, e.posting, hlive, hcompany, hevent, hdate⟩

/-- A new expense is put on the books, or left off them. -/
theorem postExpenseToLedger_ok (hfree : H.CollisionFree) (ht : Tracked H S L) (hs : S "expense".toList (str x.id))
    (hnone : L.expenseLive x.id = ∅) (hlive : x.deleted = false) (hlines : x.lines = [])
    (h : postExpenseToLedger H R x L = .ok () L') :
    ExpenseStep H S L L' x.id (L'.expenseLive x.id) ∧ Reflects R L' x := by
  have hsame : ¬ OnBooks R x → L' = L → ExpenseStep H S L L' x.id (L'.expenseLive x.id) ∧ Reflects R L' x := by
    rintro hoff rfl
    exact ⟨.refl ht x.id, fun hon => absurd hon hoff, fun _ => hnone⟩
  unfold postExpenseToLedger at h
  split at h
  · rename_i hbefore
    cases h
    exact hsame (fun hon => by rw [hon.2.2.2] at hbefore; cases hbefore) rfl
  · rename_i hafter
    unfold postExpenseRecorded at h
    split at h
    · rename_i hoff
      cases h
      exact hsame (fun hon => by rw [hon.1] at hoff; cases hoff) rfl
    · rename_i hon
      by_cases hzero : x.amount = 0
      · rw [buildExpenseLines_zero hzero] at h
        cases h
        exact hsame (fun hon => hon.2.2.1 hzero) rfl
      · obtain ⟨debit, credit, hbuild⟩ := buildExpenseLines_plain (R := R) (L := L) hzero hlines
        rw [hbuild] at h
        obtain ⟨e, N, hpost, h⟩ := bind_ok.mp h
        cases h
        obtain ⟨hstep, hbooked⟩ := booked_of_post hfree ht hs hnone hpost
        have hbooks : OnBooks R x := ⟨by simpa using hon, hlive, hzero, by simpa using hafter⟩
        exact ⟨hstep, fun _ => hbooked, fun hoff => absurd hbooks hoff⟩

/-- A deleted expense comes off the books. -/
theorem dropLive_ok {today : ℤ} {actor : Option Text} (ht : Tracked H S L) (hs : S "expense".toList (str x.id))
    (hbook : Reflects R L x)
    (h : each (reverseLockTolerant today actor) (liveExpenseEntry L x).toList L = .ok () L') :
    ExpenseStep H S L L' x.id ∅ := by
  by_cases hon : OnBooks R x
  · obtain ⟨p, hlive, hcompany, hevent, -⟩ := hbook.booked hon
    obtain ⟨e, hsome, hst, hposting⟩ := liveExpenseEntry_some ht hs hlive hcompany hevent
    rw [hsome, Option.toList_some] at h
    exact reverseAll_singleton ht hs hst hposting hlive h
  · have hnone := hbook.unbooked hon
    rw [liveExpenseEntry_none ht hs hnone] at h
    cases h
    exact hnone ▸ .refl ht x.id

section Redate
variable {p : Posting} {today : ℤ} (hfree : H.CollisionFree) (ht : Tracked H S L) (hs : S "expense".toList (str x.id))
  (hon : R.ledgerPostingEnabled x.companyId = true) (hlive : x.deleted = false) (hlines : x.lines = [])

include hon hlive in
/-- An empty expense without postings has nothing to repost. -/
theorem repostExpense_zero (hnone : liveExpenseEntry L x = none) (hzero : x.amount = 0) :
    repostExpense H R x none L = .ok () L := by
  simp only [repostExpense, hon, hlive, hnone, buildExpenseLines_zero hzero, Bool.not_true, Bool.false_eq_true, if_false]
  rfl

include hon hlive hlines in
theorem repostExpense_fresh (hnone : liveExpenseEntry L x = none) (hamount : x.amount ≠ 0) :
    ∃ lines, repostExpense H R x none L = (do let _ ← postForEvent H (expenseEvent x lines none) false) L := by
  obtain ⟨debit, credit, hbuild⟩ := buildExpenseLines_plain (R := R) (L := L) hamount hlines
  refine ⟨[debit, credit], ?_⟩
  simp only [repostExpense, hon, hlive, hnone, hbuild, Bool.not_true, Bool.false_eq_true, if_false]

include hon hlive hlines in
theorem repostExpense_again {e : GlJournalEntry} (hsome : liveExpenseEntry L x = some e) (hamount : x.amount ≠ 0) :
    ∃ lines, repostExpense H R x none L = repostOver H (expenseEvent x lines none) e none L := by
  obtain ⟨debit, credit, hbuild⟩ := buildExpenseLines_plain (R := R) (L := L) hamount hlines
  refine ⟨[debit, credit], ?_⟩
  simp only [repostExpense, hon, hlive, hsome, hbuild, Bool.not_true, Bool.false_eq_true, if_false]

/-- The expense has one posting, at another date than its own. -/
structure Stale (L : Ledger) (x : Expense) (p : Posting) (e : GlJournalEntry) : Prop where
  live : L.expenseLive x.id = {p}
  company : p.companyId = x.companyId
  date : p.effectiveAt ≠ x.date
  stands : Stands L e
  posting : e.posting = p

include hfree ht hs in
/-- The new posting of a stale expense, and what taking the old one off then leaves. -/
theorem Stale.posted {e e' : GlJournalEntry} {lines : List PostingLine} (hstale : Stale L x p e)
    (h : postForEvent H (expenseEvent x lines none) false L = .ok e' M) :
    Tracked H S M ∧ e'.id ≠ e.id ∧ Stands M e ∧ Stands M e' ∧ e'.effectiveAt = x.date ∧
      e'.companyId = x.companyId ∧ M.expenseLive x.id = {e'.posting, p} ∧
      ∀ at' r, reverseEntry e.id at' none false M = .ok r L' →
        ExpenseStep H S L L' x.id (L'.expenseLive x.id) ∧ BookedAt L' x x.date := by
  obtain ⟨hstep, hst', hcompany, hevent, hdate, htype, hid⟩ := post_expense hfree ht hs h
  have hlive' : M.expenseLive x.id = {e'.posting, p} := by
    rw [hstep.live, hstale.live]
  have hne : e'.posting ≠ p := fun heq => hstale.date (heq ▸ hdate)
  have hp : p ∈ M.expenseLive x.id := by
    rw [hlive']
    exact Finset.mem_insert_of_mem (Finset.mem_singleton_self p)
  have hstands : Stands M e := by
    have hmem : e ∈ M.entries := by
      obtain ⟨N, rs, -, hres, -, hout⟩ := postForEvent_ok ht.inv h
      have hentries := (resolveLines_ok hres).grows.entries
      cases hout with
      | replayed _ _ _ =>
        rw [hentries]
        exact hstale.stands.mem
      | inserted checked _ _ =>
        obtain ⟨-, hent, -⟩ := checkPeriodLock_ok checked
        refine List.mem_append_left _ ?_
        rw [hent, hentries]
        exact hstale.stands.mem
    exact ⟨hmem, hstale.stands.posted, hstale.stands.not_reversal⟩
  have hids : e'.id ≠ e.id := by
    intro heq
    have := hstep.tracked.inv.eq_of_id hst'.mem hstands.mem heq
    exact hne (this ▸ hstale.posting)
  refine ⟨hstep.tracked, hids, hstands, hst', hdate, hcompany, hlive', ?_⟩
  intro at' r hrev
  have hmem : e.posting ∈ M.expenseLive x.id := hstale.posting ▸ hp
  have hdrop := reverse_expense hstep.tracked hs hstands hmem hrev
  have hleft : L'.expenseLive x.id = {e'.posting} := by
    rw [hdrop.live, hlive', hstale.posting]
    ext q
    simp only [Finset.mem_erase, Finset.mem_insert, Finset.mem_singleton]
    constructor
    · rintro ⟨hq, rfl | rfl⟩
      · rfl
      · exact absurd rfl hq
    · rintro rfl
      exact ⟨hne, .inl rfl⟩
  exact ⟨⟨hdrop.tracked, rfl, (hstep.trans hdrop).others⟩, e'.posting, hleft, hcompany, hevent, hdate⟩

/-- Nothing fresh is found when no entry was written. -/
theorem no_fresh (hentries : M.entries = L.entries) :
    ((postedEntries M x).filter fun e => decide (e.effectiveAt = x.date) && (postedEntries L x).all fun p => e.id != p.id) =
      [] := by
  have hsame : postedEntries M x = postedEntries L x := by
    unfold postedEntries
    rw [hentries]
  rw [hsame]
  refine List.filter_eq_nil_iff.mpr fun e he hq => ?_
  have hall := (Bool.and_eq_true_iff.mp hq).2
  have := List.all_eq_true.mp hall e he
  simp at this

include hfree ht hs hon hlive hlines in
/-- Re-dating a stale expense that stays on the books: one posting at the new date, whichever half a lock refused. -/
theorem Stale.redated {e : GlJournalEntry} (hstale : Stale L x p e) (hevent : p.event = "recorded".toList)
    (hamount : x.amount ≠ 0) (hafter : beforeCutover R x.companyId x.date = false)
    (h : repostRedated H R today [e] x L = .ok () L') :
    ExpenseStep H S L L' x.id (L'.expenseLive x.id) ∧ BookedAt L' x x.date := by
  obtain ⟨e₀, hsome, hst₀, hposting₀⟩ := liveExpenseEntry_some ht hs hstale.live hstale.company hevent
  have hsource := (mem_expenseLive.mp (hstale.live ▸ Finset.mem_singleton_self p : p ∈ L.expenseLive x.id)).2
  obtain rfl : e₀ = e := by
    refine ht.eq_of_posting hst₀.mem hstale.stands.mem ?_ hst₀.posted hstale.stands.posted hst₀.not_reversal
      hstale.stands.not_reversal (hposting₀.trans hstale.posting.symm)
    rw [show e₀.sourceType = _ from (congrArg Posting.sourceType hposting₀).trans hsource.1,
      show e₀.sourceId = _ from (congrArg Posting.sourceId hposting₀).trans hsource.2]
    exact hs
  obtain ⟨lines, hrepost⟩ := repostExpense_again hon hlive hlines hsome hamount
  have hprior : postedEntries L x = [e₀] := by
    obtain ⟨e₁, heq, hst₁, hposting₁⟩ := postedEntries_singleton ht hs hstale.live hstale.company
    have hmem : e₀ ∈ postedEntries L x := by
      refine mem_postedEntries.mpr ⟨hst₀, ?_, ?_⟩
      · rw [← hstale.company, ← hposting₀]
        rfl
      · rw [hposting₀, hstale.live]
        exact Finset.mem_singleton_self p
    rw [heq, List.mem_singleton] at hmem
    rw [heq, hmem]
  unfold repostRedated at h
  rw [hafter, hrepost] at h
  simp only [Bool.false_eq_true, if_false] at h
  cases hover : repostOver H (expenseEvent x lines none) e₀ none L with
  | ok u M =>
    rw [hover] at h
    cases h
    obtain ⟨e', M', hpost, hrest⟩ := bind_ok.mp hover
    obtain ⟨-, hids, -, -, -, -, -, hdrop⟩ := hstale.posted hfree ht hs hpost
    rw [if_pos hids] at hrest
    obtain ⟨r, N, hrev, hrest⟩ := bind_ok.mp hrest
    cases hrest
    exact hdrop none r hrev
  | error err M =>
    rw [hover] at h
    cases err with
    | periodLocked lockDate effectiveAt =>
      dsimp only at h
      split at h
      · cases h
      · rename_i hfresh
        rcases bind_error.mp hover with hpost | ⟨e', M', hpost, hrest⟩
        · -- The posting itself was refused, so nothing fresh can have been found.
          have hnone := no_fresh (x := x) (post_expense_error ht hpost).2
          rw [hprior] at hnone
          rw [hnone] at hfresh
          exact absurd rfl hfresh
        · obtain ⟨htM, hids, hstands, -, -, -, -, hdrop⟩ := hstale.posted hfree ht hs hpost
          rw [if_pos hids] at hrest
          have hM : M = M' := by
            rcases bind_error.mp hrest with hrev | ⟨r, N, -, hpure⟩
            · exact reverseEntry_error htM.inv hrev
            · cases hpure
          subst hM
          rw [each_singleton, bind_of_ok (get_apply M), htM.inv.entryById hstands.mem] at h
          have hposted : e₀.isPosted = true := isPosted_iff.mpr hstands.posted
          rw [Option.any_some, if_pos hposted] at h
          obtain ⟨r, N, hrev, hrest⟩ := bind_ok.mp h
          cases hrest
          exact hdrop (some x.date) r hrev
    | _ => cases h

end Redate

/-- Re-dating an expense that was off the books. -/
theorem repostRedated_unbooked {today : ℤ} (hfree : H.CollisionFree) (ht : Tracked H S L)
    (hs : S "expense".toList (str x.id)) (hlive : x.deleted = false) (hlines : x.lines = [])
    (hnone : L.expenseLive x.id = ∅) (h : repostRedated H R today [] x L = .ok () L') :
    ExpenseStep H S L L' x.id (L'.expenseLive x.id) ∧ Reflects R L' x := by
  have hsame : ¬ OnBooks R x → L' = L → ExpenseStep H S L L' x.id (L'.expenseLive x.id) ∧ Reflects R L' x := by
    rintro hoff rfl
    exact ⟨.refl ht x.id, fun hon => absurd hon hoff, fun _ => hnone⟩
  unfold repostRedated at h
  split at h
  · rename_i hbefore
    cases h
    exact hsame (fun hon => by rw [hon.2.2.2] at hbefore; cases hbefore) rfl
  · rename_i hafter
    have hentry := liveExpenseEntry_none ht hs hnone
    cases hflag : R.ledgerPostingEnabled x.companyId with
    | false =>
      have hrepost : repostExpense H R x none L = .ok () L := by simp [repostExpense, hflag]
      rw [hrepost] at h
      cases h
      exact hsame (fun hon => by rw [hon.1] at hflag; cases hflag) rfl
    | true =>
      by_cases hzero : x.amount = 0
      · rw [repostExpense_zero hflag hlive hentry hzero] at h
        cases h
        exact hsame (fun hon => hon.2.2.1 hzero) rfl
      · obtain ⟨lines, hrepost⟩ := repostExpense_fresh (H := H) hflag hlive hlines hentry hzero
        rw [hrepost] at h
        cases hpost : postForEvent H (expenseEvent x lines none) false L with
        | ok e M =>
          rw [bind_of_ok hpost] at h
          cases h
          obtain ⟨hstep, hbooked⟩ := booked_of_post hfree ht hs hnone hpost
          have hbooks : OnBooks R x := ⟨hflag, hlive, hzero, by simpa using hafter⟩
          exact ⟨hstep, fun _ => hbooked, fun hoff => absurd hbooks hoff⟩
        | error err M =>
          rw [bind_apply, hpost] at h
          cases err with
          | periodLocked lockDate effectiveAt =>
            have hfresh := no_fresh (x := x) (post_expense_error ht hpost).2
            rw [postedEntries_nil hnone] at hfresh
            dsimp only at h
            rw [hfresh] at h
            cases h
          | _ => cases h

/-- Re-dating an expense: the journal holds of it, at the new date, what belongs there. -/
theorem repostRedated_ok {target today : ℤ} (hfree : H.CollisionFree) (ht : Tracked H S L)
    (hs : S "expense".toList (str x.id)) (hlive : x.deleted = false) (hlines : x.lines = []) (hdate : x.date ≠ target)
    (hbook : Reflects R L x)
    (h : repostRedated H R today (postedEntries L x) { x with date := target } L = .ok () L') :
    ExpenseStep H S L L' x.id (L'.expenseLive x.id) ∧ Reflects R L' { x with date := target } := by
  by_cases hon : OnBooks R x
  · obtain ⟨p, hp, hcompany, hevent, hold⟩ := hbook.booked hon
    obtain ⟨e, hprior, hst, hposting⟩ := postedEntries_singleton ht hs hp hcompany
    rw [hprior] at h
    cases hbefore : beforeCutover R x.companyId target with
    | true =>
      have hdrop : each (reverseLockTolerant today none) [e] L = .ok () L' := by
        unfold repostRedated at h
        rwa [if_pos hbefore] at h
      have hstep := reverseAll_singleton ht hs hst hposting hp hdrop
      refine ⟨⟨hstep.tracked, rfl, hstep.others⟩, ?_, fun _ => hstep.live⟩
      intro hon'
      have := hon'.2.2.2
      rw [hbefore] at this
      cases this
    | false =>
      have hstale : Stale L { x with date := target } p e := ⟨hp, hcompany, hold ▸ hdate, hst, hposting⟩
      obtain ⟨hstep, hbooked⟩ := Stale.redated (x := { x with date := target }) hfree ht hs hon.1 hlive hlines
        hstale hevent hon.2.2.1 hbefore h
      exact ⟨hstep, fun _ => hbooked, fun hoff => absurd ⟨hon.1, hlive, hon.2.2.1, hbefore⟩ hoff⟩
  · have hnone := hbook.unbooked hon
    rw [postedEntries_nil hnone] at h
    exact repostRedated_unbooked (x := { x with date := target }) hfree ht hs hlive hlines hnone h

end Gdx
