import GdxDispatch.Billing.TotalsGuard

/-! Committed totals hold, as long as a transaction commits with no savepoint open inside it, and in whole cents.

    The record of each level names every invoice that differs from the level below, so the record at the outermost
    commit names all that differ from what is durable, and those are checked. A commit with a savepoint still open
    inside breaks this: the hook checks for the inner savepoint, and the record of the one that commits is taken for
    that of a savepoint that was rolled back. So do amounts that their columns round, as the check reads them before. -/

namespace Gdx
open Lib

variable {s s' : GuardSession} {db db' : TotalsDb} {id k n : ℕ} {ev : GuardEvent} {w : RowWrite} {ids : List ℕ}

/-! ### What a flush changes -/

namespace TotalsDb

/-- The two databases have the same invoice under this id, with the same live lines. -/
def Same (k : ℕ) (db db' : TotalsDb) : Prop := db.invoices k = db'.invoices k ∧ db.liveLines k = db'.liveLines k

theorem Same.refl (k : ℕ) (db : TotalsDb) : Same k db db := ⟨rfl, rfl⟩

theorem Same.trans (k : ℕ) (a b c : TotalsDb) (h : Same k a b) (h' : Same k b c) : Same k a c :=
  ⟨h.1.trans h'.1, h.2.trans h'.2⟩

theorem Same.holds (h : Same k db db') : db.holds k = db'.holds k := by
  unfold TotalsDb.holds
  rw [h.1, h.2]

/-- A line that a write removes or replaces belongs to an invoice that the write names. -/
theorem mem_touched_of_line {line : TotalsLine} {invoiceId : ℕ} (hmem : line ∈ db.lines) (hid : line.id = n) :
    line.invoiceId ∈ invoiceId :: db.leftBehind n invoiceId := by
  by_cases heq : line.invoiceId = invoiceId
  · rw [heq]
    exact List.mem_cons_self
  · refine List.mem_cons_of_mem _ (List.mem_filter.mpr ⟨List.mem_map_of_mem (List.mem_filter.mpr ⟨hmem, ?_⟩), ?_⟩)
    · simpa using hid
    · simpa using heq

/-- A line replaced by another one, when neither is of this invoice. -/
theorem filter_replace {lines : List TotalsLine} {line : TotalsLine} (hnew : line.invoiceId ≠ k)
    (hold : ∀ old ∈ lines, old.id = line.id → old.invoiceId ≠ k) :
    lines.filter (fun l => l.invoiceId == k && !l.deleted) =
      (lines.map fun old => if old.id == line.id then line else old).filter
        fun l => l.invoiceId == k && !l.deleted := by
  induction lines with
  | nil => rfl
  | cons first lines ih =>
    have hrest := ih fun old hmem => hold old (List.mem_cons_of_mem _ hmem)
    rw [List.map_cons]
    by_cases hid : first.id = line.id
    · have hfirst := hold first List.mem_cons_self hid
      rw [if_pos (by simpa using hid), List.filter_cons_of_neg (by simp [hfirst]),
        List.filter_cons_of_neg (by simp [hnew])]
      exact hrest
    · rw [if_neg (by simpa using hid), List.filter_cons, List.filter_cons, hrest]

theorem same_write (hk : k ∉ db.touched w) : Same k db (db.write w) := by
  cases w with
  | saveInvoice id invoice =>
    refine ⟨?_, rfl⟩
    show _ = Function.update db.invoices id _ k
    rw [Function.update_of_ne (by rintro rfl; exact hk List.mem_cons_self)]
  | deleteInvoice id =>
    refine ⟨?_, rfl⟩
    show _ = Function.update db.invoices id _ k
    rw [Function.update_of_ne (by rintro rfl; exact hk List.mem_cons_self)]
  | insertLine line =>
    refine ⟨rfl, ?_⟩
    have hne : (line.invoiceId == k && !line.deleted) = false := by
      have : line.invoiceId ≠ k := by
        rintro rfl
        exact hk List.mem_cons_self
      simp [this]
    show db.lines.filter _ = (db.lines ++ [line]).filter _
    rw [List.filter_append, List.filter_cons_of_neg (by simpa using hne), List.filter_nil, List.append_nil]
  | updateLine line =>
    refine ⟨rfl, ?_⟩
    exact filter_replace (fun h => hk (h ▸ List.mem_cons_self)) fun old hold hid h =>
      hk (h ▸ mem_touched_of_line hold hid)
  | deleteLine id invoiceId =>
    refine ⟨rfl, ?_⟩
    show db.lines.filter _ = (db.lines.filter _).filter _
    rw [List.filter_filter]
    refine List.filter_congr fun line hline => ?_
    by_cases hid : line.id = id
    · have hne : line.invoiceId ≠ k := by
        rintro rfl
        exact hk (mem_touched_of_line hline hid)
      simp [hne]
    · simp [hid]

theorem same_flush (ws : List RowWrite) (hk : k ∉ (db.flush ws).2) : Same k db (db.flush ws).1 := by
  induction ws generalizing db with
  | nil => exact Same.refl k db
  | cons w ws ih =>
    change k ∉ ((db.write w).flush ws).2 ++ db.touched w at hk
    rw [List.mem_append, not_or] at hk
    exact Same.trans k _ _ _ (same_write hk.2) (ih hk.1)

theorem log_flush (db : TotalsDb) (ws : List RowWrite) : (db.flush ws).1.log = (db.flush ws).2 ++ db.log := by
  induction ws generalizing db with
  | nil => rfl
  | cons w ws ih =>
    show ((db.write w).flush ws).1.log = (((db.write w).flush ws).2 ++ db.touched w) ++ db.log
    rw [ih, List.append_assoc]
    cases w <;> rfl

/-- The amounts are whole cents, which the columns keep. -/
structure Whole (db : TotalsDb) : Prop where
  invoices : ∀ id, (db.invoices id).map InvoiceTotals.stored = db.invoices id
  lines : ∀ line ∈ db.lines, line.stored = line

theorem Whole.refresh (h : db.Whole) (invoices lines : ℕ → Bool) : db.refresh invoices lines = db := by
  have hinvoices : (db.refresh invoices lines).invoices = db.invoices := by
    funext id
    show (if invoices id then (db.invoices id).map InvoiceTotals.stored else db.invoices id) = _
    rw [h.invoices id, ite_self]
  have hlines : (db.refresh invoices lines).lines = db.lines := by
    refine (List.map_congr_left fun line hline => ?_).trans (List.map_id' db.lines)
    rw [h.lines line hline, ite_self]
  show TotalsDb.mk (db.refresh invoices lines).invoices (db.refresh invoices lines).lines db.log = db
  rw [hinvoices, hlines]

end TotalsDb

/-! ### The records, level by level -/

/-- The record of the innermost level: of the innermost savepoint, or of the outermost transaction. -/
def innerRecord (root : List ℕ) : List (Savepoint TotalsDb TouchedFrame) → List ℕ
  | [] => root
  | f :: _ => f.note.record

/-- The savepoints, each with the record of the level below it. -/
def levels (root : List ℕ) : List (Savepoint TotalsDb TouchedFrame) → List (TotalsDb × List ℕ)
  | [] => []
  | f :: rest => (f.saved, innerRecord root rest) :: levels root rest

/-- The invoices of each level's record were written on the way from the level below. -/
def Logged (durable : TotalsDb) : TotalsDb → List ℕ → List (TotalsDb × List ℕ) → Prop
  | now, note, [] => ∃ new, now.log = new ++ durable.log ∧ note ⊆ new
  | now, note, (saved, below) :: rest =>
    (∃ new, now.log = new ++ saved.log ∧ note ⊆ new) ∧ Logged durable saved below rest

section Logged
variable {durable now now' saved : TotalsDb} {note below keys : List ℕ} {rest : List (TotalsDb × List ℕ)}

theorem Logged.write (h : Logged durable now note rest) (hw : now'.log = keys ++ now.log) :
    Logged durable now' (keys ++ note) rest := by
  have hnote : ∀ d : TotalsDb, (∃ new, now.log = new ++ d.log ∧ note ⊆ new) →
      ∃ new, now'.log = new ++ d.log ∧ keys ++ note ⊆ new := by
    rintro d ⟨new, hlog, hsub⟩
    refine ⟨keys ++ new, by rw [hw, hlog, List.append_assoc], ?_⟩
    exact List.append_subset.mpr ⟨List.subset_append_left _ _, fun x hx => List.mem_append_right _ (hsub hx)⟩
  cases rest with
  | nil => exact hnote durable h
  | cons frame rest => exact ⟨hnote frame.1 h.1, h.2⟩

theorem Logged.savepoint (h : Logged durable now note rest) : Logged durable now [] ((now, note) :: rest) :=
  ⟨⟨[], rfl, List.nil_subset _⟩, h⟩

/-- A smaller record is still logged. -/
theorem Logged.mono (h : Logged durable now note rest) (hsub : keys ⊆ note) : Logged durable now keys rest := by
  cases rest with
  | nil =>
    obtain ⟨new, hlog, hnote⟩ := h
    exact ⟨new, hlog, fun x hx => hnote (hsub hx)⟩
  | cons frame rest =>
    obtain ⟨⟨new, hlog, hnote⟩, hrest⟩ := h
    exact ⟨⟨new, hlog, fun x hx => hnote (hsub hx)⟩, hrest⟩

theorem Logged.release (h : Logged durable now note ((saved, below) :: rest)) :
    Logged durable now (note ++ below) rest := by
  obtain ⟨⟨new, hlog, hnote⟩, hrest⟩ := h
  exact (hrest.write hlog).mono (List.append_subset.mpr
    ⟨fun x hx => List.mem_append_left _ (hnote hx), List.subset_append_right _ _⟩)

/-- All that the innermost record names was written since the last commit. -/
theorem Logged.total (h : Logged durable now note rest) : ∃ new, now.log = new ++ durable.log ∧ note ⊆ new := by
  induction rest generalizing now note with
  | nil => exact h
  | cons frame rest ih =>
    obtain ⟨⟨new, hlog, hnote⟩, hrest⟩ := h
    obtain ⟨more, hmore, -⟩ := ih hrest
    exact ⟨new ++ more, by rw [hlog, hmore, List.append_assoc], fun x hx => List.mem_append_left _ (hnote hx)⟩

end Logged

namespace GuardSession

/-- What is durable holds, and each level's record names all that differs from the level below, and only what was
    written on the way. The record of a dead transaction goes with it. -/
structure Guarded (s : GuardSession) : Prop where
  good : ∀ id, s.txn.durable.holds id = true
  tracked : Lib.Tracked TotalsDb.Same s.txn.durable s.txn.now (innerRecord s.root s.txn.frames)
    (levels s.root s.txn.frames)
  logged : Logged s.txn.durable s.txn.now (if s.txn.dead then [] else innerRecord s.root s.txn.frames)
    (levels s.root s.txn.frames)
  plain : ∀ f ∈ s.txn.frames, f.note.released = false

theorem Guarded.live (hg : s.Guarded) (halive : s.txn.dead = false) :
    Logged s.txn.durable s.txn.now (innerRecord s.root s.txn.frames) (levels s.root s.txn.frames) := by
  have h := hg.logged
  rwa [if_neg (by rw [halive]; exact Bool.false_ne_true)] at h

theorem guarded_start (hdb : ∀ id, db.holds id = true) : (start db).Guarded :=
  ⟨hdb, fun k _ => TotalsDb.Same.refl k db, ⟨[], rfl, List.nil_subset _⟩, fun _ h => (nomatch h)⟩

/-- Recording, with the write that it is for. -/
theorem Guarded.record (hgood : ∀ id, s.txn.durable.holds id = true) (hplain : ∀ f ∈ s.txn.frames, f.note.released = false)
    (htracked : Lib.Tracked TotalsDb.Same s.txn.durable s.txn.now (ids ++ innerRecord s.root s.txn.frames)
      (levels s.root s.txn.frames))
    (hlogged : Logged s.txn.durable s.txn.now (ids ++ innerRecord s.root s.txn.frames) (levels s.root s.txn.frames))
    (halive : s.txn.dead = false) : (s.record ids).Guarded := by
  have hdead : ¬ s.txn.dead = true := by rw [halive]; exact Bool.false_ne_true
  unfold GuardSession.record
  cases hf : s.txn.frames with
  | nil =>
    rw [hf] at htracked hlogged
    refine ⟨hgood, ?_, ?_, hplain⟩
    · show Lib.Tracked _ _ _ (innerRecord (ids ++ s.root) s.txn.frames) (levels (ids ++ s.root) s.txn.frames)
      rw [hf]
      exact htracked
    · show Logged _ _ (if s.txn.dead then [] else innerRecord (ids ++ s.root) s.txn.frames)
        (levels (ids ++ s.root) s.txn.frames)
      rw [hf, if_neg hdead]
      exact hlogged
  | cons f rest =>
    rw [hf] at htracked hlogged hplain
    refine ⟨hgood, htracked, ?_, fun g hmem => ?_⟩
    · show Logged _ _ (if s.txn.dead then [] else _) _
      rw [if_neg hdead]
      exact hlogged
    · obtain rfl | hrest := List.mem_cons.mp hmem
      · exact hplain f List.mem_cons_self
      · exact hplain g (List.mem_cons_of_mem _ hrest)

/-! ### Releases -/

/-- A refusal names an invoice that does not hold, of the record that was checked. -/
theorem refused_spec (h : s.refused ids = some id) : id ∈ ids ∧ s.txn.now.holds id = false := by
  refine ⟨List.mem_of_find?_eq_some h, ?_⟩
  simpa using List.find?_some h

theorem holds_of_refused_none (h : s.refused ids = none) (hid : id ∈ ids) : s.txn.now.holds id = true := by
  simpa using List.find?_eq_none.mp h id hid

/-- The invoice was written since the last commit, in what the session still sees, and does not hold. -/
def Written (s : GuardSession) (id : ℕ) : Prop :=
  ∃ new, s.txn.now.log = new ++ s.txn.durable.log ∧ id ∈ new ∧ s.txn.now.holds id = false

theorem Guarded.written (hg : s.Guarded) (halive : s.txn.dead = false)
    (h : s.refused (innerRecord s.root s.txn.frames) = some id) : s.Written id := by
  obtain ⟨hmem, hnot⟩ := refused_spec h
  obtain ⟨new, hlog, hsub⟩ := (hg.live halive).total
  exact ⟨new, hlog, hsub hmem, hnot⟩

/-- What a release leaves: nothing was refused, or the invoice that was is one that was written. -/
structure Released (s : GuardSession) (r : GuardSession × Option ℕ) (left : ℕ) : Prop where
  guarded : r.1.Guarded
  now : r.1.txn.now = s.txn.now
  durable : r.1.txn.durable = s.txn.durable
  alive : r.1.txn.dead = false
  frames : r.2 = none → r.1.txn.frames.length = left
  written : ∀ id, r.2 = some id → s.Written id

theorem length_record (s : GuardSession) (ids : List ℕ) :
    (s.record ids).txn.frames.length = s.txn.frames.length := by
  unfold GuardSession.record
  split
  · rfl
  · rename_i f rest hf
    rw [hf]
    rfl

theorem txn_record (s : GuardSession) (ids : List ℕ) : (s.record ids).txn.now = s.txn.now ∧
    (s.record ids).txn.durable = s.txn.durable ∧ (s.record ids).txn.dead = s.txn.dead := by
  unfold GuardSession.record
  split <;> exact ⟨rfl, rfl, rfl⟩

theorem releaseTop_eq {f : Savepoint TotalsDb TouchedFrame} {rest : List (Savepoint TotalsDb TouchedFrame)}
    (hf : s.txn.frames = f :: rest) :
    s.releaseTop = match s.refused f.note.record with
      | some id => (s, some id)
      | none => ({ s with txn := { s.txn with frames := rest } }.record f.note.record, none) := by
  unfold releaseTop beforeCommit
  rw [hf]
  dsimp only
  cases s.refused f.note.record with
  | some id => rfl
  | none => rfl

theorem Guarded.releaseTop (hg : s.Guarded) (halive : s.txn.dead = false) (hn : s.txn.frames.length = n + 1) :
    s.Released s.releaseTop n := by
  cases hf : s.txn.frames with
  | nil =>
    rw [hf] at hn
    cases hn
  | cons f rest =>
    rw [releaseTop_eq hf]
    have hinner : innerRecord s.root s.txn.frames = f.note.record := by rw [hf]; rfl
    cases hr : s.refused f.note.record with
    | some id =>
      refine ⟨hg, rfl, rfl, halive, nofun, ?_⟩
      rintro id' heq
      cases heq
      exact hg.written halive (hinner ▸ hr)
    | none =>
      have htracked := hg.tracked
      have hlogged := hg.live halive
      have hplain := hg.plain
      rw [hf] at htracked hlogged hplain hn
      obtain ⟨hnow, hdurable, hdead⟩ :=
        txn_record { s with txn := { s.txn with frames := rest } } f.note.record
      refine ⟨?_, hnow, hdurable, hdead.trans halive, fun _ => ?_, nofun⟩
      · exact Guarded.record hg.good (fun g hg => hplain g (List.mem_cons_of_mem _ hg))
          (htracked.release TotalsDb.Same.trans) hlogged.release halive
      · rw [length_record]
        exact Nat.succ.inj hn

theorem Guarded.releaseMany (hg : s.Guarded) (halive : s.txn.dead = false) {m : ℕ}
    (hn : s.txn.frames.length = m + n) : s.Released (releaseMany n s) m := by
  induction n generalizing s with
  | zero => exact ⟨hg, rfl, rfl, halive, fun _ => hn, nofun⟩
  | succ n ih =>
    have htop := hg.releaseTop halive (n := m + n) hn
    unfold GuardSession.releaseMany
    split
    · rename_i s₁ id heq
      rw [heq] at htop
      exact ⟨htop.guarded, htop.now, htop.durable, htop.alive, nofun, htop.written⟩
    · rename_i s₁ heq
      rw [heq] at htop
      have hrest := ih htop.guarded htop.alive (htop.frames rfl)
      refine ⟨hrest.guarded, hrest.now.trans htop.now, hrest.durable.trans htop.durable, hrest.alive, hrest.frames, ?_⟩
      intro id hid
      have hwritten := hrest.written id hid
      unfold Written at hwritten ⊢
      rwa [show s₁.txn.now = s.txn.now from htop.now, show s₁.txn.durable = s.txn.durable from htop.durable] at hwritten

/-! ### The other steps -/

/-- The outermost commit, with no savepoint open: it checks all that differs from what is durable. -/
theorem Guarded.commitRoot (hg : s.Guarded) (halive : s.txn.dead = false) (hf : s.txn.frames = [])
    (hwhole : s.txn.now.Whole) :
    s.commitRoot.1.Guarded ∧ ∀ id, s.commitRoot.2 = some id → s.Written id := by
  have hbefore : s.beforeCommit = (s, s.refused s.root) := by
    unfold beforeCommit
    rw [hf]
  unfold GuardSession.commitRoot
  rw [hbefore]
  cases hr : s.refused s.root with
  | some id =>
    refine ⟨hg, ?_⟩
    rintro id' heq
    cases heq
    exact hg.written halive (by rw [hf]; exact hr)
  | none =>
    have htracked := hg.tracked
    rw [hf] at htracked
    have hgood : ∀ id, s.txn.now.holds id = true := by
      intro id
      by_cases hid : id ∈ s.root
      · exact holds_of_refused_none hr hid
      · rw [← (htracked id hid).holds]
        exact hg.good id
    have hdone : s.finish.Guarded := by
      have hstored : s.txn.now.stored = s.txn.now := hwhole.refresh _ _
      rw [finish, hstored]
      refine ⟨hgood, fun k _ => TotalsDb.Same.refl k _, ?_, fun _ h => (nomatch h)⟩
      show ∃ new, s.txn.now.log = new ++ s.txn.now.log ∧ (if s.txn.dead then [] else []) ⊆ new
      exact ⟨[], rfl, by rw [halive]; exact List.nil_subset _⟩
    dsimp only
    rw [hf]
    exact ⟨hdone, nofun⟩

theorem Guarded.commit (hg : s.Guarded) (halive : s.txn.dead = false) (hwhole : s.txn.now.Whole) :
    s.commit.1.Guarded ∧ ∀ id, s.commit.2 = some id → s.Written id := by
  have hmany := hg.releaseMany halive (m := 0) (n := s.txn.frames.length) (Nat.zero_add _).symm
  unfold GuardSession.commit
  split
  · rename_i s₁ id heq
    rw [heq] at hmany
    exact ⟨hmany.guarded, hmany.written⟩
  · rename_i s₁ heq
    rw [heq] at hmany
    have hroot := hmany.guarded.commitRoot hmany.alive (List.length_eq_zero_iff.mp (hmany.frames rfl))
      (hmany.now ▸ hwhole)
    refine ⟨hroot.1, fun id hid => ?_⟩
    have hwritten := hroot.2 id hid
    unfold Written at hwritten ⊢
    rwa [show s₁.txn.now = s.txn.now from hmany.now, show s₁.txn.durable = s.txn.durable from hmany.durable]
      at hwritten

theorem Guarded.rollbackTop (hg : s.Guarded) (hn : s.txn.frames.length = n + 1) :
    s.rollbackTop.Guarded ∧ s.rollbackTop.txn.frames.length = n := by
  cases hf : s.txn.frames with
  | nil =>
    rw [hf] at hn
    cases hn
  | cons f rest =>
    have htracked := hg.tracked
    have hlogged := hg.logged
    have hplain := hg.plain
    rw [hf] at htracked hlogged hplain hn
    have hend : s.rollbackTop = ⟨⟨s.txn.durable, f.saved, rest, false⟩, s.root⟩ := by
      unfold GuardSession.rollbackTop endFrame Txn.base
      rw [hf]
      dsimp only
      rw [if_neg (by rw [hplain f List.mem_cons_self]; exact Bool.false_ne_true)]
      rfl
    rw [hend]
    exact ⟨⟨hg.good, htracked.rollbackTo, hlogged.2, fun g hmem => hplain g (List.mem_cons_of_mem _ hmem)⟩,
      Nat.succ.inj hn⟩

theorem Guarded.rollbackMany (hg : s.Guarded) {m : ℕ} (hn : s.txn.frames.length = m + n) :
    (GuardSession.rollbackTop^[n] s).Guarded := by
  induction n generalizing s with
  | zero => exact hg
  | succ n ih =>
    obtain ⟨htop, hlength⟩ := hg.rollbackTop (n := m + n) hn
    exact ih htop hlength

theorem Guarded.fail (hg : s.Guarded) : (GuardSession.mk s.txn.fail s.root).Guarded := by
  have htracked := hg.tracked
  have hlogged := hg.logged
  refine ⟨hg.good, ?_, ?_, hg.plain⟩
  · show Lib.Tracked _ s.txn.durable s.txn.base (innerRecord s.root s.txn.frames) (levels s.root s.txn.frames)
    unfold Txn.base
    cases hf : s.txn.frames with
    | nil => exact fun k _ => TotalsDb.Same.refl k _
    | cons f rest =>
      rw [hf] at htracked
      exact ⟨fun k _ => TotalsDb.Same.refl k _, htracked.2⟩
  · show Logged s.txn.durable s.txn.base [] (levels s.root s.txn.frames)
    unfold Txn.base
    cases hf : s.txn.frames with
    | nil => exact ⟨[], rfl, List.nil_subset _⟩
    | cons f rest =>
      rw [hf] at hlogged
      exact ⟨⟨[], rfl, List.nil_subset _⟩, hlogged.2⟩

theorem Guarded.flush (hg : s.Guarded) (halive : s.txn.dead = false) (ws : List RowWrite) :
    ({ s with txn := s.txn.write (s.txn.now.flush ws).1 }.record (s.txn.now.flush ws).2).Guarded :=
  Guarded.record hg.good hg.plain
    (hg.tracked.write TotalsDb.Same.trans fun _ hk => TotalsDb.same_flush ws hk)
    ((hg.live halive).write (TotalsDb.log_flush _ ws)) halive

/-! ### Runs -/

/-- A transaction commits with no savepoint open inside it; the outermost one commits, and rows are read again, with
    whole cents in the session. -/
def Innermost (s : GuardSession) : GuardEvent → Prop
  | .release depth => depth = 0
  | .commitRoot => s.txn.frames = [] ∧ s.txn.now.Whole
  | .commit | .refresh _ _ => s.txn.now.Whole
  | _ => True

def InnermostRun : GuardSession → List GuardEvent → Prop
  | _, [] => True
  | s, ev :: events => s.Innermost ev ∧ InnermostRun (s.step ev).1 events

theorem release_zero (s : GuardSession) : s.release 0 = s.releaseTop := by
  unfold release GuardSession.releaseTop
  rcases s.beforeCommit with ⟨s₁, id | -⟩ <;> rfl

theorem Guarded.step (hg : s.Guarded) (hin : s.Innermost ev) :
    (s.step ev).1.Guarded ∧ ∀ id, (s.step ev).2 = some id → s.Written id := by
  have hstay : s.Guarded ∧ ∀ id, (none : Option ℕ) = some id → s.Written id := ⟨hg, nofun⟩
  cases ev with
  | flush writes =>
    simp only [GuardSession.step]
    split
    · exact hstay
    · exact ⟨hg.flush (Bool.eq_false_iff.mpr ‹_›) writes, nofun⟩
  | flushFails => exact ⟨hg.fail, nofun⟩
  | savepoint =>
    simp only [GuardSession.step]
    split
    · exact hstay
    · have hlive := hg.live (Bool.eq_false_iff.mpr ‹_›)
      refine ⟨⟨hg.good, hg.tracked.savepoint TotalsDb.Same.refl, ?_, fun f hf => ?_⟩, nofun⟩
      · exact hlive.savepoint.mono (by split <;> exact List.nil_subset _)
      · obtain rfl | hold := List.mem_cons.mp hf
        · rfl
        · exact hg.plain f hold
  | release depth =>
    obtain rfl : depth = 0 := hin
    simp only [GuardSession.step]
    split
    · exact hstay
    · rename_i h
      rw [not_or, not_le] at h
      obtain ⟨n, hn⟩ := Nat.exists_eq_succ_of_ne_zero (Nat.pos_iff_ne_zero.mp h.2)
      have htop := hg.releaseTop (Bool.eq_false_iff.mpr h.1) (n := n) hn
      rw [release_zero]
      exact ⟨htop.guarded, htop.written⟩
  | rollbackTo depth =>
    simp only [GuardSession.step]
    split
    · exact hstay
    · rename_i h
      obtain ⟨m, hm⟩ := Nat.exists_eq_add_of_lt (not_le.mp h)
      exact ⟨hg.rollbackMany (m := m) (by omega), nofun⟩
  | commit =>
    simp only [GuardSession.step]
    split
    · exact hstay
    · exact hg.commit (Bool.eq_false_iff.mpr ‹_›) hin
  | commitRoot =>
    simp only [GuardSession.step]
    split
    · exact hstay
    · exact hg.commitRoot (Bool.eq_false_iff.mpr ‹_›) hin.1 hin.2
  | rollback =>
    exact ⟨⟨hg.good, fun k _ => TotalsDb.Same.refl k _, ⟨[], rfl, List.nil_subset _⟩, fun _ h => (nomatch h)⟩, nofun⟩
  | refresh invoices lines =>
    simp only [GuardSession.step, hin.refresh]
    exact hstay

theorem InnermostRun.guarded {events : List GuardEvent} (hg : s.Guarded) (hin : InnermostRun s events) :
    (s.run events).Guarded := by
  induction events generalizing s with
  | nil => exact hg
  | cons ev events ih => exact ih (hg.step hin.1).1 hin.2

end GuardSession

/-- From a database whose totals hold, along every run in which a transaction commits only with no savepoint open inside
    it, and the outermost one with whole cents, what is durable holds after each event; and a commit or release is refused
    only for an invoice that does not hold and was written since the last commit, by a flush whose writes the session
    still sees. -/
theorem committed_totals_hold (db : TotalsDb) (hdb : ∀ id, db.holds id = true) (events : List GuardEvent)
    (hin : GuardSession.InnermostRun (.start db) events) :
    (∀ id, ((GuardSession.start db).run events).txn.durable.holds id = true) ∧
    ∀ ev id, ((GuardSession.start db).run events).Innermost ev →
      (((GuardSession.start db).run events).step ev).2 = some id →
      ((GuardSession.start db).run events).Written id := by
  have hg := hin.guarded (GuardSession.guarded_start hdb)
  exact ⟨hg.good, fun ev id hev => (hg.step hev).2 id⟩

def emptyTotals : TotalsDb := ⟨fun _ => none, [], []⟩

/-- What the events commit to an empty database. -/
def filled (events : List GuardEvent) : TotalsDb := ((GuardSession.start emptyTotals).run events).txn.durable

/-- A total of 9.99 over one line of 0.01. -/
def wrongTotal : List RowWrite := [.saveInvoice 1 ⟨999, 0, false, false⟩, .insertLine ⟨1, 1, 1, false⟩]

/-- A wrong invoice goes with its savepoint, and a right one is committed. -/
def retriedInvoice : List GuardEvent :=
  [.savepoint, .flush wrongTotal, .rollbackTo 0,
    .flush [.saveInvoice 1 ⟨1, 0, false, false⟩, .insertLine ⟨1, 1, 1, false⟩], .commit]

theorem committed_totals_hold_retried :
    (filled retriedInvoice).invoices 1 = some ⟨1, 0, false, false⟩ ∧ (filled retriedInvoice).holds 1 = true := by
  have hwhole : (((GuardSession.start emptyTotals).run (retriedInvoice.take 4)).txn.now).Whole := by
    refine ⟨fun id => ?_, by decide +kernel⟩
    by_cases hid : id = 1
    · subst hid
      decide +kernel
    · show (Function.update (fun _ => none) 1 _ id).map _ = Function.update (fun _ => none) 1 _ id
      rw [Function.update_of_ne hid, Option.map_none]
  have hin : GuardSession.InnermostRun (.start emptyTotals) retriedInvoice :=
    ⟨trivial, trivial, trivial, trivial, hwhole, trivial⟩
  exact ⟨by decide +kernel, (committed_totals_hold emptyTotals (fun _ => rfl) retriedInvoice hin).1 1⟩

/-- A savepoint with the wrong invoice is released while another is open inside it. -/
def releasedAround : List GuardEvent := [.savepoint, .flush wrongTotal, .savepoint, .release 1, .commit]

/-- The outermost transaction itself is committed while a savepoint is open. -/
def committedAround : List GuardEvent := [.flush wrongTotal, .savepoint, .commitRoot]

/-- A total of 20.008 over two lines of 10.004. -/
def roundedApart : List GuardEvent :=
  [.flush [.saveInvoice 1 ⟨10004 / 5, 0, false, false⟩, .insertLine ⟨1, 1, 5002 / 5, false⟩,
    .insertLine ⟨2, 1, 5002 / 5, false⟩], .commit]

theorem wrong_total_committed :
    ¬ (∀ id, (filled releasedAround).holds id = true) ∧ ¬ (∀ id, (filled committedAround).holds id = true) ∧
      ¬ ∀ id, (filled roundedApart).holds id = true := by
  have hwrong {events : List GuardEvent} (hfirst : (filled events).holds 1 = false) :
      ¬ ∀ id, (filled events).holds id = true :=
    fun hall => Bool.false_ne_true (hfirst.symm.trans (hall 1))
  exact ⟨hwrong (by decide +kernel), hwrong (by decide +kernel), hwrong (by decide +kernel)⟩

end Gdx
