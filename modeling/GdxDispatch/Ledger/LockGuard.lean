import GdxDispatch.Lib.Guarded
import GdxDispatch.Ledger.Live
import GdxDispatch.Ledger.Backfill

/-! The period lock as a guard over the journal.

    Each call of the engine makes at most one write: a posting whose content is live makes none, any
    other posting one at its date, and a reversal one at the date of the entry it reverses. The lock
    is asked before the write, so a refused call leaves the journal as it was. A call moves the
    entries of its own source only. -/

namespace Gdx
open Lib

/-- The journal is the log, the latest lock is what allows or refuses a date. -/
def lockGuard (lock : Option ℤ) : Guard LedgerError Ledger GlJournalEntry ℤ where
  log := Ledger.entries
  blocked := LedgerError.isPeriodLocked
  allowed day := ∀ d, lock = some d → d < day

/-- The entries of the sources chosen. -/
def Ledger.sourced (L : Ledger) (Q : Text → Text → Bool) : List GlJournalEntry :=
  L.entries.filter fun e => Q e.sourceType e.sourceId

/-- Nothing moved but entries of the sources in `P`. -/
structure Within (H : ContentHash) (P : Text → Text → Prop) (L L' : Ledger) : Prop where
  inv : JournalInv H L'
  accounts : L'.accounts = L.accounts
  locks : L'.locks = L.locks
  others : ∀ Q : Text → Text → Bool, (∀ st sid, P st sid → Q st sid = false) → L'.sourced Q = L.sourced Q

section Within
variable {H : ContentHash} {P P' : Text → Text → Prop} {L L' M : Ledger} {acct : Role → ℕ} {α β : Type}

theorem Within.refl (hinv : JournalInv H L) : Within H P L L := ⟨hinv, rfl, rfl, fun _ _ => rfl⟩

theorem Within.trans (h : Within H P L M) (h' : Within H P M L') : Within H P L L' :=
  ⟨h'.inv, h'.accounts.trans h.accounts, h'.locks.trans h.locks,
    fun Q hQ => (h'.others Q hQ).trans (h.others Q hQ)⟩

theorem Within.mono (h : Within H P L L') (hP : ∀ st sid, P st sid → P' st sid) : Within H P' L L' :=
  ⟨h.inv, h.accounts, h.locks, fun Q hQ => h.others Q fun st sid hp => hQ st sid (hP st sid hp)⟩

theorem Within.latestLock (h : Within H P L L') (company : ℕ) : L'.latestLock company = L.latestLock company :=
  latestLock_congr h.locks company

/-- A sequence stays within what both parts stay within. -/
theorem within_bind {x : LedgerM α} {f : α → LedgerM β} (h : Within H P L (after x L))
    (hf : ∀ a M, x L = .ok a M → Within H P M (after (f a) M)) : Within H P L (after (x >>= f) L) := by
  cases hx : x L with
  | error e M =>
    rw [after_error hx] at h
    rw [after_error (x := x >>= f) (by rw [bind_apply, hx])]
    exact h
  | ok a M =>
    rw [after_ok hx] at h
    have hfa := h.trans (hf a M hx)
    unfold after at hfa ⊢
    rw [bind_of_ok hx]
    exact hfa

/-! ### Errors -/

theorem ensureRoleAccount_seeded {company : ℕ} {role : Role} (hs : Seeded L company acct) :
    ∃ a, ensureRoleAccount company role L = .ok a L := by
  obtain ⟨a, hres, -⟩ := hs role
  exact ⟨a, ensureRoleAccount_of_resolve hres⟩

/-- On a seeded chart a leg that does not resolve names a bad account, and nothing is written. -/
theorem resolveLine_error_seeded {company : ℕ} {line : PostingLine} {e : LedgerError}
    (hs : Seeded L company acct) (h : resolveLine company line L = .error e L') :
    L' = L ∧ ∃ msg, e = .ledgerConfig msg := by
  unfold resolveLine at h
  cases hr : line.role with
  | some role =>
    simp only [hr] at h
    obtain ⟨a, ha⟩ := ensureRoleAccount_seeded hs
    rw [bind_of_ok ha] at h
    cases h
  | none =>
    simp only [hr, resolveAccountId] at h
    split at h
    · cases h; exact ⟨rfl, _, rfl⟩
    · split_ifs at h <;> (cases h; exact ⟨rfl, _, rfl⟩)

theorem resolveLines_error_seeded {company : ℕ} {e : LedgerError} : ∀ {lines : List PostingLine}
    {L L' : Ledger}, Seeded L company acct → resolveLines company lines L = .error e L' →
    L' = L ∧ ∃ msg, e = .ledgerConfig msg
  | [], L, L', _, h => by cases h
  | line :: lines, L, L', hs, h => by
    rw [resolveLines, bind_error] at h
    rcases h with h | ⟨id, M, hid, h⟩
    · exact resolveLine_error_seeded hs h
    · obtain ⟨rfl, -⟩ := resolveLine_seeded hs hid
      rw [bind_error] at h
      rcases h with h | ⟨rest, N, -, h⟩
      · exact resolveLines_error_seeded hs h
      · cases h

theorem raising_error {x : Except LedgerError α} {e : LedgerError} :
    raising x L = .error e L' ↔ x = .error e ∧ L' = L := by
  unfold raising
  cases x with
  | ok b =>
    constructor
    · intro h; cases h
    · rintro ⟨h, -⟩; cases h
  | error b =>
    constructor
    · intro h; cases h; exact ⟨rfl, rfl⟩
    · rintro ⟨h, rfl⟩; cases h; rfl

theorem validateBalance_error {lines : List PostingLine} {e : LedgerError} (h : validateBalance lines = .error e) :
    ∃ msg, e = .unbalancedEntry msg := by
  unfold validateBalance at h
  simp only at h
  split_ifs at h <;> (cases h; exact ⟨_, rfl⟩)

theorem keyPrefix_error {st sid ev hash : Text} {e : LedgerError} (h : keyPrefix st sid ev hash = .error e) :
    ∃ name, e = .badKeyComponent name := by
  unfold keyPrefix validateComponent at h
  by_cases h1 : ValidComponent st
  · by_cases h2 : st = "reversal".toList
    · rw [if_pos h1, if_pos h2] at h; cases h; exact ⟨_, rfl⟩
    · by_cases h3 : ValidComponent sid
      · by_cases h4 : ValidComponent ev
        · rw [if_pos h1, if_neg h2, if_pos h3, if_pos h4] at h; cases h
        · rw [if_pos h1, if_neg h2, if_pos h3, if_neg h4] at h; cases h; exact ⟨_, rfl⟩
      · rw [if_pos h1, if_neg h2, if_neg h3] at h; cases h; exact ⟨_, rfl⟩
  · rw [if_neg h1] at h; cases h; exact ⟨_, rfl⟩

/-- An error of the engine is no complaint about the rows. -/
def LedgerError.isComposition : LedgerError → Bool
  | .issuanceComposition _ _ => true
  | .expenseComposition _ _ => true
  | _ => false

/-- Once the lock was checked, a retry is not refused by it, and no retry complains about the rows. -/
theorem postAttempts_checked_error {event : PostingEvent} {pfx : Text} {lines : List GlJournalLine} {ovr : Bool}
    {e : LedgerError} : ∀ (k : ℕ) (L L' : Ledger), postAttempts event pfx lines ovr k true L = .error e L' →
    e.isPeriodLocked = false ∧ e.isComposition = false
  | 0, L, L', h => by cases h; exact ⟨rfl, rfl⟩
  | k + 1, L, L', h => by
    simp only [postAttempts, if_true, pure_apply] at h
    split at h
    · cases h
    · split at h
      · cases h
      · next e' N hi =>
        obtain ⟨-, rfl, -⟩ := insertEntry_error hi
        split at h
        · cases h; exact ⟨rfl, rfl⟩
        · split_ifs at h
          exact postAttempts_checked_error k N L' h

/-- The first attempt is refused by the lock only when it found no live entry. -/
theorem postAttempts_first_error {event : PostingEvent} {pfx : Text} {lines : List GlJournalLine}
    {e : LedgerError} {k : ℕ} (h : postAttempts event pfx lines false (k + 1) false L = .error e L') :
    e.isComposition = false ∧ (e.isPeriodLocked = true →
      (entryByKey L event.companyId (idempotencyKey pfx (computeSeq L event.companyId pfx))).filter
        (·.isPosted) = none ∧ ∃ d, L.latestLock event.companyId = some d ∧ event.effectiveAt ≤ d) := by
  simp only [postAttempts, Bool.false_eq_true, if_false] at h
  split at h
  · cases h
  · next hnone =>
    split at h
    · next e' N hl =>
      cases h
      obtain ⟨-, d, hd, hle, rfl, -⟩ := checkPeriodLock_error hl
      exact ⟨rfl, fun _ => ⟨hnone, d, hd, hle⟩⟩
    · next N hl =>
      split at h
      · cases h
      · next e' K hi =>
        obtain ⟨-, rfl, -⟩ := insertEntry_error hi
        split at h
        · cases h
          exact ⟨rfl, fun hl => by cases hl⟩
        · split_ifs at h
          obtain ⟨hnl, hnc⟩ := postAttempts_checked_error _ _ _ h
          refine ⟨hnc, fun hl => ?_⟩
          rw [hnl] at hl
          cases hl

/-- A live entry of the prefix is found under the key the engine derives. -/
theorem Sequenced.live_found {pfx : Text} {company : ℕ} {e : GlJournalEntry} (hinv : JournalInv H L)
    (h : Sequenced pfx (prefixed L pfx)) (he : e ∈ prefixed L pfx) (hp : e.status = .posted)
    (hc : e.companyId = company) :
    entryByKey L company (idempotencyKey pfx (computeSeq L company pfx)) = some e := by
  have hne : prefixed L pfx ≠ [] := List.ne_nil_of_mem he
  have hsplit := List.dropLast_append_getLast hne
  have hlast : (prefixed L pfx).getLast hne = e := by
    rw [← hsplit] at he
    rcases List.mem_append.mp he with he | he
    · rw [h.reversed e he] at hp; cases hp
    · exact (List.mem_singleton.mp he).symm
  -- every earlier entry of the prefix is reversed, so the count is the number of the live one
  have hseq : computeSeq L company pfx = (prefixed L pfx).length - 1 := by
    rw [computeSeq_eq]
    nth_rewrite 1 [← hsplit]
    rw [List.filter_append, hlast]
    have hlive : [e].filter (fun x => x.companyId == company && x.status == .reversed) = [] := by
      simp [hp]
    have hdead : (prefixed L pfx).dropLast.filter
        (fun x => x.companyId == company && x.status == .reversed) = (prefixed L pfx).dropLast := by
      rw [List.filter_eq_self]
      intro x hx
      have hxc := h.company x (List.mem_of_mem_dropLast hx) e he
      simp [h.reversed x hx, hxc, hc]
    rw [hlive, hdead, List.append_nil, List.length_dropLast]
  have hpos : 0 < (prefixed L pfx).length := List.length_pos_iff.mpr hne
  have hkey : e.idempotencyKey = idempotencyKey pfx (computeSeq L company pfx) := by
    have hnum := h.numbered
    have hget := congrArg (fun l : List Text => l[(prefixed L pfx).length - 1]?) hnum
    simp only [List.getElem?_map, List.getElem?_range (Nat.sub_lt hpos Nat.one_pos), Option.map_some] at hget
    rw [← List.getLast?_eq_getElem?, List.getLast?_eq_some_getLast hne, hlast, Option.map_some,
      Option.some.injEq] at hget
    rw [hget, hseq]
  have hmem := (mem_prefixed.mp he).1
  cases hf : entryByKey L company (idempotencyKey pfx (computeSeq L company pfx)) with
  | none =>
    have hno := List.find?_eq_none.mp hf e hmem
    simp [hc, hkey] at hno
  | some x =>
    obtain ⟨hx, -, hxk⟩ := entryByKey_some hf
    rw [hinv.eq_of_key hx hmem (hxk.trans hkey.symm)]

/-! ### A posting makes one write, or none -/

/-- The write a posting makes: none when its content is live for the company. -/
def postWrite (H : ContentHash) (acct : Role → ℕ) (L : Ledger) (event : PostingEvent) : List ℤ :=
  if (prefixed L ((event.posting acct).keyPrefix H)).any fun e => e.isPosted && e.companyId == event.companyId
  then [] else [event.effectiveAt]

/-- The live entry of the content, or the new one. -/
inductive Posted (H : ContentHash) (acct : Role → ℕ) (event : PostingEvent) (L : Ledger) :
    GlJournalEntry → Ledger → Prop
  | replayed {e : GlJournalEntry} (mem : e ∈ prefixed L ((event.posting acct).keyPrefix H))
      (posted : e.status = .posted) (company : e.companyId = event.companyId) : Posted H acct event L e L
  | inserted {rs : List GlJournalLine}
      (dead : ∀ x ∈ prefixed L ((event.posting acct).keyPrefix H), x.status = .reversed)
      (allowed : ∀ d, L.latestLock event.companyId = some d → d < event.effectiveAt) :
      Posted H acct event L
        ((event.header ((event.posting acct).keyPrefix H)
          (prefixed L ((event.posting acct).keyPrefix H)).length).entry L rs)
        (L.insertRow ((event.header ((event.posting acct).keyPrefix H)
          (prefixed L ((event.posting acct).keyPrefix H)).length).entry L rs))

section Post
variable {event : PostingEvent}

theorem keyPrefix_posting {rs : List GlJournalLine} (hextra : event.extraContent = [])
    (hcs : rs.map (·.content) = event.lines.map (·.content acct)) :
    joinPrefix event.sourceType event.sourceId event.event
      (H.digest (contentOf event.effectiveAt rs event.extraContent)) = (event.posting acct).keyPrefix H := by
  rw [contentOf, hcs, hextra]; rfl

theorem post_posted {e : GlJournalEntry} (hinv : JournalInv H L) (hseed : Seeded L event.companyId acct)
    (hextra : event.extraContent = []) (h : postForEvent H event false L = .ok e L') :
    Posted H acct event L e L' := by
  obtain ⟨M, rs, -, hres, -, hout⟩ := postForEvent_ok hinv h
  obtain ⟨rfl, hcs⟩ := resolveLines_seeded hseed hres
  rw [keyPrefix_posting hextra hcs] at hout
  cases hout with
  | replayed mem posted company => exact .replayed mem posted company
  | @inserted N checked dead free =>
    obtain ⟨-, -, -, -, hlock⟩ := checkPeriodLock_ok checked
    obtain ⟨rfl, hallowed⟩ := hlock rfl
    exact .inserted (fun x hx => (dead x hx).1) hallowed

/-- A posting that raises writes nothing; a refusal of the lock means the content was not live. -/
theorem post_raised {e : LedgerError} (hinv : JournalInv H L) (hseed : Seeded L event.companyId acct)
    (hextra : event.extraContent = []) (h : postForEvent H event false L = .error e L') :
    AuditOnly L L' ∧ e.isComposition = false ∧ (e.isPeriodLocked = true →
      postWrite H acct L event = [event.effectiveAt] ∧
        ¬ (lockGuard (L.latestLock event.companyId)).allowed event.effectiveAt) := by
  rw [postForEvent, bind_error] at h
  rcases h with h | ⟨u, L₁, hval, h⟩
  · obtain ⟨hv, rfl⟩ := raising_error.mp h
    obtain ⟨msg, rfl⟩ := validateBalance_error hv
    exact ⟨.refl _, rfl, fun hl => by cases hl⟩
  obtain ⟨-, rfl⟩ := raising_ok.mp hval
  rw [bind_error] at h
  rcases h with h | ⟨rs, M, hres, h⟩
  · obtain ⟨rfl, msg, rfl⟩ := resolveLines_error_seeded hseed h
    exact ⟨.refl _, rfl, fun hl => by cases hl⟩
  obtain ⟨rfl, hcs⟩ := resolveLines_seeded hseed hres
  rw [bind_error] at h
  rcases h with h | ⟨pfx, M', hpfx, h⟩
  · obtain ⟨hk, rfl⟩ := raising_error.mp h
    obtain ⟨name, rfl⟩ := keyPrefix_error hk
    exact ⟨.refl _, rfl, fun hl => by cases hl⟩
  obtain ⟨hk, rfl⟩ := raising_ok.mp hpfx
  obtain ⟨hvp, rfl⟩ := (keyPrefix_ok (H.no_colon _)).mp hk
  rw [keyPrefix_posting hextra hcs] at h
  obtain ⟨hcomp, hlocked⟩ := postAttempts_first_error h
  refine ⟨postAttempts_error _ _ _ _ h, hcomp, fun hl => ?_⟩
  obtain ⟨hnone, d, hd, hle⟩ := hlocked hl
  refine ⟨?_, fun hal => ?_⟩
  · unfold postWrite
    rw [if_neg]
    intro hany
    obtain ⟨x, hx, hxp⟩ := List.any_eq_true.mp hany
    simp only [Bool.and_eq_true, isPosted_iff, beq_iff_eq] at hxp
    have hseq := hinv.sequenced _ _ _ _ hvp
    rw [keyPrefix_posting hextra hcs] at hseq
    rw [hseq.live_found hinv hx hxp.1 hxp.2, Option.filter_some, if_pos (by simpa using hxp.1)] at hnone
    cases hnone
  · have hlt := hal d hd
    omega

theorem post_plan (hinv : JournalInv H L) (hseed : Seeded L event.companyId acct)
    (hextra : event.extraContent = []) :
    (lockGuard (L.latestLock event.companyId)).Plan (postForEvent H event false) L (postWrite H acct L event) := by
  cases h : postForEvent H event false L with
  | ok e L' =>
    cases post_posted hinv hseed hextra h with
    | replayed mem posted company =>
      have hW : postWrite H acct L event = [] := by
        unfold postWrite
        rw [if_pos]
        exact List.any_eq_true.mpr ⟨e, mem, by simp [posted, company]⟩
      rw [hW]
      exact .of_ok h (by simp) rfl fun _ => rfl
    | inserted dead allowed =>
      have hW : postWrite H acct L event = [event.effectiveAt] := by
        unfold postWrite
        rw [if_neg]
        intro hany
        obtain ⟨x, hx, hxp⟩ := List.any_eq_true.mp hany
        simp only [Bool.and_eq_true, isPosted_iff] at hxp
        rw [dead x hx] at hxp
        cases hxp.1
      rw [hW]
      refine .of_ok h ?_ ?_ (fun hn => by cases hn)
      · intro w hw
        rw [List.mem_singleton.mp hw]
        exact allowed
      · simp [lockGuard, Ledger.insertRow]
  | error e L' =>
    obtain ⟨haudit, -, hlocked⟩ := post_raised hinv hseed hextra h
    by_cases hl : e.isPeriodLocked = true
    · obtain ⟨hW, hno⟩ := hlocked hl
      unfold Guard.Plan
      rw [h, hW]
      refine fun _ => ⟨[], event.effectiveAt, [], rfl, by simp, hno, ?_, fun _ => haudit.entries⟩
      simp [lockGuard, haudit.entries]
    · exact .of_error h (by simpa [lockGuard] using hl)

theorem post_within (hinv : JournalInv H L) (hseed : Seeded L event.companyId acct)
    (hextra : event.extraContent = []) (hP : P event.sourceType event.sourceId) :
    Within H P L (after (postForEvent H event false) L) := by
  cases h : postForEvent H event false L with
  | ok e L' =>
    rw [after_ok h]
    have hinv' := postForEvent_inv hinv h
    cases post_posted hinv hseed hextra h with
    | replayed => exact .refl hinv
    | inserted dead allowed =>
      refine ⟨hinv', rfl, rfl, fun Q hQ => ?_⟩
      simp only [Ledger.sourced, Ledger.insertRow, List.filter_append]
      rw [List.filter_cons_of_neg, List.filter_nil, List.append_nil]
      exact Bool.eq_false_iff.mp (hQ _ _ hP)
  | error e L' =>
    rw [after_error h]
    obtain ⟨ha, -⟩ := post_raised hinv hseed hextra h
    exact ⟨hinv.congr ha.entries ha.accounts ha.nextId, ha.accounts, ha.locks,
      fun Q _ => by rw [Ledger.sourced, ha.entries]; rfl⟩

end Post

/-! ### A reversal makes one write -/

section Reverse
variable {e : GlJournalEntry} {actor : Option Text}

/-- Reversing a posted entry, at whatever day, adds its mirror and marks it. -/
theorem reverse_at {r : GlJournalEntry} {at' : Option ℤ} (hinv : JournalInv H L) (he : e ∈ L.entries)
    (hp : e.status = .posted) (h : reverseEntry e.id at' actor false L = .ok r L') :
    L' = (L.insertRow (e.reversal L (at'.getD e.effectiveAt) actor)).markReversed e.id L.nextId := by
  cases reverseEntry_ok hinv h with
  | already mem eid rev =>
    rw [hinv.eq_of_id mem he eid, hp] at rev
    cases rev
  | mirrored mem eid posted checked =>
    obtain rfl := hinv.eq_of_id mem he eid
    obtain ⟨-, -, -, -, hlock⟩ := checkPeriodLock_ok checked
    obtain ⟨rfl, -⟩ := hlock rfl
    rfl

theorem reverse_mirrored {r : GlJournalEntry} (hinv : JournalInv H L) (he : e ∈ L.entries)
    (hp : e.status = .posted) (h : reverseEntry e.id none actor false L = .ok r L') :
    (∀ d, L.latestLock e.companyId = some d → d < e.effectiveAt) ∧
      L' = (L.insertRow (e.reversal L e.effectiveAt actor)).markReversed e.id L.nextId := by
  cases reverseEntry_ok hinv h with
  | already mem eid rev =>
    rw [hinv.eq_of_id mem he eid, hp] at rev
    cases rev
  | @mirrored x M mem eid posted checked =>
    obtain rfl := hinv.eq_of_id mem he eid
    obtain ⟨-, -, -, -, hlock⟩ := checkPeriodLock_ok checked
    obtain ⟨rfl, hallowed⟩ := hlock rfl
    exact ⟨hallowed, rfl⟩

theorem reverse_raised {err : LedgerError} (hinv : JournalInv H L) (he : e ∈ L.entries)
    (hp : e.status = .posted) (h : reverseEntry e.id none actor false L = .error err L') :
    L' = L ∧ err.isComposition = false ∧
      (err.isPeriodLocked = true → ¬ (lockGuard (L.latestLock e.companyId)).allowed e.effectiveAt) := by
  refine ⟨reverseEntry_error hinv h, ?_⟩
  unfold reverseEntry at h
  simp only [hinv.entryById he, hp, reduceCtorEq, if_false, Option.getD_none] at h
  split at h
  · next e' M hl =>
    cases h
    obtain ⟨-, d, hd, hle, rfl, -⟩ := checkPeriodLock_error hl
    refine ⟨rfl, fun _ hal => ?_⟩
    have hlt := hal d hd
    omega
  · next M hl =>
    split at h
    · cases h
    · next e' N hi =>
      obtain ⟨-, rfl, -⟩ := insertEntry_error hi
      split at h
      · cases h; exact ⟨rfl, fun hl => by cases hl⟩
      · cases h

theorem reverse_plan (hinv : JournalInv H L) (he : e ∈ L.entries) (hp : e.status = .posted) :
    (lockGuard (L.latestLock e.companyId)).Plan (reverseEntry e.id none actor false) L [e.effectiveAt] := by
  cases h : reverseEntry e.id none actor false L with
  | ok r L' =>
    obtain ⟨hallowed, rfl⟩ := reverse_mirrored hinv he hp h
    refine .of_ok h ?_ ?_ (fun hn => by cases hn)
    · intro w hw
      rw [List.mem_singleton.mp hw]
      exact hallowed
    · simp [lockGuard, Ledger.markReversed, Ledger.insertRow]
  | error err L' =>
    obtain ⟨rfl, -, hlocked⟩ := reverse_raised hinv he hp h
    by_cases hl : err.isPeriodLocked = true
    · unfold Guard.Plan
      rw [h]
      exact fun _ => ⟨[], e.effectiveAt, [], rfl, by simp, hlocked hl, rfl, fun _ => rfl⟩
    · exact .of_error h (by simpa [lockGuard] using hl)

/-- A filter that does not look at the rows a map changes. -/
theorem filter_map_of_fixed {γ : Type} {f : γ → γ} {q : γ → Bool} : ∀ {l : List γ},
    (∀ a ∈ l, q (f a) = q a ∧ (q a = true → f a = a)) → (l.map f).filter q = l.filter q
  | [], _ => rfl
  | a :: l, h => by
    have ih := filter_map_of_fixed fun b hb => h b (List.mem_cons_of_mem _ hb)
    obtain ⟨hq, hfix⟩ := h a (List.mem_cons_self ..)
    rw [List.map_cons]
    by_cases ha : q a = true
    · rw [List.filter_cons_of_pos (by rw [hq]; exact ha), List.filter_cons_of_pos ha, ih, hfix ha]
    · rw [List.filter_cons_of_neg (by rw [hq]; exact ha), List.filter_cons_of_neg ha, ih]

/-- A reversal moves its entry's source alone. -/
theorem reverse_leaves {r : GlJournalEntry} {at' : Option ℤ} (hinv : JournalInv H L) (he : e ∈ L.entries)
    (hp : e.status = .posted) (hP : P e.sourceType e.sourceId) (h : reverseEntry e.id at' actor false L = .ok r L') :
    Within H P L L' := by
  have hinv' := reverseEntry_inv hinv h
  obtain rfl := reverse_at hinv he hp h
  refine ⟨hinv', rfl, rfl, fun Q hQ => ?_⟩
  have hno := hQ _ _ hP
  simp only [Ledger.sourced, Ledger.markReversed, Ledger.insertRow, List.map_append, List.filter_append]
  rw [filter_map_of_fixed]
  · have hr : ([e.reversal L (at'.getD e.effectiveAt) actor].map fun x =>
        if x.id = e.id then x.marked L.nextId else x).filter (fun x => Q x.sourceType x.sourceId) = [] := by
      rw [List.map_singleton, List.filter_cons_of_neg, List.filter_nil]
      split_ifs <;> exact Bool.eq_false_iff.mp hno
    rw [hr, List.append_nil]
  · intro x hx
    split_ifs with hid
    · rw [hinv.eq_of_id hx he hid]
      refine ⟨rfl, fun hq => ?_⟩
      rw [hno] at hq
      cases hq
    · exact ⟨rfl, fun _ => rfl⟩

theorem reverse_within (hinv : JournalInv H L) (he : e ∈ L.entries) (hp : e.status = .posted)
    (hP : P e.sourceType e.sourceId) : Within H P L (after (reverseEntry e.id none actor false) L) := by
  cases h : reverseEntry e.id none actor false L with
  | error err L' =>
    rw [after_error h, (reverse_raised hinv he hp h).1]
    exact .refl hinv
  | ok r L' =>
    rw [after_ok h]
    exact reverse_leaves hinv he hp hP h

end Reverse

end Within

end Gdx
