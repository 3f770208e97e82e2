import GdxDispatch.Ledger.LockGuard
import GdxDispatch.Ledger.Settlement

/-! Which writes each rule makes, in order, and at which dates.

    The writes are read off the rows and the ledger as they stand before the rule runs. A rule that
    posts first and reverses what is stale asks the lock more than once, and the dates need not agree:
    the new content may be dated in an open month and the stale entry in a closed one. -/

namespace Gdx
open Lib

variable {H : ContentHash} {clock : ShopClock} {R : Rows} {acct : Role → ℕ} {P : Text → Text → Prop}
  {L L' M : Ledger} {company : ℕ} {actor : Option Text} {α β : Type}

/-- The rule makes the writes `W` on the sources in `P`, and its errors are the engine's. -/
structure Acts (H : ContentHash) (P : Text → Text → Prop) (company : ℕ) (x : LedgerM α) (L : Ledger)
    (W : List ℤ) : Prop where
  within : Within H P L (after x L)
  plan : (lockGuard (L.latestLock company)).Plan x L W
  sound : ∀ e L', x L = .error e L' → e.isComposition = false

theorem Acts.pure (hinv : JournalInv H L) (a : α) : Acts H P company (pure a : LedgerM α) L [] :=
  ⟨.refl hinv, .pure a L, fun e L' h => by cases h⟩

theorem Acts.bind {x : LedgerM α} {f : α → LedgerM β} {W W' : List ℤ} (h : Acts H P company x L W)
    (hf : ∀ a M, x L = .ok a M → Acts H P company (f a) M W') : Acts H P company (x >>= f) L (W ++ W') := by
  refine ⟨within_bind h.within fun a M hx => (hf a M hx).within, h.plan.bind fun a M hx => ?_, ?_⟩
  · have hw := h.within
    rw [after_ok hx] at hw
    rw [← hw.latestLock company]
    exact (hf a M hx).plan
  · intro e L' herr
    rcases bind_error.mp herr with herr | ⟨a, M, hx, herr⟩
    · exact h.sound e L' herr
    · exact (hf a M hx).sound e L' herr

theorem Acts.within_ok {x : LedgerM α} {W : List ℤ} {a : α} (h : Acts H P company x L W) (hx : x L = .ok a M) :
    Within H P L M := by
  have hw := h.within
  rwa [after_ok hx] at hw

theorem Acts.of_eq {x : LedgerM α} {W W' : List ℤ} (h : Acts H P company x L W) (hW : W = W') :
    Acts H P company x L W' := hW ▸ h

/-- A rule that reads the ledger first is the rule it becomes. -/
theorem Acts.congr {x y : LedgerM α} {W : List ℤ} (h : Acts H P company y L W) (hxy : x L = y L) :
    Acts H P company x L W := by
  refine ⟨?_, ?_, ?_⟩
  · have := h.within
    unfold after at this ⊢
    rwa [hxy]
  · have := h.plan
    unfold Guard.Plan at this ⊢
    rwa [hxy]
  · intro e L' herr
    exact h.sound e L' (by rw [← hxy]; exact herr)

/-- A raise of the rows or the settings writes nothing. -/
theorem Acts.of_raise {x : LedgerM α} {e : LedgerError} {W : List ℤ} (hinv : JournalInv H L)
    (hx : x L = .error e L) (hl : e.isPeriodLocked = false) (hc : e.isComposition = false) :
    Acts H P company x L W := by
  refine ⟨by rw [after_error hx]; exact .refl hinv, .of_error hx hl, fun e' L' h => ?_⟩
  rw [hx] at h
  cases h
  exact hc

theorem Acts.of_ok_same {x : LedgerM α} {a : α} (hinv : JournalInv H L) (hx : x L = .ok a L) :
    Acts H P company x L [] := (Acts.pure hinv a).congr hx

/-! ### The engine -/

theorem post_acts {event : PostingEvent} (hinv : JournalInv H L) (hseed : Seeded L event.companyId acct)
    (hextra : event.extraContent = []) (hP : P event.sourceType event.sourceId) :
    Acts H P event.companyId (postForEvent H event false) L (postWrite H acct L event) :=
  ⟨post_within hinv hseed hextra hP, post_plan hinv hseed hextra,
    fun _ _ h => (post_raised hinv hseed hextra h).2.1⟩

theorem reverse_acts {e : GlJournalEntry} (hinv : JournalInv H L) (he : e ∈ L.entries)
    (hp : e.status = .posted) (hc : e.companyId = company) (hP : P e.sourceType e.sourceId) :
    Acts H P company (reverseEntry e.id none actor false) L [e.effectiveAt] := by
  subst hc
  exact ⟨reverse_within hinv he hp hP, reverse_plan hinv he hp, fun _ _ h => (reverse_raised hinv he hp h).2.1⟩

/-- Reversing an entry keeps every other row. -/
theorem mem_of_reversed {e r x : GlJournalEntry} (hinv : JournalInv H L) (he : e ∈ L.entries)
    (hp : e.status = .posted) (h : reverseEntry e.id none actor false L = .ok r L') (hx : x ∈ L.entries)
    (hne : x.id ≠ e.id) : x ∈ L'.entries := by
  obtain ⟨-, rfl⟩ := reverse_mirrored hinv he hp h
  exact mem_mirrored.mpr (Or.inl ⟨x, hx, by rw [if_neg hne]⟩)

/-- The dates of entries. -/
def dates (es : List GlJournalEntry) : List ℤ := es.map (·.effectiveAt)

theorem reverseEach_acts : ∀ (es : List GlJournalEntry) {L : Ledger}, JournalInv H L →
    (∀ e ∈ es, e ∈ L.entries ∧ e.status = .posted ∧ e.companyId = company ∧ P e.sourceType e.sourceId) →
    (es.map (·.id)).Nodup → Acts H P company (each (reverseSettled actor none) es) L (dates es)
  | [], L, hinv, _, _ => .pure hinv ()
  | e :: es, L, hinv, hes, hnd => by
    obtain ⟨hmem, hp, hc, hP⟩ := hes e (List.mem_cons_self ..)
    rw [List.map_cons, List.nodup_cons] at hnd
    have hone : Acts H P company (reverseSettled actor none e) L [e.effectiveAt] := by
      unfold reverseSettled
      rw [withFallback_none]
      exact (reverse_acts hinv hmem hp hc hP).bind fun r M hr =>
        .pure (reverseEntry_inv hinv hr) _
    refine Acts.bind hone fun u M hM => ?_
    refine reverseEach_acts es (hone.within_ok hM).inv ?_ hnd.2
    intro x hx
    obtain ⟨hxm, hxp, hxc, hxP⟩ := hes x (List.mem_cons_of_mem _ hx)
    refine ⟨?_, hxp, hxc, hxP⟩
    simp only [reverseSettled, withFallback_none] at hM
    rw [bind_ok] at hM
    obtain ⟨r, N, hr, hN⟩ := hM
    cases hN
    refine mem_of_reversed hinv hmem hp hr hxm fun hid => hnd.1 ?_
    rw [← hid]
    exact List.mem_map_of_mem hx

/-- A query for live rows that no reversed row answers gives the same rows after the reversals. -/
theorem query_reverseEach {q : GlJournalEntry → Bool} (hlive : ∀ x, q x = true → x.status = .posted)
    (hkey : ∀ x id, x.idempotencyKey = reversalKey id → q x = false) :
    ∀ (es : List GlJournalEntry) {L L' : Ledger}, JournalInv H L →
    (∀ e ∈ es, e ∈ L.entries ∧ e.status = .posted ∧ q e = false) → (es.map (·.id)).Nodup →
    each (reverseSettled actor none) es L = .ok () L' → L'.entries.filter q = L.entries.filter q
  | [], L, L', _, _, _, h => by cases h; rfl
  | e :: es, L, L', hinv, hes, hnd, h => by
    obtain ⟨hmem, hp, hq⟩ := hes e (List.mem_cons_self ..)
    rw [List.map_cons, List.nodup_cons] at hnd
    rw [each, bind_ok] at h
    obtain ⟨⟨⟩, M, hM, h⟩ := h
    simp only [reverseSettled, withFallback_none] at hM
    rw [bind_ok] at hM
    obtain ⟨r, N, hr, hN⟩ := hM
    cases hN
    have hrest := query_reverseEach hlive hkey es (reverseEntry_inv hinv hr) (fun x hx => by
      obtain ⟨hxm, hxp, hxq⟩ := hes x (List.mem_cons_of_mem _ hx)
      refine ⟨mem_of_reversed hinv hmem hp hr hxm fun hid => hnd.1 ?_, hxp, hxq⟩
      rw [← hid]
      exact List.mem_map_of_mem hx) hnd.2 h
    rw [hrest]
    obtain ⟨-, rfl⟩ := reverse_mirrored hinv hmem hp hr
    simp only [Ledger.markReversed, Ledger.insertRow, List.map_append, List.filter_append]
    rw [filter_map_of_fixed]
    · have hnew : ([e.reversal L e.effectiveAt actor].map fun x => if x.id = e.id then x.marked L.nextId else x).filter
          q = [] := by
        rw [List.map_singleton, List.filter_cons_of_neg, List.filter_nil]
        refine Bool.eq_false_iff.mp (hkey _ e.id ?_)
        split_ifs <;> rfl
      rw [hnew, List.append_nil]
    · intro x hx
      split_ifs with hid
      · rw [hinv.eq_of_id hx hmem hid]
        have hmarked : q (e.marked L.nextId) = false := by
          rw [Bool.eq_false_iff]
          intro hqm
          have := hlive _ hqm
          cases this
        exact ⟨by rw [hmarked, hq], fun h => by rw [hq] at h; cases h⟩
      · exact ⟨rfl, fun _ => rfl⟩

/-! ### Post, then reverse what is stale -/

/-- The entry is filed under the content of the event. -/
def filedUnder (H : ContentHash) (acct : Role → ℕ) (L : Ledger) (event : PostingEvent) (e : GlJournalEntry) :
    Bool := decide (e ∈ prefixed L ((event.posting acct).keyPrefix H))

section Post
variable {event : PostingEvent}

theorem post_sequenced {e : GlJournalEntry} (hinv : JournalInv H L) (hseed : Seeded L event.companyId acct)
    (hextra : event.extraContent = []) (h : postForEvent H event false L = .ok e L') :
    Sequenced ((event.posting acct).keyPrefix H) (prefixed L ((event.posting acct).keyPrefix H)) := by
  obtain ⟨M, rs, -, hres, hvp, -⟩ := postForEvent_ok hinv h
  obtain ⟨rfl, hcs⟩ := resolveLines_seeded hseed hres
  have hseq := hinv.sequenced _ _ _ _ hvp
  rwa [keyPrefix_posting hextra hcs] at hseq

/-- Among the posted rows, the one a posting returned is the one filed under its content. -/
theorem posted_id_iff {e x : GlJournalEntry} (hinv : JournalInv H L) (hseed : Seeded L event.companyId acct)
    (hextra : event.extraContent = []) (h : postForEvent H event false L = .ok e L') (hx : x ∈ L.entries)
    (hxp : x.status = .posted) : x.id = e.id ↔ filedUnder H acct L event x = true := by
  have hseq := post_sequenced hinv hseed hextra h
  unfold filedUnder
  rw [decide_eq_true_iff]
  cases post_posted hinv hseed hextra h with
  | replayed mem posted company =>
    constructor
    · intro hid
      rw [hinv.eq_of_id hx (mem_prefixed.mp mem).1 hid]
      exact mem
    · intro hin
      rw [hseq.posted_eq hin mem hxp posted]
  | inserted dead allowed =>
    constructor
    · intro hid
      have hlt := hinv.id_lt x hx
      exact absurd hid (Nat.ne_of_lt hlt)
    · intro hin
      rw [dead x hin] at hxp
      cases hxp

/-- After a posting, the rows a query finds beside the posted one are the stale ones there were. -/
theorem stale_after_post {e : GlJournalEntry} (company : ℕ) (st sid ev : Text) (hinv : JournalInv H L)
    (hseed : Seeded L event.companyId acct) (hextra : event.extraContent = [])
    (h : postForEvent H event false L = .ok e L') :
    (liveLike L' company st sid ev).filter (fun l => (some e).all (l.id != ·.id)) =
      (liveLike L company st sid ev).filter (fun l => !filedUnder H acct L event l) := by
  have hold : ∀ l ∈ liveLike L company st sid ev,
      (some e).all (l.id != ·.id) = !filedUnder H acct L event l := by
    intro l hl
    simp only [liveLike, List.mem_filter, Bool.and_eq_true, isPosted_iff] at hl
    have hiff := posted_id_iff hinv hseed hextra h hl.1 hl.2.1.2
    rw [Option.all_some, Bool.eq_iff_iff, bne_iff_ne, Bool.not_eq_true', ne_eq, hiff, Bool.not_eq_true]
  have hsame : (liveLike L company st sid ev).filter (fun l => (some e).all (l.id != ·.id)) =
      (liveLike L company st sid ev).filter (fun l => !filedUnder H acct L event l) := List.filter_congr hold
  cases post_posted hinv hseed hextra h with
  | replayed => exact hsame
  | inserted dead allowed =>
    rw [← hsame]
    simp only [liveLike, Ledger.insertRow, List.filter_append]
    refine List.append_right_eq_self.mpr (List.filter_eq_nil_iff.mpr fun x hx => ?_)
    rw [List.mem_singleton.mp (List.mem_of_mem_filter hx)]
    simp

/-- The writes of "post the content, then reverse the event's other live entries". -/
def settleWrites (H : ContentHash) (acct : Role → ℕ) (L : Ledger) (event : PostingEvent) : List ℤ :=
  postWrite H acct L event ++
    dates ((liveLike L event.companyId event.sourceType event.sourceId event.event).filter
      fun e => !filedUnder H acct L event e)

theorem mem_liveLike_posted {st sid ev : Text} {e : GlJournalEntry} (h : e ∈ liveLike L company st sid ev) :
    e ∈ L.entries ∧ e.status = .posted ∧ e.companyId = company ∧ e.sourceType = st ∧ e.sourceId = sid := by
  simp only [liveLike, List.mem_filter, Bool.and_eq_true, isPosted_iff, beq_iff_eq, hasSource_iff] at h
  exact ⟨h.1, h.2.1.2, h.2.1.1.1, h.2.1.1.2.1, h.2.1.1.2.2⟩

theorem nodup_ids_of_sublist {es : List GlJournalEntry} (hinv : JournalInv H L) (h : es.Sublist L.entries) :
    (es.map (·.id)).Nodup := hinv.id_nodup.sublist (h.map _)

/-- Reversing what a query of one source found. -/
theorem reverseLives_acts {st sid ev : Text} {q : GlJournalEntry → Bool} (hinv : JournalInv H L) (hP : P st sid) :
    Acts H P company (each (reverseSettled actor none) ((liveLike L company st sid ev).filter q)) L
      (dates ((liveLike L company st sid ev).filter q)) := by
  refine reverseEach_acts _ hinv ?_ (nodup_ids_of_sublist hinv (List.filter_sublist.trans (liveLike_sublist ..)))
  intro e he
  obtain ⟨hmem, hp, hc, hst, hsid⟩ := mem_liveLike_posted (List.mem_of_mem_filter he)
  exact ⟨hmem, hp, hc, by rw [hst, hsid]; exact hP⟩

/-- Post and reverse the rest, as one rule. -/
theorem settle_acts (event : PostingEvent) (actor : Option Text) (hinv : JournalInv H L)
    (hseed : Seeded L event.companyId acct)
    (hextra : event.extraContent = []) (hP : P event.sourceType event.sourceId) :
    Acts H P event.companyId (do
      let posted ← postForEvent H event false
      let L ← get
      reverseAllBut (some posted) actor none
        (liveLike L event.companyId event.sourceType event.sourceId event.event)) L
      (settleWrites H acct L event) := by
  refine Acts.bind (post_acts hinv hseed hextra hP) fun e M hpost => ?_
  have hinvM := postForEvent_inv hinv hpost
  have hstale := stale_after_post event.companyId event.sourceType event.sourceId event.event hinv hseed hextra
    hpost
  rw [← hstale]
  exact (reverseLives_acts hinvM hP).congr rfl

/-- The writes of "post the content and reverse the one live entry, if it is another". -/
def repostWrites (H : ContentHash) (acct : Role → ℕ) (L : Ledger) (event : PostingEvent)
    (live : GlJournalEntry) : List ℤ :=
  if filedUnder H acct L event live then [] else postWrite H acct L event ++ [live.effectiveAt]

theorem repostOver_acts {live : GlJournalEntry} (hinv : JournalInv H L) (hseed : Seeded L event.companyId acct)
    (hextra : event.extraContent = []) (hP : P event.sourceType event.sourceId) (hlive : live ∈ L.entries)
    (hp : live.status = .posted) (hc : live.companyId = event.companyId)
    (hPlive : P live.sourceType live.sourceId) :
    Acts H P event.companyId (repostOver H event live actor) L (repostWrites H acct L event live) := by
  unfold repostOver repostWrites
  by_cases hfiled : filedUnder H acct L event live = true
  · rw [if_pos hfiled]
    have hnone : postWrite H acct L event = [] := by
      unfold postWrite
      rw [if_pos]
      refine List.any_eq_true.mpr ⟨live, by simpa [filedUnder] using hfiled, ?_⟩
      simp [hp, hc]
    have hpost := post_acts (P := P) hinv hseed hextra hP
    rw [hnone] at hpost
    refine Acts.bind hpost fun e M hok => ?_
    have hid := (posted_id_iff hinv hseed hextra hok hlive hp).mpr hfiled
    simp only [hid, ne_eq, not_true_eq_false, if_false]
    exact .pure (postForEvent_inv hinv hok) _
  · rw [if_neg hfiled]
    refine Acts.bind (post_acts hinv hseed hextra hP) fun e M hok => ?_
    have hne : e.id ≠ live.id := fun hid =>
      hfiled ((posted_id_iff hinv hseed hextra hok hlive hp).mp hid.symm)
    simp only [hne, ne_eq, not_false_eq_true, if_true]
    have hinM : live ∈ M.entries := by
      cases post_posted hinv hseed hextra hok with
      | replayed => exact hlive
      | inserted => exact List.mem_append_left _ hlive
    have hinvM := postForEvent_inv hinv hok
    exact (reverse_acts hinvM hinM hp hc hPlive).bind fun r N hr =>
      .pure (reverseEntry_inv hinvM hr) _

end Post

theorem reverseLive_acts {live : Option GlJournalEntry} (hinv : JournalInv H L)
    (hlive : ∀ e ∈ live, e ∈ L.entries ∧ e.status = .posted ∧ e.companyId = company ∧ P e.sourceType e.sourceId) :
    Acts H P company (reverseLive live actor) L (dates live.toList) := by
  cases live with
  | none => exact .pure hinv ()
  | some e =>
    obtain ⟨hmem, hp, hc, hP⟩ := hlive e rfl
    exact (reverse_acts hinv hmem hp hc hP).bind fun r M hr => .pure (reverseEntry_inv hinv hr) _

/-! ### One source at a time -/

/-- The rows of one source. -/
def oneSource (st sid : Text) (st' sid' : Text) : Bool := st' == st && sid' == sid

/-- A row filed under a prefix of the source is a row of the source. -/
theorem source_of_prefixed {st sid ev hash : Text} (hs : PlainSource st sid)
    (hinv : JournalInv H L) {e : GlJournalEntry} (he : e ∈ prefixed L (joinPrefix st sid ev hash)) :
    e.sourceType = st ∧ e.sourceId = sid ∧
      sepCons ':' st (sepCons ':' sid (sepCons ':' ev [])) <+: e.idempotencyKey := by
  obtain ⟨hmem, hpre⟩ := mem_prefixed.mp he
  have hshort : sepCons ':' st (sepCons ':' sid (sepCons ':' ev [])) <+: e.idempotencyKey := by
    refine List.IsPrefix.trans ⟨hash ++ [':'], ?_⟩ hpre
    simp [joinPrefix, sepCons, List.append_assoc]
  rcases hinv.shaped e hmem with ⟨ev', n, extra, hshape⟩ | ⟨o, -, -, hm⟩
  · have hkey := hshort
    rw [hshape.key, idempotencyKey_joinPrefix,
      sepCons_prefix_iff hs.type_colon hshape.valid.sourceType_valid.2,
      sepCons_prefix_iff hs.id_colon hshape.valid.sourceId_valid.2] at hkey
    exact ⟨hkey.1.symm, hkey.2.1.symm, hshort⟩
  · rw [hm.key, reversalKey, sepCons_prefix_iff hs.type_colon (by decide)] at hshort
    exact absurd hshort.1 hs.not_reversal

theorem prefixed_eq_sourced {st sid ev hash : Text} (hs : PlainSource st sid)
    (hinv : JournalInv H L) : prefixed L (joinPrefix st sid ev hash) =
      (L.sourced (oneSource st sid)).filter
        fun e => decide (joinPrefix st sid ev hash ++ [':'] <+: e.idempotencyKey) := by
  unfold Ledger.sourced
  rw [List.filter_filter, prefixed]
  refine List.filter_congr fun e he => ?_
  by_cases hpre : joinPrefix st sid ev hash ++ [':'] <+: e.idempotencyKey
  · obtain ⟨h1, h2, -⟩ := source_of_prefixed hs hinv (mem_prefixed.mpr ⟨he, hpre⟩)
    simp [hpre, oneSource, h1, h2]
  · simp [hpre]

section Congr
variable {st sid ev : Text}

/-- What the rules read of one source is decided by the rows of that source. -/
theorem liveLike_congr (h : M.sourced (oneSource st sid) = L.sourced (oneSource st sid)) :
    liveLike M company st sid ev = liveLike L company st sid ev := by
  have hsplit : ∀ N : Ledger, liveLike N company st sid ev = (N.sourced (oneSource st sid)).filter
      fun e => e.companyId == company && e.isPosted && like (eventPattern st sid ev) e.idempotencyKey := by
    intro N
    unfold liveLike Ledger.sourced
    rw [List.filter_filter]
    refine List.filter_congr fun e _ => ?_
    rw [Bool.eq_iff_iff]
    simp only [oneSource, GlJournalEntry.hasSource, Bool.and_eq_true]
    tauto
  rw [hsplit, hsplit, h]

theorem liveEventEntry_congr (h : M.sourced (oneSource st sid) = L.sourced (oneSource st sid)) :
    liveEventEntry M st sid ev = liveEventEntry L st sid ev := by
  have hsplit : ∀ N : Ledger, liveEventEntry N st sid ev = (N.sourced (oneSource st sid)).find?
      fun e => e.isPosted && likeEscapedPrefix (sepCons ':' st (sepCons ':' sid (sepCons ':' ev []))) e.idempotencyKey := by
    intro N
    unfold liveEventEntry Ledger.sourced
    rw [List.find?_filter]
    congr 1
    funext e
    rw [Bool.eq_iff_iff]
    simp only [oneSource, GlJournalEntry.hasSource, Bool.and_eq_true, decide_eq_true_eq]
    tauto
  rw [hsplit, hsplit, h]

variable {event : PostingEvent}

theorem prefixed_posting_congr (hs : PlainSource event.sourceType event.sourceId)
    (hL : JournalInv H L) (hM : JournalInv H M)
    (h : M.sourced (oneSource event.sourceType event.sourceId) =
      L.sourced (oneSource event.sourceType event.sourceId)) :
    prefixed M ((event.posting acct).keyPrefix H) = prefixed L ((event.posting acct).keyPrefix H) := by
  have hkey : (event.posting acct).keyPrefix H = joinPrefix event.sourceType event.sourceId event.event
    (H.digest ⟨(event.posting acct).effectiveAt, (event.posting acct).lines, []⟩) := rfl
  rw [hkey, prefixed_eq_sourced hs hM, prefixed_eq_sourced hs hL, h]

theorem postWrite_congr (hs : PlainSource event.sourceType event.sourceId)
    (hL : JournalInv H L) (hM : JournalInv H M)
    (h : M.sourced (oneSource event.sourceType event.sourceId) =
      L.sourced (oneSource event.sourceType event.sourceId)) :
    postWrite H acct M event = postWrite H acct L event := by
  unfold postWrite
  rw [prefixed_posting_congr hs hL hM h]

theorem settleWrites_congr (hs : PlainSource event.sourceType event.sourceId)
    (hL : JournalInv H L) (hM : JournalInv H M)
    (h : M.sourced (oneSource event.sourceType event.sourceId) =
      L.sourced (oneSource event.sourceType event.sourceId)) :
    settleWrites H acct M event = settleWrites H acct L event := by
  unfold settleWrites filedUnder
  rw [postWrite_congr hs hL hM h, liveLike_congr h, prefixed_posting_congr hs hL hM h]

theorem repostWrites_congr {live : GlJournalEntry} (hs : PlainSource event.sourceType event.sourceId)
    (hL : JournalInv H L) (hM : JournalInv H M)
    (h : M.sourced (oneSource event.sourceType event.sourceId) =
      L.sourced (oneSource event.sourceType event.sourceId)) :
    repostWrites H acct M event live = repostWrites H acct L event live := by
  unfold repostWrites filedUnder
  rw [postWrite_congr hs hL hM h, prefixed_posting_congr hs hL hM h]

/-- A one-shot event that is not live is written at its date. -/
theorem postWrite_of_not_live (hs : PlainSource event.sourceType event.sourceId)
    (hinv : JournalInv H L) (hnone : (liveEventEntry L event.sourceType event.sourceId event.event).isSome = false) :
    postWrite H acct L event = [event.effectiveAt] := by
  unfold postWrite
  rw [if_neg]
  intro hany
  obtain ⟨e, he, hp⟩ := List.any_eq_true.mp hany
  simp only [Bool.and_eq_true] at hp
  obtain ⟨h1, h2, hpre⟩ := source_of_prefixed hs hinv he
  rw [Option.isSome_eq_false_iff, Option.isNone_iff_eq_none, liveEventEntry, List.find?_eq_none] at hnone
  refine hnone e (mem_prefixed.mp he).1 ?_
  simp only [Bool.and_eq_true, hasSource_iff]
  exact ⟨⟨⟨h1, h2⟩, hp.1⟩, (likeEscapedPrefix_iff _ _).mpr hpre⟩

end Congr

/-- One posting, its entry dropped. -/
theorem postOnly_acts (event : PostingEvent) (hinv : JournalInv H L) (hseed : Seeded L event.companyId acct)
    (hextra : event.extraContent = []) (hP : P event.sourceType event.sourceId) :
    Acts H P event.companyId (do let _ ← postForEvent H event false) L (postWrite H acct L event) :=
  ((post_acts hinv hseed hextra hP).bind fun _ _ h => .pure (postForEvent_inv hinv h) _).of_eq
    (List.append_nil _)

end Gdx
