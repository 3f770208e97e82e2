import GdxDispatch.Ledger.ReplayAtomic
import GdxDispatch.Ledger.SameContent

/-! Writes with a fallback day.

    A write the lock refuses is retried at the fallback day, every other one keeps its own. Whatever the day, a posting
    moves its own source and a reversal that of its entry, and the journal only grows. After a posting and the reversal
    of the event's other live entries, the posted entry is the one live entry of the event. -/

namespace Gdx

open Lib

variable {H : ContentHash} {clock : ShopClock} {R : Rows} {acct : Role → ℕ} {P P' : Text → Text → Prop}
  {L L' M N : Ledger} {company : ℕ} {actor : Option Text} {fallback : Option ℤ} {event : PostingEvent}
  {e r : GlJournalEntry}

/-- Nothing moved but entries of the sources in `P`, and none went away. -/
structure Advances (H : ContentHash) (P : Text → Text → Prop) (L L' : Ledger) : Prop where
  within : Within H P L L'
  grown : L.entries.length ≤ L'.entries.length

theorem Advances.refl (hinv : JournalInv H L) : Advances H P L L := ⟨.refl hinv, le_rfl⟩

theorem Advances.trans (h : Advances H P L M) (h' : Advances H P M L') : Advances H P L L' :=
  ⟨h.within.trans h'.within, h.grown.trans h'.grown⟩

theorem Advances.mono (h : Advances H P L L') (hP : ∀ st sid, P st sid → P' st sid) : Advances H P' L L' :=
  ⟨h.within.mono hP, h.grown⟩

theorem Advances.inv (h : Advances H P L L') : JournalInv H L' := h.within.inv

theorem Advances.seeded (h : Advances H P L L') (hs : Seeded L company acct) : Seeded L' company acct :=
  hs.congr h.within.accounts

/-! ### One posting, one reversal -/

theorem post_advances (hinv : JournalInv H L) (hseed : Seeded L event.companyId acct) (hextra : event.extraContent = [])
    (hP : P event.sourceType event.sourceId) (h : postForEvent H event false L = .ok e L') : Advances H P L L' := by
  have hwithin := post_within hinv hseed hextra hP
  rw [after_ok h] at hwithin
  refine ⟨hwithin, ?_⟩
  cases post_posted hinv hseed hextra h with
  | replayed => exact le_rfl
  | inserted => simp [Ledger.insertRow]

/-- A query for live rows that no reversal key answers. -/
structure LiveQuery (q : GlJournalEntry → Bool) : Prop where
  live : ∀ x, q x = true → x.status = .posted
  event : ∀ x id, x.idempotencyKey = reversalKey id → q x = false

/-- A reversal takes its entry out of every such query, and nothing else. -/
theorem query_reverse {at' : Option ℤ} {q : GlJournalEntry → Bool} (hq : LiveQuery q) (hinv : JournalInv H L)
    (he : e ∈ L.entries) (hp : e.status = .posted) (h : reverseEntry e.id at' actor false L = .ok r L') :
    L'.entries.filter q = (L.entries.filter q).filter fun x => x.id != e.id := by
  rw [reverse_at hinv he hp h]
  simp only [Ledger.markReversed, Ledger.insertRow, List.map_append, List.filter_append, List.map_singleton]
  have hnew : ([if (e.reversal L (at'.getD e.effectiveAt) actor).id = e.id
      then (e.reversal L (at'.getD e.effectiveAt) actor).marked L.nextId
      else e.reversal L (at'.getD e.effectiveAt) actor]).filter q = [] := by
    rw [List.filter_cons_of_neg, List.filter_nil]
    refine Bool.eq_false_iff.mp (hq.event _ e.id ?_)
    split_ifs <;> rfl
  rw [hnew, List.append_nil]
  have hmarked : ∀ x : GlJournalEntry, q (x.marked L.nextId) = false := by
    intro x
    rw [Bool.eq_false_iff]
    intro hx
    cases hq.live _ hx
  induction L.entries with
  | nil => rfl
  | cons x xs ih =>
    rw [List.map_cons, List.filter_cons, List.filter_cons (x := x), ih]
    by_cases hid : x.id = e.id
    · rw [if_pos hid, hmarked, if_neg Bool.false_ne_true]
      split
      · rw [List.filter_cons_of_neg (by simpa using hid)]
      · rfl
    · rw [if_neg hid]
      split
      · rw [List.filter_cons_of_pos (by simpa using hid)]
      · rfl

theorem mem_of_reversed_at {at' : Option ℤ} {x : GlJournalEntry} (hinv : JournalInv H L) (he : e ∈ L.entries)
    (hp : e.status = .posted) (h : reverseEntry e.id at' actor false L = .ok r L') (hx : x ∈ L.entries)
    (hne : x.id ≠ e.id) : x ∈ L'.entries := by
  rw [reverse_at hinv he hp h]
  exact mem_mirrored.mpr (.inl ⟨x, hx, by rw [if_neg hne]⟩)

theorem reverse_advances {at' : Option ℤ} (hinv : JournalInv H L) (he : e ∈ L.entries) (hp : e.status = .posted)
    (hP : P e.sourceType e.sourceId) (h : reverseEntry e.id at' actor false L = .ok r L') : Advances H P L L' := by
  refine ⟨reverse_leaves hinv he hp hP h, ?_⟩
  rw [reverse_at hinv he hp h]
  simp [Ledger.markReversed, Ledger.insertRow]

/-! ### Reversing what a query found -/

/-- With a fallback or not, a reversal that returns is a reversal at some day. -/
theorem reverseSettled_ok (hinv : JournalInv H L) (h : reverseSettled actor fallback e L = .ok () L') :
    ∃ at' r, reverseEntry e.id at' actor false L = .ok r L' := by
  unfold reverseSettled at h
  rw [bind_ok] at h
  obtain ⟨r, M, hrev, hM⟩ := h
  cases hM
  unfold withFallback at hrev
  cases hnatural : reverseEntry e.id none actor false L with
  | ok r' L₁ =>
    rw [hnatural] at hrev
    cases hrev
    exact ⟨none, r, hnatural⟩
  | error err L₁ =>
    obtain rfl := reverseEntry_error hinv hnatural
    rw [hnatural] at hrev
    cases err with
    | periodLocked lockDate effectiveAt =>
      cases fallback with
      | none => cases hrev
      | some day => exact ⟨some day, r, hrev⟩
    | _ => cases hrev

theorem reverseEach_advances {q : GlJournalEntry → Bool} (hq : LiveQuery q) {es : List GlJournalEntry}
    (hinv : JournalInv H L) (hes : ∀ x ∈ es, x ∈ L.entries ∧ x.status = .posted ∧ P x.sourceType x.sourceId)
    (hnd : (es.map (·.id)).Nodup) (h : each (reverseSettled actor fallback) es L = .ok () L') :
    Advances H P L L' ∧ L'.entries.filter q = (L.entries.filter q).filter (fun x => es.all fun y => x.id != y.id) ∧
      ∀ x ∈ L.entries, (∀ y ∈ es, x.id ≠ y.id) → x ∈ L'.entries := by
  induction es generalizing L with
  | nil =>
    cases h
    exact ⟨.refl hinv, by simp, fun x hx _ => hx⟩
  | cons y es ih =>
    obtain ⟨hmem, hp, hP⟩ := hes y List.mem_cons_self
    rw [each, bind_ok] at h
    obtain ⟨⟨⟩, M, hM, h⟩ := h
    obtain ⟨at', r, hrev⟩ := reverseSettled_ok hinv hM
    rw [List.map_cons, List.nodup_cons] at hnd
    have hadv := reverse_advances hinv hmem hp hP hrev
    have hrest : ∀ x ∈ es, x ∈ M.entries ∧ x.status = .posted ∧ P x.sourceType x.sourceId := by
      intro x hx
      obtain ⟨hxm, hxp, hxP⟩ := hes x (List.mem_cons_of_mem _ hx)
      refine ⟨mem_of_reversed_at hinv hmem hp hrev hxm fun hid => hnd.1 ?_, hxp, hxP⟩
      rw [← hid]
      exact List.mem_map_of_mem hx
    obtain ⟨hadv', hquery, hkept⟩ := ih hadv.inv hrest hnd.2 h
    refine ⟨hadv.trans hadv', ?_, fun x hx hne => ?_⟩
    · rw [hquery, query_reverse hq hinv hmem hp hrev, List.filter_filter]
      refine List.filter_congr fun x _ => ?_
      rw [List.all_cons, Bool.and_comm]
    · exact hkept x (mem_of_reversed_at hinv hmem hp hrev hx (hne y List.mem_cons_self))
        fun z hz => hne z (List.mem_cons_of_mem _ hz)

/-- The query of one source and event. -/
def likeQuery (company : ℕ) (st sid ev : Text) (e : GlJournalEntry) : Bool :=
  e.companyId == company && e.hasSource st sid && e.isPosted && like (eventPattern st sid ev) e.idempotencyKey

theorem likeQuery_live {st sid ev : Text} (hs : PlainSource st sid) : LiveQuery (likeQuery company st sid ev) where
  live := by
    intro x hx
    simp only [likeQuery, Bool.and_eq_true, isPosted_iff] at hx
    exact hx.1.2
  event := by
    intro x id hx
    rw [likeQuery, hx, not_like_reversalKey hs, Bool.and_false]

/-- Reversing all that a query found but one leaves that one, if it was found. -/
theorem reverseAllBut_advances {st sid ev : Text} {kept : Option GlJournalEntry} (hs : PlainSource st sid)
    (hinv : JournalInv H L) (hP : P st sid)
    (h : reverseAllBut kept actor fallback (liveLike L company st sid ev) L = .ok () L') :
    Advances H P L L' ∧ liveLike L' company st sid ev =
        (liveLike L company st sid ev).filter (fun x => kept.any (x.id == ·.id)) ∧
      (∀ k ∈ kept, k ∈ L.entries → k ∈ L'.entries) ∧
      ∀ q, LiveQuery q → (∀ x ∈ liveLike L company st sid ev, q x = false) →
        L'.entries.filter q = L.entries.filter q := by
  unfold reverseAllBut at h
  have hes : ∀ x ∈ (liveLike L company st sid ev).filter (fun live => kept.all (live.id != ·.id)),
      x ∈ L.entries ∧ x.status = .posted ∧ P x.sourceType x.sourceId := by
    intro x hx
    obtain ⟨hmem, hp, -, hst, hsid⟩ := mem_liveLike_posted (List.mem_of_mem_filter hx)
    exact ⟨hmem, hp, by rw [hst, hsid]; exact hP⟩
  have hnd : (((liveLike L company st sid ev).filter fun live => kept.all (live.id != ·.id)).map GlJournalEntry.id).Nodup :=
    nodup_ids_of_sublist hinv (List.filter_sublist.trans (liveLike_sublist L company st sid ev))
  obtain ⟨hadv, hquery, hkeep⟩ := reverseEach_advances (likeQuery_live hs) hinv hes hnd h
  refine ⟨hadv, ?_, fun k hk hmem => hkeep k hmem ?_, fun q hq hnone => ?_⟩
  · refine (show liveLike L' company st sid ev = _ from hquery).trans (List.filter_congr fun x hx => ?_)
    have hx : x ∈ liveLike L company st sid ev := hx
    rw [Bool.eq_iff_iff, List.all_eq_true]
    constructor
    · intro hall
      by_contra hno
      have hin : x ∈ (liveLike L company st sid ev).filter fun live => kept.all (live.id != ·.id) := by
        refine List.mem_filter.mpr ⟨hx, ?_⟩
        cases kept with
        | none => rfl
        | some k => simpa using hno
      exact absurd rfl (bne_iff_ne.mp (hall x hin))
    · intro hany y hy
      obtain ⟨-, hyk⟩ := List.mem_filter.mp hy
      cases kept with
      | none => cases hany
      | some k =>
        simp only [Option.any_some, beq_iff_eq, Option.all_some, bne_iff_ne, ne_eq] at hany hyk ⊢
        rw [hany]
        exact fun hid => hyk hid.symm
  · intro y hy hid
    have hyk := (List.mem_filter.mp hy).2
    rw [Option.mem_def.mp hk, Option.all_some, bne_iff_ne] at hyk
    exact hyk hid.symm
  · obtain ⟨-, hq', -⟩ := reverseEach_advances hq hinv hes hnd h
    rw [hq', List.filter_eq_self]
    intro x hx
    rw [List.all_eq_true]
    intro y hy
    rw [bne_iff_ne]
    intro hid
    have hyL := (hes y hy).1
    have hxy := hinv.eq_of_id (List.mem_of_mem_filter hx) hyL hid
    have hqx := (List.mem_filter.mp hx).2
    rw [hxy, hnone y (List.mem_of_mem_filter hy)] at hqx
    cases hqx

/-! ### Content that is live, content that is refused -/

/-- The entry is live under the content of the event. -/
structure LiveUnder (H : ContentHash) (acct : Role → ℕ) (L : Ledger) (event : PostingEvent) (e : GlJournalEntry) :
    Prop where
  filed : e ∈ prefixed L ((event.posting acct).keyPrefix H)
  posted : e.status = .posted
  company_eq : e.companyId = event.companyId

theorem LiveUnder.of_mem (h : LiveUnder H acct L event e) (hmem : e ∈ M.entries) : LiveUnder H acct M event e :=
  ⟨mem_prefixed.mpr ⟨hmem, (mem_prefixed.mp h.filed).2⟩, h.posted, h.company_eq⟩

theorem post_liveUnder (hinv : JournalInv H L) (hseed : Seeded L event.companyId acct)
    (hextra : event.extraContent = []) (h : postForEvent H event false L = .ok e L') :
    LiveUnder H acct L' event e := by
  cases post_posted hinv hseed hextra h with
  | replayed mem posted company => exact ⟨mem, posted, company⟩
  | inserted => exact ⟨mem_prefixed.mpr ⟨by simp [Ledger.insertRow], prefix_idempotencyKey _ _⟩, rfl, rfl⟩

/-- An event of role legs that the engine accepts. -/
structure RoleEvent (H : ContentHash) (event : PostingEvent) : Prop where
  extra : event.extraContent = []
  valid : validateBalance event.lines = .ok ()
  roles : ∀ line ∈ event.lines, ∃ role, line.role = some role ∧ line.accountId = none
  named : ∀ c, ValidPrefix event.sourceType event.sourceId event.event (H.digest c)

theorem RoleEvent.resolves (h : RoleEvent H event) (hseed : Seeded L event.companyId acct) :
    ∃ rs, resolveLines event.companyId event.lines L = .ok rs L := by
  refine resolveLines_placed hseed fun line hline => ?_
  obtain ⟨role, hrole, hnone⟩ := h.roles line hline
  exact .role role hrole hnone

theorem post_named (hinv : JournalInv H L) (h : postForEvent H event false L = .ok e L') (c : Content) :
    ValidPrefix event.sourceType event.sourceId event.event (H.digest c) := by
  obtain ⟨_, _, -, -, hvalid, -⟩ := postForEvent_ok hinv h
  exact ⟨hvalid.sourceType_valid, hvalid.not_reversal, hvalid.sourceId_valid, hvalid.event_valid, H.no_colon c⟩

/-- A posting that went through shows that its event is accepted. -/
theorem RoleEvent.of_post (hinv : JournalInv H L) (hextra : event.extraContent = [])
    (hroles : ∀ line ∈ event.lines, ∃ role, line.role = some role ∧ line.accountId = none)
    (h : postForEvent H event false L = .ok e L') : RoleEvent H event := by
  obtain ⟨_, _, hvalid, -⟩ := postForEvent_ok hinv h
  exact ⟨hextra, hvalid, hroles, post_named hinv h⟩

/-- Live content is returned, locked or not. -/
theorem RoleEvent.replays (h : RoleEvent H event) (hinv : JournalInv H L) (hseed : Seeded L event.companyId acct)
    (hlive : LiveUnder H acct L event e) : postForEvent H event false L = .ok e L := by
  obtain ⟨rs, hrs⟩ := h.resolves hseed
  exact post_replays hinv hseed h.extra h.valid hrs (h.named _) hlive.filed hlive.posted hlive.company_eq

/-- The lock refuses the event's date, and its content is not live. -/
structure RefusedAt (H : ContentHash) (acct : Role → ℕ) (L : Ledger) (event : PostingEvent) : Prop where
  dead : postWrite H acct L event ≠ []
  locked : ∃ d, L.latestLock event.companyId = some d ∧ event.effectiveAt ≤ d

theorem LiveUnder.not_dead (h : LiveUnder H acct L event e) : postWrite H acct L event = [] := by
  unfold postWrite
  rw [if_pos]
  refine List.any_eq_true.mpr ⟨e, h.filed, ?_⟩
  rw [Bool.and_eq_true, isPosted_iff, beq_iff_eq]
  exact ⟨h.posted, h.company_eq⟩

/-- A key under a content shows its source and its event. -/
theorem prefixed_event {event : PostingEvent} (h : e ∈ prefixed L ((event.posting acct).keyPrefix H)) :
    sepCons ':' event.sourceType (sepCons ':' event.sourceId (sepCons ':' event.event [])) <+: e.idempotencyKey := by
  refine List.IsPrefix.trans ⟨H.digest ⟨event.effectiveAt, event.lines.map (·.content acct), []⟩ ++ [':'], ?_⟩
    (mem_prefixed.mp h).2
  simp [Posting.keyPrefix, PostingEvent.posting, joinPrefix, sepCons, List.append_assoc]

/-- A query that its event's keys do not answer is blind to a posting. -/
theorem query_post {q : GlJournalEntry → Bool} (hinv : JournalInv H L) (hseed : Seeded L event.companyId acct)
    (hextra : event.extraContent = []) (h : postForEvent H event false L = .ok e L')
    (hq : ∀ x, sepCons ':' event.sourceType (sepCons ':' event.sourceId (sepCons ':' event.event [])) <+:
      x.idempotencyKey → q x = false) : L'.entries.filter q = L.entries.filter q := by
  have hlive := post_liveUnder hinv hseed hextra h
  have hblind := hq e (prefixed_event hlive.filed)
  cases post_posted hinv hseed hextra h with
  | replayed => rfl
  | inserted dead allowed =>
    rw [Ledger.insertRow, List.filter_append, List.filter_cons_of_neg (Bool.eq_false_iff.mp hblind), List.filter_nil,
      List.append_nil]

/-- What is live of an event the one-shot guard finds. -/
theorem LiveUnder.found (hs : PlainSource event.sourceType event.sourceId) (hinv : JournalInv H L)
    (h : LiveUnder H acct L event e) :
    (liveEventEntry L event.sourceType event.sourceId event.event).isSome = true := by
  by_contra hnone
  have hwrite : postWrite H acct L event = [event.effectiveAt] :=
    postWrite_of_not_live hs hinv (Bool.eq_false_iff.mpr hnone)
  rw [h.not_dead] at hwrite
  cases hwrite

/-- A key is filed under one content. -/
theorem LiveUnder.same_content {event' : PostingEvent} (hfree : H.CollisionFree) (h : LiveUnder H acct L event e)
    (h' : LiveUnder H acct L event' e) (hst : event'.sourceType = event.sourceType)
    (hsid : event'.sourceId = event.sourceId) (hev : event'.event = event.event) :
    event'.effectiveAt = event.effectiveAt := by
  obtain ⟨t, ht⟩ := (mem_prefixed.mp h.filed).2
  obtain ⟨t', ht'⟩ := (mem_prefixed.mp h'.filed).2
  rw [← ht'] at ht
  simp only [Posting.keyPrefix, PostingEvent.posting, joinPrefix, sepCons, hst, hsid, hev, List.append_assoc,
    List.cons_append, List.append_cancel_left_eq, List.cons.injEq, true_and, List.nil_append] at ht
  obtain ⟨hdigest, -⟩ := sepCons_inj (H.no_colon _) (H.no_colon _) ht
  exact (congrArg Content.effectiveAt (hfree _ _ rfl rfl hdigest)).symm

theorem exists_liveUnder (h : postWrite H acct L event = []) : ∃ e, LiveUnder H acct L event e := by
  unfold postWrite at h
  split at h
  · rename_i hany
    obtain ⟨e, he, hlive⟩ := List.any_eq_true.mp hany
    rw [Bool.and_eq_true, isPosted_iff, beq_iff_eq] at hlive
    exact ⟨e, he, hlive.1, hlive.2⟩
  · cases h

/-- A refused posting raises and writes nothing. -/
theorem RoleEvent.refused (h : RoleEvent H event) (hseed : Seeded L event.companyId acct)
    (hrefused : RefusedAt H acct L event) :
    ∃ d, postForEvent H event false L = .error (.periodLocked d event.effectiveAt) L := by
  obtain ⟨rs, hrs⟩ := h.resolves hseed
  obtain ⟨d, hd, hle⟩ := hrefused.locked
  obtain ⟨-, hcontent⟩ := resolveLines_seeded hseed hrs
  have hkey : keyPrefix event.sourceType event.sourceId event.event
      (H.digest (contentOf event.effectiveAt rs event.extraContent)) = .ok ((event.posting acct).keyPrefix H) :=
    (keyPrefix_ok (H.no_colon _)).mpr ⟨h.named _, (keyPrefix_posting h.extra hcontent).symm⟩
  have hnone : (entryByKey L event.companyId (idempotencyKey ((event.posting acct).keyPrefix H)
      (computeSeq L event.companyId ((event.posting acct).keyPrefix H)))).filter (·.isPosted) = none := by
    rw [Option.filter_eq_none_iff]
    intro x hx hposted
    obtain ⟨hmem, hcompany, hxkey⟩ := entryByKey_some hx
    have hlive : LiveUnder H acct L event x :=
      ⟨mem_prefixed.mpr ⟨hmem, by rw [hxkey]; exact prefix_idempotencyKey _ _⟩, isPosted_iff.mp hposted, hcompany⟩
    exact hrefused.dead hlive.not_dead
  refine ⟨d, ?_⟩
  rw [postForEvent, bind_of_ok (raising_ok.mpr ⟨h.valid, rfl⟩), bind_of_ok hrs,
    bind_of_ok (raising_ok.mpr ⟨hkey, rfl⟩), MAX_KEY_ATTEMPTS]
  simp only [postAttempts, hnone, Bool.false_eq_true, if_false, checkPeriodLock, hd, not_lt.mpr hle,
    Bool.not_false, if_true]

/-! ### Post, then reverse the rest -/

/-- The one live entry of its event. -/
structure Alone (H : ContentHash) (acct : Role → ℕ) (L : Ledger) (event : PostingEvent) (e : GlJournalEntry) :
    Prop where
  live : LiveUnder H acct L event e
  only : ∀ x ∈ liveLike L event.companyId event.sourceType event.sourceId event.event, x.id = e.id

theorem settle_alone (hs : PlainSource event.sourceType event.sourceId) (hinv : JournalInv H L)
    (hseed : Seeded L event.companyId acct) (hextra : event.extraContent = [])
    (hP : P event.sourceType event.sourceId) (hpost : postForEvent H event false L = .ok e M)
    (h : reverseAllBut (some e) actor fallback
      (liveLike M event.companyId event.sourceType event.sourceId event.event) M = .ok () L') :
    Advances H P L L' ∧ Alone H acct L' event e := by
  have hadv := post_advances hinv hseed hextra hP hpost
  obtain ⟨hadv', hlike, hkept, -⟩ := reverseAllBut_advances hs hadv.inv hP h
  have hlive := post_liveUnder hinv hseed hextra hpost
  refine ⟨hadv.trans hadv', hlive.of_mem (hkept e rfl (mem_prefixed.mp hlive.filed).1), fun x hx => ?_⟩
  rw [hlike] at hx
  simpa using (List.mem_filter.mp hx).2

/-- Nothing is left to reverse. -/
theorem Alone.nothing_stale (h : Alone H acct L event e) :
    reverseAllBut (some e) actor fallback
      (liveLike L event.companyId event.sourceType event.sourceId event.event) L = .ok () L := by
  unfold reverseAllBut
  have hnil : (liveLike L event.companyId event.sourceType event.sourceId event.event).filter
      (fun live => (some e).all (live.id != ·.id)) = [] := by
    rw [List.filter_eq_nil_iff]
    intro x hx
    simp [h.only x hx]
  rw [hnil]
  rfl

/-- The rows of the source decide who is alone. -/
theorem Alone.congr (hs : PlainSource event.sourceType event.sourceId) (hL : JournalInv H L) (hM : JournalInv H M)
    (h : M.sourced (oneSource event.sourceType event.sourceId) =
      L.sourced (oneSource event.sourceType event.sourceId)) (ha : Alone H acct L event e) :
    Alone H acct M event e := by
  refine ⟨⟨?_, ha.live.posted, ha.live.company_eq⟩, ?_⟩
  · rw [prefixed_posting_congr hs hL hM h]
    exact ha.live.filed
  · rw [liveLike_congr h]
    exact ha.only

end Gdx
