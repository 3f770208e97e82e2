import GdxDispatch.Ledger.Live
import GdxDispatch.Ledger.Rules

/-! What the rules' queries read, in terms of the live book.

    The rules find their own entries by source and by a `LIKE` over the key. On a tracked ledger such
    a query returns the standing entries of one source and one event; an event name with an
    underscore in it is a wider pattern, and finds its own entries only because no other event of the
    same source matches it. -/

namespace Gdx
open Lib

/-- The live postings of one source. -/
def Ledger.liveOf (L : Ledger) (st sid : Text) : Finset Posting :=
  L.live.filter fun p => p.sourceType = st ∧ p.sourceId = sid

theorem mem_liveOf {L : Ledger} {st sid : Text} {p : Posting} :
    p ∈ L.liveOf st sid ↔ p ∈ L.live ∧ p.sourceType = st ∧ p.sourceId = sid := by
  simp [Ledger.liveOf]

/-- Components of a key that a pattern takes literally. -/
structure PlainSource (st sid : Text) : Prop where
  type_colon : ':' ∉ st
  id_colon : ':' ∉ sid
  type_plain : PatternPlain st
  id_plain : PatternPlain sid
  not_reversal : st ≠ "reversal".toList

theorem colon_notMem_str (id : ℕ) : ':' ∉ str id := colon_notMem_numeral id

theorem plainSource_invoice (id : ℕ) : PlainSource "invoice".toList (str id) :=
  ⟨by decide, colon_notMem_str id, by decide, patternPlain_numeral id, by decide⟩

theorem plainSource_payment (id : ℕ) : PlainSource "payment".toList (str id) :=
  ⟨by decide, colon_notMem_str id, by decide, patternPlain_numeral id, by decide⟩

theorem plainSource_adjustment (id : ℕ) : PlainSource "adjustment".toList (str id) :=
  ⟨by decide, colon_notMem_str id, by decide, patternPlain_numeral id, by decide⟩

theorem plainSource_expense (id : ℕ) : PlainSource "expense".toList (str id) :=
  ⟨by decide, colon_notMem_str id, by decide, patternPlain_numeral id, by decide⟩

/-- The pattern of an event over a key of the same source compares the rest of the key. -/
theorem like_eventPattern {st sid : Text} (hs : PlainSource st sid) (ev rest : Text) :
    like (eventPattern st sid ev) (sepCons ':' st (sepCons ':' sid rest)) =
      like (sepCons ':' ev ['%']) rest := by
  have hraw : PatternPlain (st ++ ':' :: (sid ++ [':'])) := by
    intro c hc
    simp only [List.mem_append, List.mem_cons, List.not_mem_nil, or_false] at hc
    rcases hc with hc | rfl | hc | rfl
    · exact hs.type_plain c hc
    · decide
    · exact hs.id_plain c hc
    · decide
  have hpat : eventPattern st sid ev = (st ++ ':' :: (sid ++ [':'])) ++ sepCons ':' ev ['%'] := by
    simp [eventPattern, sepCons, List.append_assoc]
  have hkey : sepCons ':' st (sepCons ':' sid rest) = (st ++ ':' :: (sid ++ [':'])) ++ rest := by
    simp [sepCons, List.append_assoc]
  rw [Bool.eq_iff_iff, hpat, like_plain_append hraw, hkey]
  constructor
  · rintro ⟨t, ht, hlike⟩
    rwa [List.append_cancel_left ht]
  · intro hlike
    exact ⟨rest, rfl, hlike⟩

/-- No event pattern matches a reversal key. -/
theorem not_like_reversalKey {st sid : Text} (hs : PlainSource st sid) (ev : Text) (id : ℕ) :
    like (eventPattern st sid ev) (reversalKey id) = false := by
  rw [Bool.eq_false_iff]
  intro hlike
  have hraw : PatternPlain (st ++ [':']) := by
    intro c hc
    rcases List.mem_append.mp hc with hc | hc
    · exact hs.type_plain c hc
    · rw [List.mem_singleton.mp hc]; decide
  have hpat : eventPattern st sid ev = (st ++ [':']) ++ sepCons ':' sid (sepCons ':' ev ['%']) := by
    simp [eventPattern, sepCons, List.append_assoc]
  rw [hpat, like_plain_append hraw] at hlike
  obtain ⟨t, ht, -⟩ := hlike
  have hsep : sepCons ':' "reversal".toList (str id) = sepCons ':' st t := by
    rw [← reversalKey, ht]; simp [sepCons, List.append_assoc]
  exact hs.not_reversal (sepCons_inj (by decide) hs.type_colon hsep).1.symm

/-- An event name the pattern takes literally finds the keys of that event. -/
theorem like_event_iff {ev ev' : Text} (hplain : PatternPlain ev) (hc : ':' ∉ ev) (hc' : ':' ∉ ev')
    (rest : Text) : like (sepCons ':' ev ['%']) (sepCons ':' ev' rest) = true ↔ ev' = ev := by
  have hraw : PatternPlain (ev ++ [':']) := by
    intro c hm
    rcases List.mem_append.mp hm with hm | hm
    · exact hplain c hm
    · rw [List.mem_singleton.mp hm]; decide
  have hpat : sepCons ':' ev ['%'] = (ev ++ [':']) ++ ['%'] := by simp [sepCons]
  have hpre : ev ++ [':'] = sepCons ':' ev [] := rfl
  rw [hpat, like_plain_prefix hraw, hpre, sepCons_prefix_iff hc hc']
  simp [eq_comm]

section Queries
variable {H : ContentHash} {S : Text → Text → Prop} {L : Ledger} {st sid : Text}

/-- The key of an entry that stands spells its source and its event. -/
theorem Tracked.key_eq (ht : Tracked H S L) {e : GlJournalEntry} (he : Stands L e)
    (hS : S e.sourceType e.sourceId) :
    ':' ∉ e.posting.event ∧ ∃ rest, e.idempotencyKey =
      sepCons ':' e.sourceType (sepCons ':' e.sourceId (sepCons ':' e.posting.event rest)) := by
  obtain ⟨n, hn⟩ := ht.plain e he.mem hS he.not_reversal
  refine ⟨hn.valid.event_valid.2, ?_⟩
  have hk := hn.key
  rw [idempotencyKey_joinPrefix] at hk
  exact ⟨_, hk⟩

/-- A key that starts with a source's text and a colon is no reversal key. -/
theorem Tracked.not_reversal (ht : Tracked H S L) {e : GlJournalEntry} (he : e ∈ L.entries)
    (hkey : ∀ id, e.idempotencyKey ≠ reversalKey id) : e.reversesEntryId = none := by
  rcases ht.inv.shaped e he with ⟨ev, n, extra, hshape⟩ | ⟨o, -, -, hm⟩
  · exact hshape.not_reversal
  · exact absurd hm.key (hkey o.id)

/-- What a `LIKE` query over one source and event returns. -/
theorem Tracked.mem_liveLike (ht : Tracked H S L) (hs : PlainSource st sid)
    {company : ℕ} {ev : Text} {e : GlJournalEntry} : e ∈ liveLike L company st sid ev ↔
      Stands L e ∧ e.companyId = company ∧ e.sourceType = st ∧ e.sourceId = sid ∧
        like (eventPattern st sid ev) e.idempotencyKey = true := by
  simp only [liveLike, List.mem_filter, Bool.and_eq_true, beq_iff_eq, hasSource_iff, isPosted_iff]
  constructor
  · rintro ⟨he, ⟨⟨hc, hst, hsid⟩, hp⟩, hl⟩
    refine ⟨⟨he, hp, ht.not_reversal he fun id hk => ?_⟩, hc, hst, hsid, hl⟩
    rw [hk, not_like_reversalKey hs] at hl
    cases hl
  · rintro ⟨he, hc, hst, hsid, hl⟩
    exact ⟨he.mem, ⟨⟨hc, hst, hsid⟩, he.posted⟩, hl⟩

/-- The standing entries of one source, company and event. -/
structure StandsFor (L : Ledger) (company : ℕ) (st sid ev : Text) (e : GlJournalEntry) : Prop where
  stands : Stands L e
  company_eq : e.companyId = company
  type_eq : e.sourceType = st
  id_eq : e.sourceId = sid
  event_eq : e.posting.event = ev

theorem Tracked.mem_liveLike_plain (ht : Tracked H S L) (hs : PlainSource st sid) (hS : S st sid)
    {company : ℕ} {ev : Text} (hplain : PatternPlain ev) (hc : ':' ∉ ev) {e : GlJournalEntry} :
    e ∈ liveLike L company st sid ev ↔ StandsFor L company st sid ev e := by
  rw [ht.mem_liveLike hs]
  constructor
  · rintro ⟨he, hco, rfl, rfl, hl⟩
    obtain ⟨hcol, rest, hk⟩ := ht.key_eq he hS
    rw [hk, like_eventPattern hs, like_event_iff hplain hc hcol] at hl
    exact ⟨he, hco, rfl, rfl, hl⟩
  · rintro ⟨he, hco, rfl, rfl, hev⟩
    obtain ⟨hcol, rest, hk⟩ := ht.key_eq he hS
    refine ⟨he, hco, rfl, rfl, ?_⟩
    rw [hk, like_eventPattern hs, like_event_iff hplain hc hcol]
    exact hev

/-- The events a payment's entries carry. -/
def PAYMENT_EVENTS : List Text :=
  ["received".toList, "era_settlement".toList, "opening_payment_void".toList]

/-- Among the events of a payment, the era settlement's pattern matches the era settlement's. -/
theorem like_era_settlement {ev : Text} (h : ev ∈ PAYMENT_EVENTS) (rest : Text) :
    like (sepCons ':' "era_settlement".toList ['%']) (sepCons ':' ev rest) = true ↔
      ev = "era_settlement".toList := by
  have htok : tokens (sepCons ':' "era_settlement".toList ['%']) =
      "era".toList.map .lit ++ .one :: ("settlement:".toList.map .lit ++ [.any]) := by decide
  unfold like
  rw [htok, matchToks_lits_append]
  simp only [PAYMENT_EVENTS, List.mem_cons, List.not_mem_nil, or_false] at h
  rcases h with rfl | rfl | rfl
  · refine ⟨?_, fun h => absurd h (by decide)⟩
    rintro ⟨t, ht, -⟩
    exact absurd (List.cons.inj ht).1 (by decide)
  · refine ⟨fun _ => rfl, fun _ => ⟨"_settlement".toList ++ ':' :: rest, rfl, ?_⟩⟩
    change matchToks ("settlement:".toList.map .lit ++ [.any]) ("settlement".toList ++ ':' :: rest) = true
    rw [matchToks_lits_any]
    exact ⟨rest, rfl⟩
  · refine ⟨?_, fun h => absurd h (by decide)⟩
    rintro ⟨t, ht, -⟩
    exact absurd (List.cons.inj ht).1 (by decide)

theorem Tracked.mem_liveEra (ht : Tracked H S L) (hs : PlainSource st sid) (hS : S st sid) {company : ℕ}
    (hev : ∀ p ∈ L.liveOf st sid, p.event ∈ PAYMENT_EVENTS) {e : GlJournalEntry} :
    e ∈ liveLike L company st sid "era_settlement".toList ↔
      StandsFor L company st sid "era_settlement".toList e := by
  rw [ht.mem_liveLike hs]
  have hknown : ∀ x, Stands L x → x.sourceType = st → x.sourceId = sid → x.posting.event ∈ PAYMENT_EVENTS :=
    fun x hx hst hsid => hev _ (mem_liveOf.mpr ⟨hx.mem_live, hst, hsid⟩)
  constructor
  · rintro ⟨he, hco, rfl, rfl, hl⟩
    obtain ⟨-, rest, hk⟩ := ht.key_eq he hS
    rw [hk, like_eventPattern hs, like_era_settlement (hknown e he rfl rfl)] at hl
    exact ⟨he, hco, rfl, rfl, hl⟩
  · rintro ⟨he, hco, rfl, rfl, h⟩
    obtain ⟨-, rest, hk⟩ := ht.key_eq he hS
    refine ⟨he, hco, rfl, rfl, ?_⟩
    rw [hk, like_eventPattern hs, like_era_settlement (hknown e he rfl rfl)]
    exact h

/-- The one-shot guard finds an entry exactly when a posting of the event is live. -/
theorem Tracked.liveEventEntry_isSome (ht : Tracked H S L) (hs : PlainSource st sid) (hS : S st sid)
    {ev : Text} (hc : ':' ∉ ev) :
    (liveEventEntry L st sid ev).isSome = true ↔ ∃ p ∈ L.liveOf st sid, p.event = ev := by
  have hraw : ∀ key, likeEscapedPrefix (sepCons ':' st (sepCons ':' sid (sepCons ':' ev []))) key = true ↔
      sepCons ':' st (sepCons ':' sid (sepCons ':' ev [])) <+: key := likeEscapedPrefix_iff _
  rw [liveEventEntry, List.find?_isSome]
  simp only [Bool.and_eq_true, hasSource_iff, isPosted_iff, hraw]
  constructor
  · rintro ⟨e, he, ⟨⟨rfl, rfl⟩, hp⟩, hpre⟩
    have hnr : e.reversesEntryId = none := by
      refine ht.not_reversal he fun id hk => ?_
      rw [hk, reversalKey, sepCons_prefix_iff hs.type_colon (by decide)] at hpre
      exact hs.not_reversal hpre.1
    have hst : Stands L e := ⟨he, hp, hnr⟩
    obtain ⟨hcol, rest, hk⟩ := ht.key_eq hst hS
    rw [hk, sepCons_prefix_iff hs.type_colon hs.type_colon, sepCons_prefix_iff hs.id_colon hs.id_colon,
      sepCons_prefix_iff hc hcol] at hpre
    exact ⟨e.posting, mem_liveOf.mpr ⟨hst.mem_live, rfl, rfl⟩, hpre.2.2.1.symm⟩
  · rintro ⟨p, hp, hev⟩
    obtain ⟨hlive, hst, hsid⟩ := mem_liveOf.mp hp
    obtain ⟨e, he, hep, her, rfl⟩ := mem_live.mp hlive
    have hsp : Stands L e := ⟨he, hep, her⟩
    have hst' : e.sourceType = st := hst
    have hsid' : e.sourceId = sid := hsid
    subst hst' hsid'
    obtain ⟨hcol, rest, hk⟩ := ht.key_eq hsp hS
    refine ⟨e, he, ⟨⟨rfl, rfl⟩, hep⟩, ?_⟩
    rw [hk, sepCons_prefix_iff hs.type_colon hs.type_colon, sepCons_prefix_iff hs.id_colon hs.id_colon,
      sepCons_prefix_iff hc hcol]
    exact ⟨rfl, rfl, hev.symm, List.nil_prefix⟩

end Queries

end Gdx
