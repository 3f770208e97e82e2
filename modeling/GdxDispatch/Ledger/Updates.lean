import GdxDispatch.Ledger.Queries

/-! What the engine's two calls, and the rules' loops over them, do to the postings of one source.

    Every rule writes entries of a single source: `Updates` says what the live postings of that source
    are afterwards and that no other source moved. Posting first and reversing what is stale then
    leaves exactly the new posting, whatever was live before. -/

namespace Gdx
open Lib

/-- One source moved: its live postings are `B` now, every other source's are as they were. -/
structure Updates (H : ContentHash) (S : Text → Text → Prop) (L L' : Ledger) (st sid : Text)
    (B : Finset Posting) : Prop where
  tracked : Tracked H S L'
  accounts : L'.accounts = L.accounts
  locks : L'.locks = L.locks
  here : L'.liveOf st sid = B
  elsewhere : ∀ st' sid', ¬ (st' = st ∧ sid' = sid) → L'.liveOf st' sid' = L.liveOf st' sid'

section Updates
variable {H : ContentHash} {S : Text → Text → Prop} {L L' M : Ledger} {st sid : Text}
  {acct : Role → ℕ} {company : ℕ} {actor : Option Text}

theorem Updates.refl (ht : Tracked H S L) (st sid : Text) : Updates H S L L st sid (L.liveOf st sid) :=
  ⟨ht, rfl, rfl, rfl, fun _ _ _ => rfl⟩

theorem Updates.trans {B B' : Finset Posting} (h : Updates H S L M st sid B)
    (h' : Updates H S M L' st sid B') : Updates H S L L' st sid B' :=
  ⟨h'.tracked, h'.accounts.trans h.accounts, h'.locks.trans h.locks, h'.here,
    fun st' sid' hne => (h'.elsewhere st' sid' hne).trans (h.elsewhere st' sid' hne)⟩

theorem Updates.of_eq {B B' : Finset Posting} (h : Updates H S L L' st sid B) (hB : B = B') :
    Updates H S L L' st sid B' := hB ▸ h

theorem Updates.seeded {B : Finset Posting} (h : Updates H S L L' st sid B) (hs : Seeded L company acct) :
    Seeded L' company acct := hs.congr h.accounts

/-- A posting inserted on its own source. -/
theorem post_updates {event : PostingEvent} {e : GlJournalEntry} (hfree : H.CollisionFree)
    (ht : Tracked H S L) (hseed : Seeded L event.companyId acct) (hextra : event.extraContent = [])
    (hS : S event.sourceType event.sourceId) (h : postForEvent H event false L = .ok e L') :
    Updates H S L L' event.sourceType event.sourceId
        (insert (event.posting acct) (L.liveOf event.sourceType event.sourceId)) ∧
      Stands L' e ∧ e.posting = event.posting acct := by
  obtain ⟨hl, hst, hp⟩ := post_lands hfree ht hseed hextra hS h
  refine ⟨⟨hl.tracked, hl.accounts, hl.locks, ?_, fun st' sid' hne => ?_⟩, hst, hp⟩
  · rw [Ledger.liveOf, hl.live, Finset.filter_insert, if_pos ⟨rfl, rfl⟩]; rfl
  · rw [Ledger.liveOf, hl.live, Finset.filter_insert, if_neg]
    · rfl
    · rintro ⟨h1, h2⟩
      exact hne ⟨h1.symm, h2.symm⟩

theorem reverse_updates {e r : GlJournalEntry} {at' : Option ℤ} (ht : Tracked H S L) (he : Stands L e)
    (hS : S e.sourceType e.sourceId) (h : reverseEntry e.id at' actor false L = .ok r L') :
    Updates H S L L' e.sourceType e.sourceId ((L.liveOf e.sourceType e.sourceId).erase e.posting) := by
  have hl := reverse_lands ht he hS h
  refine ⟨hl.tracked, hl.accounts, hl.locks, ?_, fun st' sid' hne => ?_⟩
  · rw [Ledger.liveOf, hl.live, Finset.filter_erase]; rfl
  · rw [Ledger.liveOf, hl.live, Finset.filter_erase, Finset.erase_eq_of_notMem]
    · rfl
    · intro hmem
      obtain ⟨-, h1, h2⟩ := mem_liveOf.mp hmem
      exact hne ⟨h1.symm, h2.symm⟩

/-- Reversing one entry leaves the others standing. -/
theorem Stands.reverse_other {e r x : GlJournalEntry} {at' : Option ℤ} (ht : Tracked H S L)
    (he : Stands L e) (h : reverseEntry e.id at' actor false L = .ok r L') (hx : Stands L x)
    (hne : x.id ≠ e.id) : Stands L' x := by
  cases reverseEntry_ok ht.inv h with
  | already => exact hx
  | @mirrored y M mem eid posted checked =>
    obtain rfl := ht.inv.eq_of_id mem he.mem eid
    obtain ⟨-, -, -, -, hlock⟩ := checkPeriodLock_ok checked
    obtain ⟨rfl, -⟩ := hlock rfl
    exact ⟨mem_mirrored.mpr (Or.inl ⟨x, hx.mem, by rw [if_neg hne]⟩), hx.posted, hx.not_reversal⟩

@[simp] theorem withFallback_none {α : Type} (natural : LedgerM α) (at' : ℤ → LedgerM α) :
    withFallback natural none at' = natural := by
  funext L
  unfold withFallback
  cases natural L with
  | ok a L' => rfl
  | error e L' => cases e <;> rfl

/-- Reversing standing entries of one source, one after another. -/
theorem reverseEach_updates : ∀ (es : List GlJournalEntry) {L L' : Ledger}, Tracked H S L → S st sid →
    (∀ e ∈ es, Stands L e ∧ e.sourceType = st ∧ e.sourceId = sid) → (es.map (·.id)).Nodup →
    each (reverseSettled actor none) es L = .ok () L' →
    Updates H S L L' st sid (L.liveOf st sid \ (es.map (·.posting)).toFinset)
  | [], L, L', ht, _, _, _, h => by
    cases h
    simpa using Updates.refl ht st sid
  | e :: es, L, L', ht, hS, hes, hnd, h => by
    obtain ⟨he, hst, hsid⟩ := hes e (List.mem_cons_self ..)
    rw [each, bind_ok] at h
    obtain ⟨⟨⟩, M, hrev, h⟩ := h
    simp only [reverseSettled, withFallback_none] at hrev
    rw [bind_ok] at hrev
    obtain ⟨r, N, hrev, hp⟩ := hrev
    cases hp
    rw [List.map_cons, List.nodup_cons] at hnd
    have hup := reverse_updates ht he (by rw [hst, hsid]; exact hS) hrev
    rw [hst, hsid] at hup
    have hrest : ∀ x ∈ es, Stands M x ∧ x.sourceType = st ∧ x.sourceId = sid := by
      intro x hx
      obtain ⟨hxs, hx1, hx2⟩ := hes x (List.mem_cons_of_mem _ hx)
      refine ⟨he.reverse_other ht hrev hxs fun hid => hnd.1 ?_, hx1, hx2⟩
      rw [← hid]; exact List.mem_map_of_mem hx
    refine (hup.trans (reverseEach_updates es hup.tracked hS hrest hnd.2 h)).of_eq ?_
    rw [hup.here]
    ext p
    simp only [Finset.mem_sdiff, Finset.mem_erase, List.mem_toFinset, List.map_cons, List.mem_cons]
    tauto

/-- Reversing what a query found, all but the entry kept. -/
theorem reverseAllBut_updates {ev : Text} {kept : Option GlJournalEntry} {lives : List GlJournalEntry}
    (ht : Tracked H S L) (hS : S st sid) (hsub : lives.Sublist L.entries)
    (hlives : ∀ e, e ∈ lives ↔ StandsFor L company st sid ev e) (hkept : ∀ k ∈ kept, Stands L k)
    (h : reverseAllBut kept actor none lives L = .ok () L') :
    Updates H S L L' st sid ((L.liveOf st sid).filter fun p =>
      (p.companyId = company → p.event ≠ ev) ∨ ∃ k ∈ kept, k.posting = p) := by
  set es := lives.filter fun live => kept.all (live.id != ·.id) with hes
  have hstands : ∀ e ∈ es, Stands L e ∧ e.sourceType = st ∧ e.sourceId = sid := by
    intro e he
    have hfor := (hlives e).mp (List.mem_of_mem_filter he)
    exact ⟨hfor.stands, hfor.type_eq, hfor.id_eq⟩
  have hnd : (es.map (·.id)).Nodup :=
    List.Nodup.sublist ((List.filter_sublist.trans hsub).map _) ht.inv.id_nodup
  refine (reverseEach_updates es ht hS hstands hnd h).of_eq ?_
  ext p
  simp only [Finset.mem_sdiff, Finset.mem_filter, List.mem_toFinset, List.mem_map, not_exists, not_and]
  refine and_congr_right fun hp => ?_
  obtain ⟨hlive, hpst, hpsid⟩ := mem_liveOf.mp hp
  obtain ⟨x, hx, hxp, hxr, rfl⟩ := mem_live.mp hlive
  have hxst : Stands L x := ⟨hx, hxp, hxr⟩
  have hxS : S x.sourceType x.sourceId := by
    have h1 : x.sourceType = st := hpst
    have h2 : x.sourceId = sid := hpsid
    rwa [h1, h2]
  constructor
  · intro hnot
    by_cases hfor : x.companyId = company ∧ x.posting.event = ev
    · -- the entry was found, so it must be the one kept
      right
      have hin : x ∈ lives := (hlives x).mpr ⟨hxst, hfor.1, hpst, hpsid, hfor.2⟩
      by_contra hno
      refine hnot x (List.mem_filter.mpr ⟨hin, ?_⟩) rfl
      cases hk : kept with
      | none => rfl
      | some k =>
        rw [Option.all_some, bne_iff_ne]
        intro hid
        have hkst := hkept k (by rw [hk]; rfl)
        exact hno ⟨k, by rw [hk]; rfl, by rw [ht.inv.eq_of_id hx hkst.mem hid]⟩
    · left
      intro hc hev
      exact hfor ⟨hc, hev⟩
  · rintro hcase e he hpe
    have hex : e = x := by
      obtain ⟨hest, h1, h2⟩ := hstands e he
      exact ht.eq_of_posting hest.mem hx (by rw [h1, h2]; exact hS) hest.posted hxp hest.not_reversal hxr hpe
    subst hex
    rcases hcase with hno | ⟨k, hk, hkp⟩
    · have hfor := (hlives e).mp (List.mem_of_mem_filter he)
      exact hno hfor.company_eq hfor.event_eq
    · have hkst := hkept k hk
      have hke : k = e := ht.eq_of_posting hkst.mem hx
        (by rw [show k.sourceType = e.sourceType from congrArg Posting.sourceType hkp,
              show k.sourceId = e.sourceId from congrArg Posting.sourceId hkp]; exact hxS)
        hkst.posted hxp hkst.not_reversal hxr hkp
      have hkeep := (List.mem_filter.mp he).2
      rw [Option.mem_def.mp hk, Option.all_some, hke] at hkeep
      simp at hkeep

theorem liveLike_sublist (L : Ledger) (company : ℕ) (st sid ev : Text) :
    (liveLike L company st sid ev).Sublist L.entries := List.filter_sublist

end Updates

end Gdx
