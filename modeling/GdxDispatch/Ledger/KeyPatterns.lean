import GdxDispatch.Ledger.JournalRun

/-! What the `LIKE` patterns over the journal's keys match.

    A pattern made of an escaped text and one `%` matches what starts with the text, and the colons that no component may
    hold tell the keys of one prefix from all others. So the number of a key counts the reversed entries of its own prefix,
    and what is asked of one source and event never finds another's entry or a reversal. -/

namespace Gdx
open Lib

variable {H : ContentHash} {st sid ev st' sid' ev' pfx : Text} {c : Content}

/-- `f"{source_type}:{source_id}:{event}:"`. -/
def triplePrefix (sourceType sourceId event : Text) : Text :=
  sepCons ':' sourceType (sepCons ':' sourceId (sepCons ':' event []))

/-- The components that `key_prefix` accepts. -/
theorem validPrefix_of_ok (h : keyPrefix st sid ev (H.digest c) = .ok pfx) :
    ValidPrefix st sid ev (H.digest c) ∧ pfx = joinPrefix st sid ev (H.digest c) :=
  (keyPrefix_ok (H.no_colon c)).mp h

/-- A source and an event start the keys of that source and event. -/
theorem triplePrefix_eventKey_iff {h h' : Text} (hv : ValidPrefix st sid ev h) (hv' : ValidPrefix st' sid' ev' h') (n : ℕ) :
    triplePrefix st sid ev <+: idempotencyKey (joinPrefix st' sid' ev' h') n ↔ st = st' ∧ sid = sid' ∧ ev = ev' := by
  rw [triplePrefix, idempotencyKey_joinPrefix, sepCons_prefix_iff hv.sourceType_valid.2 hv'.sourceType_valid.2,
    sepCons_prefix_iff hv.sourceId_valid.2 hv'.sourceId_valid.2, sepCons_prefix_iff hv.event_valid.2 hv'.event_valid.2]
  simp

/-- They start no reversal key. -/
theorem not_triplePrefix_reversalKey {h : Text} (hv : ValidPrefix st sid ev h) (id : ℕ) :
    ¬ triplePrefix st sid ev <+: reversalKey id := by
  rw [triplePrefix, reversalKey, sepCons_prefix_iff hv.sourceType_valid.2 (by decide)]
  exact fun hpre => hv.not_reversal hpre.1

/-- A reversal key starts no event key. -/
theorem not_reversalKey_prefix {h : Text} (hv : ValidPrefix st sid ev h) (id n : ℕ) :
    ¬ reversalKey id <+: idempotencyKey (joinPrefix st sid ev h) n := by
  rw [reversalKey, idempotencyKey_joinPrefix, sepCons_prefix_iff (by decide) hv.sourceType_valid.2]
  exact fun hpre => hv.not_reversal hpre.1.symm

/-- In a journal, the keys that start with a prefix are the prefix's own. -/
theorem JournalInv.prefix_iff {L : Ledger} (hinv : JournalInv H L) {h : Text} (hv : ValidPrefix st sid ev h)
    {e : GlJournalEntry} (he : e ∈ L.entries) :
    joinPrefix st sid ev h ++ [':'] <+: e.idempotencyKey ↔
      ∃ n, e.idempotencyKey = idempotencyKey (joinPrefix st sid ev h) n := by
  constructor
  · intro hpre
    rcases hinv.shaped e he with ⟨ev', n, extra, hshape⟩ | ⟨o, -, -, hm⟩
    · rw [hshape.key, prefix_eventKey_iff hv hshape.valid] at hpre
      obtain ⟨rfl, rfl, rfl, rfl⟩ := hpre
      exact ⟨n, hshape.key⟩
    · rw [hm.key] at hpre
      exact absurd hpre (not_prefix_reversalKey hv o.id)
  · rintro ⟨n, hn⟩
    rw [hn]
    exact prefix_idempotencyKey _ _

open scoped Classical in
/-- The number of a key counts the reversed entries of its prefix. -/
theorem JournalInv.computeSeq_count {L : Ledger} (hinv : JournalInv H L) {h : Text} (hv : ValidPrefix st sid ev h)
    (company : ℕ) :
    computeSeq L company (joinPrefix st sid ev h) = L.entries.countP fun e =>
      decide (e.companyId = company ∧ e.status = .reversed ∧
        ∃ n, e.idempotencyKey = idempotencyKey (joinPrefix st sid ev h) n) := by
  rw [computeSeq, ← List.countP_eq_length_filter]
  refine List.countP_congr fun e he => ?_
  simp only [Bool.and_eq_true, beq_iff_eq, decide_eq_true_eq, likeEscapedPrefix_iff, hinv.prefix_iff hv he, and_assoc]

open scoped Classical in
/-- Matching a prefix by `LIKE` is exact: for every text, for the numbers of all keys of every reachable journal, and for the
    keys of any two sources and events and of reversals. -/
theorem like_prefix_exact (H : ContentHash) (L : Ledger) (hempty : L.entries = []) (hc : ChartOk L) (ops : List JournalOp) :
    (∀ raw s, likeEscapedPrefix raw s = true ↔ raw <+: s) ∧
      (∀ company st sid ev c pfx, keyPrefix st sid ev (H.digest c) = .ok pfx →
        let entries := ((Book.mk L []).run H ops).ledger.entries
        computeSeq ((Book.mk L []).run H ops).ledger company pfx = entries.countP fun e =>
          decide (e.companyId = company ∧ e.status = .reversed ∧ ∃ n, e.idempotencyKey = idempotencyKey pfx n)) ∧
      (∀ st sid ev c pfx st' sid' ev' c' pfx', keyPrefix st sid ev (H.digest c) = .ok pfx →
        keyPrefix st' sid' ev' (H.digest c') = .ok pfx' → (st, sid, ev) ≠ (st', sid', ev') →
        ∀ n, likeEscapedPrefix (triplePrefix st sid ev) (idempotencyKey pfx' n) = false ∧
          likeEscapedPrefix (pfx ++ [':']) (idempotencyKey pfx' n) = false) ∧
      ∀ st sid ev c pfx, keyPrefix st sid ev (H.digest c) = .ok pfx → ∀ id n,
        likeEscapedPrefix (triplePrefix st sid ev) (reversalKey id) = false ∧
          likeEscapedPrefix (pfx ++ [':']) (reversalKey id) = false ∧
          likeEscapedPrefix (reversalKey id) (idempotencyKey pfx n) = false := by
  refine ⟨likeEscapedPrefix_iff, ?_, ?_, ?_⟩
  · intro company st sid ev c pfx hok
    obtain ⟨hv, rfl⟩ := validPrefix_of_ok hok
    have hbook : BirthInv ⟨L, []⟩ := ⟨by simp [hempty], by simp⟩
    exact (run_inv ops (.of_empty hempty hc) hbook).1.computeSeq_count hv company
  · intro st sid ev c pfx st' sid' ev' c' pfx' hok hok' hne n
    obtain ⟨hv, rfl⟩ := validPrefix_of_ok hok
    obtain ⟨hv', rfl⟩ := validPrefix_of_ok hok'
    constructor
    · rw [Bool.eq_false_iff, Ne, likeEscapedPrefix_iff, triplePrefix_eventKey_iff hv hv']
      rintro ⟨rfl, rfl, rfl⟩
      exact hne rfl
    · rw [Bool.eq_false_iff, Ne, likeEscapedPrefix_iff, prefix_eventKey_iff hv hv']
      rintro ⟨rfl, rfl, rfl, -⟩
      exact hne rfl
  · intro st sid ev c pfx hok id n
    obtain ⟨hv, rfl⟩ := validPrefix_of_ok hok
    simp only [Bool.eq_false_iff, Ne, likeEscapedPrefix_iff]
    exact ⟨not_triplePrefix_reversalKey hv id, not_prefix_reversalKey hv id, not_reversalKey_prefix hv id n⟩

/-- The pattern of the sale's source and event does not find the reversal of its entry. -/
theorem like_prefix_exact_sale :
    likeEscapedPrefix (triplePrefix "invoice".toList (str 7) "issue".toList) (reversalKey 26) = false := by
  have hvalid : ValidPrefix "invoice".toList (str 7) "issue".toList (plainHash.digest ⟨10, [], []⟩) :=
    ⟨by decide, by decide, by decide +kernel, by decide, plainHash.no_colon _⟩
  exact ((like_prefix_exact plainHash Ledger.seeded rfl chartOk_seeded saleOps).2.2.2 _ _ _ _ _
    ((keyPrefix_ok (plainHash.no_colon _)).mpr ⟨hvalid, rfl⟩) 26 0).1

end Gdx
