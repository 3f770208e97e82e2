import GdxDispatch.Banking.StatementStore

/-! What the statement store holds in every state a run of imports and voids reaches.

    Each standing import claims the hashed lines of its statement. The stored lines are the union of the
    claims and the vouchers are the pairs of a claim and its line. Storing one more line and withdrawing
    an import are the two operations on claims; imports, voids and their order are read off them. -/

namespace Gdx

open Lib

/-! ### The line text names its line -/

theorem zeroPadded_injective (width : ℕ) : Function.Injective (zeroPadded width) := by
  intro m n h
  have hread : ∀ k, Nat.ofDigitChars 10 (zeroPadded width k) 0 = k := by
    intro k
    rw [zeroPadded, List.leftpad, Nat.ofDigitChars_append, Nat.ofDigitChars_replicate_zero, Nat.mul_zero]
    exact Nat.ofDigitChars_ten_toDigits
  rw [← hread m, h, hread n]

theorem notMem_zeroPadded {c : Char} (hc : c.isDigit = false) (width n : ℕ) : c ∉ zeroPadded width n := by
  intro h
  rcases List.mem_append.mp h with h | h
  · rw [List.eq_of_mem_replicate h] at hc
    simp at hc
  · exact notMem_numeral hc n h

theorem iso_injective : Function.Injective CivilDate.iso := by
  intro a b h
  obtain ⟨hyear, hrest⟩ := sepCons_inj (notMem_zeroPadded (by decide) 4 _) (notMem_zeroPadded (by decide) 4 _) h
  obtain ⟨hmonth, hday⟩ := sepCons_inj (notMem_zeroPadded (by decide) 2 _) (notMem_zeroPadded (by decide) 2 _) hrest
  cases a
  cases b
  simp only [CivilDate.mk.injEq]
  exact ⟨zeroPadded_injective 4 hyear, zeroPadded_injective 2 hmonth, zeroPadded_injective 2 hday⟩

theorem notMem_iso {c : Char} (hc : c.isDigit = false) (hdash : c ≠ '-') (d : CivilDate) : c ∉ d.iso := by
  simp only [CivilDate.iso, sepCons, List.mem_append, List.mem_cons, not_or]
  exact ⟨notMem_zeroPadded hc 4 _, hdash, notMem_zeroPadded hc 2 _, hdash, notMem_zeroPadded hc 2 _⟩

theorem printedInt_injective : Function.Injective printedInt := by
  intro i j h
  unfold printedInt at h
  have hno : ∀ n, '-' ∉ numeral n := notMem_numeral (by decide)
  split_ifs at h with hi hj hj
  · have := numeral_injective (List.cons.inj h).2
    omega
  · exact absurd (h ▸ List.mem_cons_self) (hno _)
  · exact absurd (h ▸ List.mem_cons_self) (hno _)
  · have := numeral_injective h
    omega

theorem notMem_printedInt {c : Char} (hc : c.isDigit = false) (hdash : c ≠ '-') (i : ℤ) :
    c ∉ printedInt i := by
  unfold printedInt
  split_ifs
  · exact fun h => (List.mem_cons.mp h).elim hdash (notMem_numeral hc _)
  · exact notMem_numeral hc _

/-- The last field has no separator, so the text splits at its last one. -/
theorem snoc_field_inj {sep : Char} {a b r s : Text} (hr : sep ∉ r) (hs : sep ∉ s)
    (h : a ++ sep :: r = b ++ sep :: s) : a = b ∧ r = s := by
  have hrev := congrArg List.reverse h
  simp only [List.reverse_append, List.reverse_cons, List.append_assoc, List.singleton_append] at hrev
  obtain ⟨h1, h2⟩ := sepCons_inj (by simpa using hr) (by simpa using hs) hrev
  exact ⟨List.reverse_injective h2, List.reverse_injective h1⟩

/-- For one account the hashed text says which key and which occurrence it is. -/
theorem lineText_inj {u : UnicodeTables} {last4 : Text} {d d' : CivilDate} {a a' : ℤ} {x x' : Text}
    {n n' : ℕ} (h : lineText u last4 d a x n = lineText u last4 d' a' x' n') :
    d = d' ∧ a = a' ∧ normalizeAnchor u x = normalizeAnchor u x' ∧ n = n' := by
  unfold lineText sepCons at h
  have h1 := List.append_cancel_left h
  have h2 := List.append_cancel_left (List.cons.inj h1).2
  obtain ⟨hd, h3⟩ := sepCons_inj (notMem_iso (by decide) (by decide) _)
    (notMem_iso (by decide) (by decide) _) (List.cons.inj h2).2
  obtain ⟨ha, h4⟩ := sepCons_inj (notMem_printedInt (by decide) (by decide) _)
    (notMem_printedInt (by decide) (by decide) _) h3
  obtain ⟨hx, hn⟩ := snoc_field_inj (notMem_numeral (by decide) _) (notMem_numeral (by decide) _) h4
  exact ⟨iso_injective hd, printedInt_injective ha, hx, numeral_injective hn⟩

/-! ### The evidence of a statement -/

/-- What a stored line says: its hash, its date and its amount. -/
structure EvidenceLine where
  lineHash : Text
  txnDate : CivilDate
  amountCents : ℤ
deriving DecidableEq

def HashedLine.evidence (h : HashedLine) : EvidenceLine := ⟨h.lineHash, h.txn.txnDate, h.txn.amountCents⟩

def StatementLine.evidence (l : StatementLine) : EvidenceLine := ⟨l.lineHash, l.txnDate, l.amountCents⟩

def evidenceOf (rt : StatementRuntime) (p : ParsedStatement) : List EvidenceLine :=
  (hashedLines rt p).map HashedLine.evidence

/-- The text behind the hash of a hashed line. -/
def HashedLine.text (u : UnicodeTables) (last4 : Text) (h : HashedLine) : Text :=
  lineText u last4 h.txn.txnDate h.txn.amountCents h.txn.anchor h.occurrence

def lineTexts (rt : StatementRuntime) (p : ParsedStatement) : List Text :=
  (hashedLines rt p).map (HashedLine.text rt.unicode p.last4)

/-- Parsed statements of one account, with no two of their line texts colliding. -/
structure Corpus (rt : StatementRuntime) (last4 : Text) (ps : List ParsedStatement) : Prop where
  account : ∀ p ∈ ps, p.last4 = last4
  collisionFree : ∀ a ∈ ps.flatMap (lineTexts rt), ∀ b ∈ ps.flatMap (lineTexts rt),
    rt.sha.hexdigest a = rt.sha.hexdigest b → a = b

section Hashes

variable {rt : StatementRuntime} {last4 : Text}

theorem lineHash_of_mem : ∀ {ts : List ParsedTxn} {seen : List (CivilDate × ℤ × Text)} {h : HashedLine},
    h ∈ hashedFrom rt last4 seen ts → h.lineHash = rt.sha.hexdigest (h.text rt.unicode last4)
  | t :: ts, seen, h, hmem => by
    rcases List.mem_cons.mp hmem with rfl | hmem
    · rfl
    · exact lineHash_of_mem hmem

/-- Later occurrences of a key are numbered past those seen before. -/
theorem count_lt_occurrence : ∀ {ts : List ParsedTxn} {seen : List (CivilDate × ℤ × Text)}
    {h : HashedLine}, h ∈ hashedFrom rt last4 seen ts →
    seen.count (h.txn.key rt.unicode) < h.occurrence
  | t :: ts, seen, h, hmem => by
    rcases List.mem_cons.mp hmem with rfl | hmem
    · exact Nat.lt_succ_self _
    · have hlt := count_lt_occurrence hmem
      rw [List.count_cons] at hlt
      omega

theorem occurrences_distinct : ∀ (ts : List ParsedTxn) (seen : List (CivilDate × ℤ × Text)),
    (hashedFrom rt last4 seen ts).Pairwise fun a b =>
      ¬(a.txn.key rt.unicode = b.txn.key rt.unicode ∧ a.occurrence = b.occurrence)
  | [], _ => List.Pairwise.nil
  | t :: ts, seen => by
    refine List.Pairwise.cons ?_ (occurrences_distinct ts _)
    rintro b hb ⟨hkey, hocc⟩
    have hlt := count_lt_occurrence hb
    rw [← hkey, List.count_cons_self, ← hocc] at hlt
    exact absurd hlt (lt_irrefl _)

theorem hashedFrom_txns : ∀ (ts : List ParsedTxn) (seen : List (CivilDate × ℤ × Text)),
    (hashedFrom rt last4 seen ts).map HashedLine.txn = ts
  | [], _ => rfl
  | t :: ts, seen => by rw [hashedFrom, List.map_cons, hashedFrom_txns ts]

theorem text_mem_corpus {ps : List ParsedStatement} {p : ParsedStatement} (hp : p ∈ ps) {h : HashedLine}
    (hh : h ∈ hashedLines rt p) : h.text rt.unicode p.last4 ∈ ps.flatMap (lineTexts rt) :=
  List.mem_flatMap.mpr ⟨p, hp, List.mem_map_of_mem hh⟩

variable {ps : List ParsedStatement}

/-- In a corpus two hashed lines with one hash have one key and one occurrence number. -/
theorem Corpus.same_line (hc : Corpus rt last4 ps) {p q : ParsedStatement} (hp : p ∈ ps) (hq : q ∈ ps)
    {a b : HashedLine} (ha : a ∈ hashedLines rt p) (hb : b ∈ hashedLines rt q)
    (h : a.lineHash = b.lineHash) :
    a.txn.key rt.unicode = b.txn.key rt.unicode ∧ a.occurrence = b.occurrence := by
  have htext := hc.collisionFree _ (text_mem_corpus hp ha) _ (text_mem_corpus hq hb)
    (by rw [← lineHash_of_mem ha, ← lineHash_of_mem hb, h])
  rw [hc.account p hp, hc.account q hq] at htext
  obtain ⟨hd, hamt, hx, hn⟩ := lineText_inj htext
  exact ⟨by rw [ParsedTxn.key, ParsedTxn.key, hd, hamt, hx], hn⟩

/-- A hash stands for one evidence line. -/
theorem Corpus.evidence_eq (hc : Corpus rt last4 ps) {p q : ParsedStatement} (hp : p ∈ ps) (hq : q ∈ ps)
    {e e' : EvidenceLine} (he : e ∈ evidenceOf rt p) (he' : e' ∈ evidenceOf rt q)
    (h : e.lineHash = e'.lineHash) : e = e' := by
  obtain ⟨a, ha, rfl⟩ := List.mem_map.mp he
  obtain ⟨b, hb, rfl⟩ := List.mem_map.mp he'
  obtain ⟨hkey, -⟩ := hc.same_line hp hq ha hb h
  simp only [ParsedTxn.key, Prod.mk.injEq] at hkey
  have hhash : a.lineHash = b.lineHash := h
  rw [HashedLine.evidence, HashedLine.evidence, hkey.1, hkey.2.1, hhash]

theorem Corpus.hashes_nodup (hc : Corpus rt last4 ps) {p : ParsedStatement} (hp : p ∈ ps) :
    ((hashedLines rt p).map HashedLine.lineHash).Nodup := by
  refine List.pairwise_map.mpr ((occurrences_distinct p.lines []).imp_of_mem ?_)
  intro a b ha hb hne heq
  exact hne (hc.same_line hp hp ha hb heq)

end Hashes

/-! ### Claims, lines and vouchers -/

/-- The lines and vouchers of the store are those of the claims: every voucher is for a line its import
    claims, every claimed line is stored and vouched for, and no line stands without a voucher. -/
structure Attests (U : Set EvidenceLine) (s : StatementStore) (claim : ℕ → List EvidenceLine) :
    Prop where
  known : ∀ i, ∀ e ∈ claim i, e ∈ U
  lineIds : (s.lines.map StatementLine.id).Nodup
  lineLt : ∀ l ∈ s.lines, l.id < s.nextLine
  hashes : (s.lines.map StatementLine.lineHash).Nodup
  vouchers : s.sources.Nodup
  valid : ∀ x ∈ s.sources, ∃ l ∈ s.lines, l.id = x.lineId ∧ l.evidence ∈ claim x.importId
  complete : ∀ i, ∀ e ∈ claim i, ∃ l ∈ s.lines, l.evidence = e ∧ ⟨l.id, i⟩ ∈ s.sources
  attested : ∀ l ∈ s.lines, ∃ i, ⟨l.id, i⟩ ∈ s.sources

/-- In `U` a hash stands for one evidence line. -/
def HashesDetermine (U : Set EvidenceLine) : Prop :=
  ∀ e ∈ U, ∀ e' ∈ U, e.lineHash = e'.lineHash → e = e'

section Claims

variable {U : Set EvidenceLine} {s : StatementStore} {claim : ℕ → List EvidenceLine}

theorem Attests.line_ext (h : Attests U s claim) {l l' : StatementLine} (hl : l ∈ s.lines)
    (hl' : l' ∈ s.lines) (hid : l.id = l'.id) : l = l' :=
  List.inj_on_of_nodup_map h.lineIds hl hl' hid

theorem Attests.line_ext_hash (h : Attests U s claim) {l l' : StatementLine} (hl : l ∈ s.lines)
    (hl' : l' ∈ s.lines) (hhash : l.lineHash = l'.lineHash) : l = l' :=
  List.inj_on_of_nodup_map h.hashes hl hl' hhash

/-- A voucher and a claimed line are the same thing. -/
theorem Attests.source_iff (h : Attests U s claim) {l : StatementLine} (hl : l ∈ s.lines) (i : ℕ) :
    ⟨l.id, i⟩ ∈ s.sources ↔ l.evidence ∈ claim i := by
  constructor
  · intro hmem
    obtain ⟨l', hl', hid, he⟩ := h.valid _ hmem
    rwa [← h.line_ext hl' hl hid]
  · intro he
    obtain ⟨l', hl', heq, hsrc⟩ := h.complete i _ he
    have hhash : l'.lineHash = l.lineHash := congrArg EvidenceLine.lineHash heq
    rwa [← h.line_ext_hash hl' hl hhash]

theorem Attests.line_known (h : Attests U s claim) {l : StatementLine} (hl : l ∈ s.lines) :
    ∃ i, l.evidence ∈ claim i := by
  obtain ⟨i, hsrc⟩ := h.attested l hl
  exact ⟨i, (h.source_iff hl i).mp hsrc⟩

/-- Vouching for a stored line. -/
theorem Attests.vouch (h : Attests U s claim) {i : ℕ} {l : StatementLine} (hl : l ∈ s.lines)
    (hnew : l.evidence ∉ claim i) {claim' : ℕ → List EvidenceLine}
    (hclaim : ∀ j e, e ∈ claim' j ↔ e ∈ claim j ∨ (j = i ∧ e = l.evidence)) :
    Attests U { s with sources := s.sources ++ [⟨l.id, i⟩] } claim' := by
  refine ⟨?_, h.lineIds, h.lineLt, h.hashes, ?_, ?_, ?_, ?_⟩
  · intro j e he
    rcases (hclaim j e).mp he with he | ⟨-, rfl⟩
    · exact h.known j e he
    · obtain ⟨k, hk⟩ := h.line_known hl
      exact h.known k _ hk
  · refine List.nodup_append.mpr ⟨h.vouchers, by simp, ?_⟩
    rintro y hy z hz rfl
    rw [List.mem_singleton.mp hz] at hy
    exact hnew ((h.source_iff hl i).mp hy)
  · intro y hy
    rcases List.mem_append.mp hy with hy | hy
    · obtain ⟨l', hl', hid, he⟩ := h.valid y hy
      exact ⟨l', hl', hid, (hclaim _ _).mpr (Or.inl he)⟩
    · rw [List.mem_singleton.mp hy]
      exact ⟨l, hl, rfl, (hclaim _ _).mpr (Or.inr ⟨rfl, rfl⟩)⟩
  · intro j e he
    rcases (hclaim j e).mp he with he | ⟨rfl, rfl⟩
    · obtain ⟨l', hl', heq, hsrc⟩ := h.complete j e he
      exact ⟨l', hl', heq, List.mem_append_left _ hsrc⟩
    · exact ⟨l, hl, rfl, List.mem_append_right _ (List.mem_singleton_self _)⟩
  · intro l' hl'
    obtain ⟨j, hj⟩ := h.attested l' hl'
    exact ⟨j, List.mem_append_left _ hj⟩

/-- Storing a line with a new hash and vouching for it. -/
theorem Attests.store (h : Attests U s claim) {i : ℕ} {l : StatementLine} (hid : l.id = s.nextLine)
    (hfresh : ∀ l' ∈ s.lines, l'.lineHash ≠ l.lineHash) (hl : l.evidence ∈ U)
    {claim' : ℕ → List EvidenceLine}
    (hclaim : ∀ j e, e ∈ claim' j ↔ e ∈ claim j ∨ (j = i ∧ e = l.evidence)) :
    Attests U { s with lines := s.lines ++ [l], sources := s.sources ++ [⟨l.id, i⟩]
                       nextLine := s.nextLine + 1 } claim' := by
  have hself : l ∈ s.lines ++ [l] := List.mem_append_right _ (List.mem_singleton_self _)
  refine ⟨?_, ?_, ?_, ?_, ?_, ?_, ?_, ?_⟩
  · intro j e he
    rcases (hclaim j e).mp he with he | ⟨-, rfl⟩
    · exact h.known j e he
    · exact hl
  · rw [List.map_append, List.nodup_append]
    refine ⟨h.lineIds, by simp, ?_⟩
    rintro a ha b hb rfl
    obtain ⟨l', hl', rfl⟩ := List.mem_map.mp ha
    have hlt := h.lineLt l' hl'
    have heq : l'.id = l.id := by simpa using hb
    omega
  · intro l' hl'
    rcases List.mem_append.mp hl' with hl' | hl'
    · exact Nat.lt_succ_of_lt (h.lineLt l' hl')
    · rw [List.mem_singleton.mp hl', hid]
      exact Nat.lt_succ_self _
  · rw [List.map_append, List.nodup_append]
    refine ⟨h.hashes, by simp, ?_⟩
    rintro a ha b hb rfl
    obtain ⟨l', hl', rfl⟩ := List.mem_map.mp ha
    exact hfresh l' hl' (by simpa using hb)
  · refine List.nodup_append.mpr ⟨h.vouchers, by simp, ?_⟩
    rintro y hy z hz rfl
    obtain ⟨l', hl', hid', -⟩ := h.valid y hy
    have hlt := h.lineLt l' hl'
    rw [List.mem_singleton.mp hz] at hid'
    have hid'' : l'.id = l.id := hid'
    omega
  · intro y hy
    rcases List.mem_append.mp hy with hy | hy
    · obtain ⟨l', hl', hid', he⟩ := h.valid y hy
      exact ⟨l', List.mem_append_left _ hl', hid', (hclaim _ _).mpr (Or.inl he)⟩
    · rw [List.mem_singleton.mp hy]
      exact ⟨l, hself, rfl, (hclaim _ _).mpr (Or.inr ⟨rfl, rfl⟩)⟩
  · intro j e he
    rcases (hclaim j e).mp he with he | ⟨rfl, rfl⟩
    · obtain ⟨l', hl', heq, hsrc⟩ := h.complete j e he
      exact ⟨l', List.mem_append_left _ hl', heq, List.mem_append_left _ hsrc⟩
    · exact ⟨l, hself, rfl, List.mem_append_right _ (List.mem_singleton_self _)⟩
  · intro l' hl'
    rcases List.mem_append.mp hl' with hl' | hl'
    · obtain ⟨j, hj⟩ := h.attested l' hl'
      exact ⟨j, List.mem_append_left _ hj⟩
    · rw [List.mem_singleton.mp hl']
      exact ⟨i, List.mem_append_right _ (List.mem_singleton_self _)⟩

/-- One more line of an import, whether its hash is stored or not. -/
theorem Attests.insertLine (h : Attests U s claim) (hU : HashesDetermine U) {i : ℕ} {x : HashedLine}
    (hx : x.evidence ∈ U) (hnew : x.evidence ∉ claim i) :
    Attests U (insertLine i s x) (Function.update claim i (claim i ++ [x.evidence])) := by
  have hclaim : ∀ j e, e ∈ Function.update claim i (claim i ++ [x.evidence]) j ↔
      e ∈ claim j ∨ (j = i ∧ e = x.evidence) := by
    intro j e
    by_cases hj : j = i
    · subst hj
      simp
    · simp [hj]
  unfold Gdx.insertLine
  split
  · rename_i l hfind
    have hl : l ∈ s.lines := List.mem_of_find?_eq_some hfind
    have hhash : l.lineHash = x.lineHash := by simpa using List.find?_some hfind
    obtain ⟨j, hj⟩ := h.line_known hl
    have hev : l.evidence = x.evidence := hU _ (h.known j _ hj) _ hx hhash
    exact h.vouch hl (hev ▸ hnew) (hev ▸ hclaim)
  · rename_i hfind
    refine h.store (l := x.row s.nextLine i) rfl ?_ hx hclaim
    intro l hl heq
    exact List.find?_eq_none.mp hfind l hl (decide_eq_true heq)

/-- Storing the lines of an import, one after another. -/
theorem Attests.insertLines (hU : HashesDetermine U) {i : ℕ} : ∀ {xs : List HashedLine}
    {s : StatementStore} {claim claim' : ℕ → List EvidenceLine}, Attests U s claim →
    (∀ x ∈ xs, x.evidence ∈ U) → (xs.map HashedLine.evidence).Nodup →
    (∀ x ∈ xs, x.evidence ∉ claim i) → claim' i = claim i ++ xs.map HashedLine.evidence →
    (∀ j, j ≠ i → claim' j = claim j) → Attests U (xs.foldl (Gdx.insertLine i) s) claim'
  | [], s, claim, claim', h, _, _, _, hi, hother => by
    have hsame : claim' = claim := by
      funext j
      by_cases hj : j = i
      · rw [hj, hi, List.map_nil, List.append_nil]
      · exact hother j hj
    rwa [hsame]
  | x :: xs, s, claim, claim', h, hU', hnodup, hnew, hi, hother => by
    rw [List.foldl_cons]
    rw [List.map_cons, List.nodup_cons] at hnodup
    have hstep := h.insertLine hU (hU' x (by simp)) (hnew x (by simp))
    refine Attests.insertLines hU hstep (fun y hy => hU' y (by simp [hy])) hnodup.2 ?_ ?_ ?_
    · intro y hy hmem
      rw [Function.update_self, List.mem_append, List.mem_singleton] at hmem
      rcases hmem with hmem | heq
      · exact hnew y (by simp [hy]) hmem
      · exact hnodup.1 (heq ▸ List.mem_map_of_mem hy)
    · rw [hi, Function.update_self, List.map_cons, List.append_assoc, List.singleton_append]
    · intro j hj
      rw [hother j hj, Function.update_of_ne hj]

/-- A line is doomed when its import is the only one to claim it. -/
theorem Attests.mem_doomed (h : Attests U s claim) {l : StatementLine} (hl : l ∈ s.lines) (i : ℕ) :
    l.id ∈ s.doomed i ↔ ∀ j, l.evidence ∈ claim j → j = i := by
  have hsome : ∃ j, l.evidence ∈ claim j := h.line_known hl
  simp only [StatementStore.doomed, StatementStore.attestedBy, List.mem_filter, List.mem_map,
    Bool.not_eq_true', List.any_eq_false, decide_eq_true_eq, Bool.and_eq_true, not_and, not_not]
  constructor
  · rintro ⟨-, honly⟩ j hj
    exact honly _ ((h.source_iff hl j).mpr hj) rfl
  · intro honly
    obtain ⟨j, hj⟩ := hsome
    obtain rfl := honly j hj
    refine ⟨⟨_, ⟨(h.source_iff hl j).mpr hj, rfl⟩, rfl⟩, ?_⟩
    intro x hx hid
    refine honly x.importId ((h.source_iff hl x.importId).mp ?_)
    rwa [← hid]

/-- Withdrawing an import: its vouchers go, and the lines only it vouched for. -/
theorem Attests.withdraw (h : Attests U s claim) (i : ℕ) {s' : StatementStore}
    (hlines : s'.lines = s.lines.filter fun l => l.id ∉ s.doomed i)
    (hsources : s'.sources = s.sources.filter fun x => x.importId ≠ i)
    (hnext : s'.nextLine = s.nextLine) {claim' : ℕ → List EvidenceLine} (hi : claim' i = [])
    (hother : ∀ j, j ≠ i → claim' j = claim j) : Attests U s' claim' := by
  have hsub : s'.lines.Sublist s.lines := hlines ▸ List.filter_sublist
  have hmem : ∀ l, l ∈ s'.lines ↔ l ∈ s.lines ∧ l.id ∉ s.doomed i := by
    intro l
    rw [hlines, List.mem_filter, decide_eq_true_eq]
  have hsrc : ∀ x, x ∈ s'.sources ↔ x ∈ s.sources ∧ x.importId ≠ i := by
    intro x
    rw [hsources, List.mem_filter, decide_eq_true_eq]
  have hkeep : ∀ l ∈ s.lines, ∀ j, j ≠ i → l.evidence ∈ claim j → l ∈ s'.lines := by
    intro l hl j hj he
    exact (hmem l).mpr ⟨hl, fun hd => hj ((h.mem_doomed hl i).mp hd j he)⟩
  refine ⟨?_, h.lineIds.sublist (hsub.map _), ?_, h.hashes.sublist (hsub.map _), ?_, ?_, ?_, ?_⟩
  · intro j e he
    by_cases hj : j = i
    · rw [hj, hi] at he
      simp at he
    · exact h.known j e (hother j hj ▸ he)
  · exact fun l hl => hnext ▸ h.lineLt l (hsub.subset hl)
  · rw [hsources]
    exact h.vouchers.filter _
  · intro x hx
    obtain ⟨hx, hne⟩ := (hsrc x).mp hx
    obtain ⟨l, hl, hid, he⟩ := h.valid x hx
    exact ⟨l, hkeep l hl _ hne he, hid, by rwa [hother _ hne]⟩
  · intro j e he
    by_cases hj : j = i
    · rw [hj, hi] at he
      simp at he
    · rw [hother j hj] at he
      obtain ⟨l, hl, rfl, hmem'⟩ := h.complete j e he
      exact ⟨l, hkeep l hl j hj he, rfl, (hsrc _).mpr ⟨hmem', hj⟩⟩
  · intro l hl
    obtain ⟨hl, hnot⟩ := (hmem l).mp hl
    rw [h.mem_doomed hl] at hnot
    push Not at hnot
    obtain ⟨j, he, hj⟩ := hnot
    exact ⟨j, (hsrc _).mpr ⟨(h.source_iff hl j).mpr he, hj⟩⟩

end Claims

/-! ### The invariant of the store -/

/-- The days both periods cover. -/
def inBothPeriods (p q : ParsedStatement) (d : CivilDate) : Bool :=
  d.within p.periodStart p.periodEnd && d.within q.periodStart q.periodEnd

theorem inBothPeriods_comm (p q : ParsedStatement) (d : CivilDate) :
    inBothPeriods p q d = inBothPeriods q p d := Bool.and_comm _ _

/-- Two statements have the same lines on the days both periods cover. -/
def Agree (rt : StatementRuntime) (p q : ParsedStatement) : Prop :=
  ∀ e : EvidenceLine, inBothPeriods p q e.txnDate = true → (e ∈ evidenceOf rt p ↔ e ∈ evidenceOf rt q)

theorem Agree.symm {rt : StatementRuntime} {p q : ParsedStatement} (h : Agree rt p q) : Agree rt q p :=
  fun e he => (h e (inBothPeriods_comm q p _ ▸ he)).symm

theorem Agree.refl (rt : StatementRuntime) (p : ParsedStatement) : Agree rt p p := fun _ _ => Iff.rfl

/-- The evidence of the statements of a corpus. -/
def corpusEvidence (rt : StatementRuntime) (ps : List ParsedStatement) : Set EvidenceLine :=
  { e | ∃ p ∈ ps, e ∈ evidenceOf rt p }

theorem Corpus.determine {rt : StatementRuntime} {last4 : Text} {ps : List ParsedStatement}
    (hc : Corpus rt last4 ps) : HashesDetermine (corpusEvidence rt ps) := by
  rintro e ⟨p, hp, he⟩ e' ⟨q, hq, he'⟩ h
  exact hc.evidence_eq hp hq he he' h

/-- What each import claims: the hashed lines of its statement while it stands. -/
def claims (rt : StatementRuntime) (s : StatementStore) (importId : ℕ) : List EvidenceLine :=
  match s.imports.find? fun i => i.id = importId && i.stands with
  | some i => evidenceOf rt i.statement
  | none => []

/-- The store after a run over statements of `ps`. -/
structure StoreOk (rt : StatementRuntime) (ps : List ParsedStatement) (s : StatementStore) : Prop where
  importIds : (s.imports.map StatementImport.id).Nodup
  importLt : ∀ i ∈ s.imports, i.id < s.nextImport
  inCorpus : ∀ i ∈ s.imports, i.statement ∈ ps
  tied : ∀ i ∈ s.imports, i.tieOutStatus = .passed → (computeTieOut i.statement).1 = .passed
  attests : Attests (corpusEvidence rt ps) s (claims rt s)
  agree : ∀ i ∈ s.standing, ∀ j ∈ s.standing, Agree rt i.statement j.statement
  matched : ∀ m ∈ s.matchLines, ∃ l ∈ s.lines, l.id = m.lineId

section Store

variable {rt : StatementRuntime} {ps : List ParsedStatement} {s : StatementStore}

theorem mem_standing {i : StatementImport} : i ∈ s.standing ↔ i ∈ s.imports ∧ i.stands = true := by
  simp [StatementStore.standing]

theorem StoreOk.import_ext (h : StoreOk rt ps s) {i j : StatementImport} (hi : i ∈ s.imports)
    (hj : j ∈ s.imports) (hid : i.id = j.id) : i = j :=
  List.inj_on_of_nodup_map h.importIds hi hj hid

theorem StoreOk.claims_standing (h : StoreOk rt ps s) {i : StatementImport} (hi : i ∈ s.standing) :
    claims rt s i.id = evidenceOf rt i.statement := by
  obtain ⟨hmem, hstands⟩ := mem_standing.mp hi
  unfold claims
  cases hfind : s.imports.find? fun j => j.id = i.id && j.stands with
  | none =>
    have hnone := List.find?_eq_none.mp hfind i hmem
    simp [hstands] at hnone
  | some j =>
    have hj : j.id = i.id := by
      have := List.find?_some hfind
      simp only [Bool.and_eq_true, decide_eq_true_eq] at this
      exact this.1
    rw [h.import_ext (List.mem_of_find?_eq_some hfind) hmem hj]

theorem mem_claims {k : ℕ} {e : EvidenceLine} (he : e ∈ claims rt s k) :
    ∃ i ∈ s.standing, i.id = k ∧ e ∈ evidenceOf rt i.statement := by
  unfold claims at he
  cases hfind : s.imports.find? fun j => j.id = k && j.stands with
  | none => simp [hfind] at he
  | some i =>
    have hi := List.find?_some hfind
    simp only [Bool.and_eq_true, decide_eq_true_eq] at hi
    rw [hfind] at he
    exact ⟨i, mem_standing.mpr ⟨List.mem_of_find?_eq_some hfind, hi.2⟩, hi.1, he⟩

/-- An import vouches for exactly the stored lines of its statement. -/
theorem StoreOk.vouches_iff (h : StoreOk rt ps s) {i : StatementImport} (hi : i ∈ s.standing)
    {l : StatementLine} (hl : l ∈ s.lines) :
    s.vouches i.id l.id = true ↔ l.evidence ∈ evidenceOf rt i.statement := by
  rw [← h.claims_standing hi, ← h.attests.source_iff hl]
  simp only [StatementStore.vouches, List.any_eq_true, Bool.and_eq_true, decide_eq_true_eq]
  constructor
  · rintro ⟨⟨a, b⟩, hx, rfl, rfl⟩
    exact hx
  · exact fun hx => ⟨_, hx, rfl, rfl⟩

theorem StoreOk.line_of_evidence (h : StoreOk rt ps s) {i : StatementImport} (hi : i ∈ s.standing)
    {e : EvidenceLine} (he : e ∈ evidenceOf rt i.statement) :
    ∃ l ∈ s.lines, l.evidence = e ∧ s.vouches i.id l.id = true := by
  rw [← h.claims_standing hi] at he
  obtain ⟨l, hl, heq, -⟩ := h.attests.complete i.id e he
  rw [h.claims_standing hi] at he
  exact ⟨l, hl, heq, (h.vouches_iff hi hl).mpr (heq ▸ he)⟩

/-- The window of the overlap check is the days both periods cover. -/
theorem within_window (p q : ParsedStatement) (d : CivilDate) :
    d.within (laterDate p.periodStart q.periodStart) (earlierDate p.periodEnd q.periodEnd) =
      inBothPeriods p q d := by
  unfold CivilDate.within inBothPeriods laterDate earlierDate CivilDate.within
  rw [Bool.eq_iff_iff]
  simp only [Bool.and_eq_true, decide_eq_true_eq]
  split <;> split <;> omega

/-- The overlap check with one standing import passes exactly when the two statements agree. -/
theorem StoreOk.overlapWith_iff (h : StoreOk rt ps s) {last4 : Text} (hc : Corpus rt last4 ps)
    {p : ParsedStatement} (hp : p ∈ ps) {i : StatementImport} (hi : i ∈ s.standing) :
    overlapWith s p (hashedLines rt p) i = none ↔ Agree rt p i.statement := by
  have hq : i.statement ∈ ps := h.inCorpus i (mem_standing.mp hi).1
  unfold overlapWith
  simp only [within_window]
  split
  · -- No common day: nothing to compare on either side.
    rename_i hempty
    refine iff_of_true rfl ?_
    intro e he
    rw [← within_window] at he
    simp only [CivilDate.within, Bool.and_eq_true, decide_eq_true_eq] at he
    omega
  · split
    · rename_i hmiss
      refine iff_of_true rfl ?_
      obtain ⟨hnew, hold⟩ := hmiss
      intro e he
      constructor
      · intro hep
        obtain ⟨x, hx, rfl⟩ := List.mem_map.mp hep
        have hmem := List.filter_eq_nil_iff.mp hold x (List.mem_filter.mpr ⟨hx, he⟩)
        simp only [decide_eq_true_eq, not_not] at hmem
        obtain ⟨l, hl, hhash⟩ := List.mem_map.mp hmem
        obtain ⟨hl, hsel⟩ := List.mem_filter.mp hl
        have hev := (h.vouches_iff hi hl).mp (Bool.and_eq_true_iff.mp hsel).1
        rwa [← hc.evidence_eq hq hp hev hep hhash]
      · intro heq
        obtain ⟨l, hl, rfl, hv⟩ := h.line_of_evidence hi heq
        have hmem := List.filter_eq_nil_iff.mp hnew l (List.mem_filter.mpr ⟨hl, by rw [hv]; exact he⟩)
        simp only [decide_eq_true_eq, not_not] at hmem
        obtain ⟨x, hx, hhash⟩ := List.mem_map.mp hmem
        have hxp := List.mem_map_of_mem (f := HashedLine.evidence) (List.mem_filter.mp hx).1
        rw [← hc.evidence_eq hp hq hxp heq hhash]
        exact hxp
    · rename_i hmiss
      refine iff_of_false (by simp) ?_
      intro hagree
      refine hmiss ⟨List.filter_eq_nil_iff.mpr ?_, List.filter_eq_nil_iff.mpr ?_⟩
      · intro l hl
        obtain ⟨hl, hsel⟩ := List.mem_filter.mp hl
        obtain ⟨hv, hd⟩ := Bool.and_eq_true_iff.mp hsel
        have hep := (hagree l.evidence hd).mpr ((h.vouches_iff hi hl).mp hv)
        obtain ⟨x, hx, hxe⟩ := List.mem_map.mp hep
        have hxd : x.txn.txnDate = l.txnDate := congrArg EvidenceLine.txnDate hxe
        simp only [decide_eq_true_eq, not_not]
        refine List.mem_map.mpr ⟨x, List.mem_filter.mpr ⟨hx, by rwa [hxd]⟩, ?_⟩
        exact congrArg EvidenceLine.lineHash hxe
      · intro x hx
        obtain ⟨hx, hd⟩ := List.mem_filter.mp hx
        obtain ⟨l, hl, hle, hv⟩ := h.line_of_evidence hi
          ((hagree x.evidence hd).mp (List.mem_map_of_mem hx))
        have hld : l.txnDate = x.txn.txnDate := congrArg EvidenceLine.txnDate hle
        simp only [decide_eq_true_eq, not_not]
        refine List.mem_map.mpr ⟨l, List.mem_filter.mpr ⟨hl, by rw [hv, hld, hd]; rfl⟩, ?_⟩
        exact congrArg EvidenceLine.lineHash hle

/-! ### One import -/

theorem StoreOk.verdict_passed (h : StoreOk rt ps s) {last4 : Text} (hc : Corpus rt last4 ps)
    {p : ParsedStatement} (hp : p ∈ ps) :
    (verdict rt s p).1 = .passed ↔
      (computeTieOut p).1 = .passed ∧ ∀ i ∈ s.standing, Agree rt p i.statement := by
  have hoverlap : overlapIntegrity s p (hashedLines rt p) = [] ↔
      ∀ i ∈ s.standing, Agree rt p i.statement := by
    rw [overlapIntegrity, List.filterMap_eq_nil_iff]
    exact forall₂_congr fun i hi => h.overlapWith_iff hc hp hi
  unfold verdict
  rcases computeTieOut p with ⟨_ | _, checks⟩
  · simp only [true_and]
    rw [← hoverlap]
    split <;> simp_all
  · simp

/-- What the loop over the lines of an import adds, and what it leaves alone. -/
theorem insertLines_shape (i : ℕ) : ∀ (xs : List HashedLine) (s : StatementStore),
    ∃ new srcs, (xs.foldl (insertLine i) s).lines = s.lines ++ new ∧
      (xs.foldl (insertLine i) s).sources = s.sources ++ srcs ∧
      (∀ l ∈ new, s.nextLine ≤ l.id) ∧ (∀ x ∈ srcs, x.importId = i) ∧
      s.nextLine ≤ (xs.foldl (insertLine i) s).nextLine ∧
      (xs.foldl (insertLine i) s).imports = s.imports ∧
      (xs.foldl (insertLine i) s).matchLines = s.matchLines
  | [], s => ⟨[], [], by simp⟩
  | x :: xs, s => by
    obtain ⟨new, srcs, hlines, hsources, hnew, hsrcs, hnext, himports, hmatch⟩ :=
      insertLines_shape i xs (insertLine i s x)
    rw [List.foldl_cons, hlines, hsources, himports, hmatch]
    cases hfind : s.lines.find? fun l => l.lineHash = x.lineHash with
    | some l =>
      have hstep : insertLine i s x = { s with sources := s.sources ++ [⟨l.id, i⟩] } := by
        simp only [insertLine, hfind]
      rw [hstep] at hnew hnext ⊢
      refine ⟨new, ⟨l.id, i⟩ :: srcs, rfl, by simp, hnew, ?_, hnext, rfl, rfl⟩
      exact List.forall_mem_cons.mpr ⟨rfl, hsrcs⟩
    | none =>
      have hstep : insertLine i s x =
          { s with lines := s.lines ++ [x.row s.nextLine i], sources := s.sources ++ [⟨s.nextLine, i⟩]
                   nextLine := s.nextLine + 1 } := by
        simp only [insertLine, hfind]
      rw [hstep] at hnew hnext ⊢
      refine ⟨x.row s.nextLine i :: new, ⟨s.nextLine, i⟩ :: srcs, by simp, by simp, ?_, ?_, ?_, rfl, rfl⟩
      · refine List.forall_mem_cons.mpr ⟨le_refl _, fun l hl => ?_⟩
        exact (Nat.le_succ _).trans (hnew l hl)
      · exact List.forall_mem_cons.mpr ⟨rfl, hsrcs⟩
      · exact (Nat.le_succ _).trans hnext

/-- The claims once a new import row is in. -/
theorem claims_concat {s' : StatementStore} {row : StatementImport}
    (himports : s'.imports = s.imports ++ [row]) (hfresh : ∀ i ∈ s.imports, i.id ≠ row.id) (k : ℕ) :
    claims rt s' k =
      if k = row.id then (if row.stands then evidenceOf rt row.statement else []) else claims rt s k := by
  unfold claims
  rw [himports, List.find?_append]
  by_cases hk : k = row.id
  · have hnone : (s.imports.find? fun i => i.id = k && i.stands) = none := by
      refine List.find?_eq_none.mpr fun i hi => ?_
      simp [hk, hfresh i hi]
    rw [hnone, if_pos hk]
    by_cases hs : row.stands = true <;> simp [hk, hs]
  · have hlast : ([row].find? fun i => i.id = k && i.stands) = none := by
      simp [Ne.symm hk]
    rw [hlast, if_neg hk, Option.or_none]

theorem StoreOk.claims_next (h : StoreOk rt ps s) : claims rt s s.nextImport = [] := by
  unfold claims
  rw [List.find?_eq_none.mpr]
  intro i hi
  have := h.importLt i hi
  simp only [Bool.and_eq_true, decide_eq_true_eq, not_and]
  omega

/-- The parts of the invariant about the import rows, once a new row is in. -/
theorem StoreOk.concat (h : StoreOk rt ps s) {s' : StatementStore} {row : StatementImport}
    (himports : s'.imports = s.imports ++ [row]) (hid : row.id = s.nextImport)
    (hnext : s'.nextImport = s.nextImport + 1) (hp : row.statement ∈ ps)
    (htied : row.tieOutStatus = .passed → (computeTieOut row.statement).1 = .passed)
    (hattests : Attests (corpusEvidence rt ps) s' (claims rt s'))
    (hagree : row.stands = true → ∀ i ∈ s.standing, Agree rt row.statement i.statement)
    (hmatched : ∀ m ∈ s'.matchLines, ∃ l ∈ s'.lines, l.id = m.lineId) : StoreOk rt ps s' := by
  have hmem : ∀ i, i ∈ s'.imports ↔ i ∈ s.imports ∨ i = row := by
    intro i
    rw [himports, List.mem_append, List.mem_singleton]
  refine ⟨?_, ?_, ?_, ?_, hattests, ?_, hmatched⟩
  · rw [himports, List.map_append, List.nodup_append]
    refine ⟨h.importIds, by simp, ?_⟩
    rintro a ha b hb rfl
    obtain ⟨i, hi, rfl⟩ := List.mem_map.mp ha
    have hlt := h.importLt i hi
    have heq : i.id = row.id := by simpa using hb
    omega
  · intro i hi
    rcases (hmem i).mp hi with hi | rfl
    · have := h.importLt i hi
      omega
    · omega
  · intro i hi
    rcases (hmem i).mp hi with hi | rfl
    · exact h.inCorpus i hi
    · exact hp
  · intro i hi
    rcases (hmem i).mp hi with hi | rfl
    · exact h.tied i hi
    · exact htied
  · intro i hi j hj
    obtain ⟨hi, hsi⟩ := mem_standing.mp hi
    obtain ⟨hj, hsj⟩ := mem_standing.mp hj
    rcases (hmem i).mp hi with hi | rfl <;> rcases (hmem j).mp hj with hj | rfl
    · exact h.agree i (mem_standing.mpr ⟨hi, hsi⟩) j (mem_standing.mpr ⟨hj, hsj⟩)
    · exact (hagree hsj i (mem_standing.mpr ⟨hi, hsi⟩)).symm
    · exact hagree hsi j (mem_standing.mpr ⟨hj, hsj⟩)
    · exact Agree.refl rt _

theorem Attests.congr {U : Set EvidenceLine} {s s' : StatementStore} {claim : ℕ → List EvidenceLine}
    (h : Attests U s claim) (hlines : s'.lines = s.lines) (hsources : s'.sources = s.sources)
    (hnext : s'.nextLine = s.nextLine) : Attests U s' claim := by
  obtain ⟨h1, h2, h3, h4, h5, h6, h7, h8⟩ := h
  refine ⟨h1, ?_, ?_, ?_, ?_, ?_, ?_, ?_⟩ <;> simpa only [hlines, hsources, hnext]

theorem StoreOk.admit (h : StoreOk rt ps s) {last4 : Text} (hc : Corpus rt last4 ps) (sha256 : Text)
    {p : ParsedStatement} (hp : p ∈ ps) : StoreOk rt ps (admitStatement rt s sha256 p).1 := by
  have hfresh : ∀ i ∈ s.imports, i.id ≠ s.nextImport := fun i hi => (h.importLt i hi).ne
  unfold admitStatement
  cases hv : verdict rt s p with
  | mk status checks =>
    cases status with
    | failed =>
      refine h.concat rfl rfl rfl hp (by simp) ?_ (by simp [StatementImport.stands]) h.matched
      refine Attests.congr (s := s) ?_ rfl rfl rfl
      convert h.attests using 1
      funext k
      rw [claims_concat rfl hfresh k]
      split
      · rename_i hk
        rw [hk, h.claims_next]
        simp [StatementImport.stands]
      · rfl
    | passed =>
      obtain ⟨htied, hagree⟩ := (h.verdict_passed hc hp).mp (by rw [hv])
      obtain ⟨new, srcs, hlines, -, -, -, -, himports, hmatch⟩ :=
        insertLines_shape s.nextImport (hashedLines rt p) s
      refine h.concat rfl rfl rfl hp (fun _ => htied) ?_ (fun _ => hagree) ?_
      · refine Attests.congr (s := (hashedLines rt p).foldl (insertLine s.nextImport) s) ?_ rfl rfl rfl
        refine Attests.insertLines hc.determine h.attests ?_ ?_ ?_ ?_ ?_
        · exact fun x hx => ⟨p, hp, List.mem_map_of_mem hx⟩
        · have hnodup := hc.hashes_nodup hp
          rw [List.nodup_iff_pairwise_ne, List.pairwise_map] at hnodup ⊢
          exact hnodup.imp fun hne heq => hne (congrArg EvidenceLine.lineHash heq)
        · intro x _
          rw [h.claims_next]
          simp
        · rw [claims_concat rfl hfresh, if_pos rfl, h.claims_next]
          rfl
        · intro j hj
          rw [claims_concat rfl hfresh, if_neg hj]
      · intro m hm
        change m ∈ ((hashedLines rt p).foldl (insertLine s.nextImport) s).matchLines at hm
        rw [hmatch] at hm
        obtain ⟨l, hl, hid⟩ := h.matched m hm
        refine ⟨l, ?_, hid⟩
        change l ∈ ((hashedLines rt p).foldl (insertLine s.nextImport) s).lines
        rw [hlines]
        exact List.mem_append_left _ hl

/-! ### One void -/

/-- The match rows on lines that go with an import. -/
def StatementStore.referencing (s : StatementStore) (importId : ℕ) : List MatchLine :=
  s.matchLines.filter fun m => m.lineId ∈ s.doomed importId

/-- The store without an import's vouchers, the lines only it vouched for and their matches. -/
def StatementStore.withdrawn (s : StatementStore) (importId : ℕ) : StatementStore :=
  { s with
    sources := s.sources.filter fun x => x.importId ≠ importId
    matchLines := s.matchLines.filter fun m => m.matchId ∉ (s.referencing importId).map MatchLine.matchId
    lines := s.lines.filter fun l => l.id ∉ s.doomed importId
    imports := s.imports.map fun i => if i.id = importId then { i with voided := true } else i }

/-- A void is a withdrawal, or it changes nothing. -/
theorem voidImport_cases (s : StatementStore) (k : ℕ) :
    (voidImport s k).1 = s ∨ (voidImport s k).1 = s.withdrawn k := by
  unfold voidImport
  cases s.imports.find? fun i => i.id = k with
  | none => exact Or.inl rfl
  | some imp =>
    simp only
    split
    · exact Or.inl rfl
    · split
      · exact Or.inl rfl
      · exact Or.inr rfl

theorem mem_withdrawn_imports {k : ℕ} {i : StatementImport} :
    i ∈ (s.withdrawn k).imports ↔
      ∃ j ∈ s.imports, (if j.id = k then { j with voided := true } else j) = i := by
  simp [StatementStore.withdrawn]

theorem mem_withdrawn_standing {k : ℕ} {i : StatementImport} :
    i ∈ (s.withdrawn k).standing ↔ i ∈ s.standing ∧ i.id ≠ k := by
  rw [mem_standing, mem_withdrawn_imports, mem_standing]
  constructor
  · rintro ⟨⟨j, hj, rfl⟩, hs⟩
    split at hs
    · simp [StatementImport.stands] at hs
    · rename_i hk
      rw [if_neg hk]
      exact ⟨⟨hj, hs⟩, hk⟩
  · rintro ⟨⟨hi, hs⟩, hk⟩
    exact ⟨⟨i, hi, if_neg hk⟩, hs⟩

theorem claims_withdrawn (rt : StatementRuntime) (s : StatementStore) (k j : ℕ) :
    claims rt (s.withdrawn k) j = if j = k then [] else claims rt s j := by
  have hfind : ((s.withdrawn k).imports.find? fun i => i.id = j && i.stands) =
      if j = k then none else s.imports.find? fun i => i.id = j && i.stands := by
    unfold StatementStore.withdrawn
    split
    · rename_i hj
      refine List.find?_eq_none.mpr fun i hi => ?_
      obtain ⟨i', -, rfl⟩ := List.mem_map.mp hi
      split <;> simp_all [StatementImport.stands]
    · rename_i hj
      induction s.imports with
      | nil => rfl
      | cons i is ih =>
        rw [List.map_cons, List.find?_cons, List.find?_cons, ih]
        by_cases hi : i.id = k
        · have hne : ¬i.id = j := fun h => hj (h ▸ hi)
          have hne' : ¬k = j := Ne.symm hj
          simp [hi, hne']
        · rw [if_neg hi]
  unfold claims
  rw [hfind]
  by_cases hj : j = k
  · rw [if_pos hj, if_pos hj]
  · rw [if_neg hj, if_neg hj]

theorem StoreOk.withdraw (h : StoreOk rt ps s) (k : ℕ) : StoreOk rt ps (s.withdrawn k) := by
  have hfield : ∀ j : StatementImport, (if j.id = k then { j with voided := true } else j).id = j.id ∧
      (if j.id = k then { j with voided := true } else j).statement = j.statement ∧
      (if j.id = k then { j with voided := true } else j).tieOutStatus = j.tieOutStatus := by
    intro j
    split <;> exact ⟨rfl, rfl, rfl⟩
  refine ⟨?_, ?_, ?_, ?_, ?_, ?_, ?_⟩
  · have hids : (s.withdrawn k).imports.map StatementImport.id = s.imports.map StatementImport.id := by
      rw [StatementStore.withdrawn, List.map_map]
      exact List.map_congr_left fun j _ => (hfield j).1
    rw [hids]
    exact h.importIds
  · intro i hi
    obtain ⟨j, hj, rfl⟩ := mem_withdrawn_imports.mp hi
    rw [(hfield j).1]
    exact h.importLt j hj
  · intro i hi
    obtain ⟨j, hj, rfl⟩ := mem_withdrawn_imports.mp hi
    rw [(hfield j).2.1]
    exact h.inCorpus j hj
  · intro i hi
    obtain ⟨j, hj, rfl⟩ := mem_withdrawn_imports.mp hi
    rw [(hfield j).2.1, (hfield j).2.2]
    exact h.tied j hj
  · have hlines : (s.withdrawn k).lines = s.lines.filter fun l => l.id ∉ s.doomed k := rfl
    refine h.attests.withdraw k hlines rfl rfl ?_ ?_
    · rw [claims_withdrawn, if_pos rfl]
    · intro j hj
      rw [claims_withdrawn, if_neg hj]
  · intro i hi j hj
    exact h.agree i (mem_withdrawn_standing.mp hi).1 j (mem_withdrawn_standing.mp hj).1
  · intro m hm
    obtain ⟨hm, hkept⟩ := List.mem_filter.mp hm
    obtain ⟨l, hl, hid⟩ := h.matched m hm
    refine ⟨l, List.mem_filter.mpr ⟨hl, ?_⟩, hid⟩
    simp only [decide_eq_true_eq] at hkept ⊢
    intro hdoomed
    refine hkept (List.mem_map_of_mem (List.mem_filter.mpr ⟨hm, ?_⟩))
    rwa [decide_eq_true_eq, ← hid]

/-! ### Runs -/

/-- The statement a call brings in, when its file parses. -/
def StatementCall.statement? : StatementCall → Option ParsedStatement
  | .import file => file.parsed.toOption
  | _ => none

theorem storeOk_empty : StoreOk rt ps .empty := by
  refine ⟨by simp [StatementStore.empty], by simp [StatementStore.empty], by simp [StatementStore.empty],
    by simp [StatementStore.empty], ?_, by simp [StatementStore.empty, StatementStore.standing],
    by simp [StatementStore.empty]⟩
  have hnone : claims rt .empty = fun _ => [] := rfl
  rw [hnone]
  constructor <;> simp [StatementStore.empty]

theorem StoreOk.importStatement (h : StoreOk rt ps s) {last4 : Text} (hc : Corpus rt last4 ps)
    {f : StatementFile} (hf : ∀ p, f.parsed = .ok p → p ∈ ps) :
    StoreOk rt ps (importStatement rt s f).1 := by
  unfold Gdx.importStatement
  split
  · exact h
  · split
    · exact h
    · split
      · exact h
      · rename_i p hp
        exact h.admit hc _ (hf p hp)

theorem StoreOk.step (h : StoreOk rt ps s) {last4 : Text} (hc : Corpus rt last4 ps) {call : StatementCall}
    (hcall : ∀ p ∈ call.statement?, p ∈ ps) : StoreOk rt ps (stepStatement rt s call) := by
  cases call with
  | «import» file =>
    refine h.importStatement hc fun p hp => hcall p ?_
    simp [StatementCall.statement?, hp, Except.toOption]
  | void k =>
    rcases voidImport_cases s k with heq | heq
    · rw [stepStatement, heq]
      exact h
    · rw [stepStatement, heq]
      exact h.withdraw k
  | rematch rows =>
    simp only [stepStatement]
    split
    · rename_i hrows
      obtain ⟨h1, h2, h3, h4, h5, h6, -⟩ := h
      refine ⟨h1, h2, h3, h4, h5.congr rfl rfl rfl, h6, ?_⟩
      intro m hm
      simpa using List.all_eq_true.mp hrows m hm
    · exact h

theorem runStatements_ok {last4 : Text} (hc : Corpus rt last4 ps) {calls : List StatementCall}
    (hcalls : ∀ call ∈ calls, ∀ p ∈ call.statement?, p ∈ ps) : StoreOk rt ps (runStatements rt calls) := by
  have hfold : ∀ (calls : List StatementCall) (s : StatementStore), StoreOk rt ps s →
      (∀ call ∈ calls, ∀ p ∈ call.statement?, p ∈ ps) →
      StoreOk rt ps (calls.foldl (stepStatement rt) s) := by
    intro calls
    induction calls with
    | nil => exact fun s h _ => h
    | cons call calls ih =>
      intro s h hcalls
      exact ih _ (h.step hc (hcalls call (by simp))) fun c hmem => hcalls c (by simp [hmem])
  exact hfold calls _ storeOk_empty hcalls

/-! ### What the store shows -/

/-- The stored lines an import vouches for. -/
def StatementStore.linesOf (s : StatementStore) (i : StatementImport) : List StatementLine :=
  s.lines.filter fun l => s.vouches i.id l.id

def centsOf (ls : List StatementLine) : ℤ := (ls.map StatementLine.amountCents).sum

/-- The stored lines are the union of the standing imports' hashed lines, stored once each, every import
    vouches for exactly its statement's lines, its balances tie with them, and two imports have the same
    lines on the days both periods cover. -/
structure EvidenceHolds (rt : StatementRuntime) (s : StatementStore) : Prop where
  union : ∀ e, e ∈ s.lines.map StatementLine.evidence ↔ ∃ i ∈ s.standing, e ∈ evidenceOf rt i.statement
  once : (s.lines.map StatementLine.lineHash).Nodup ∧ s.sources.Nodup
  attested : ∀ l ∈ s.lines, ∀ i : ℕ, ⟨l.id, i⟩ ∈ s.sources ↔
    ∃ imp ∈ s.standing, imp.id = i ∧ l.evidence ∈ evidenceOf rt imp.statement
  balanced : ∀ i ∈ s.standing,
    i.statement.beginningCents + centsOf (s.linesOf i) = i.statement.endingCents
  sameLines : ∀ i ∈ s.standing, ∀ j ∈ s.standing, ∀ l ∈ s.lines,
    inBothPeriods i.statement j.statement l.txnDate = true → (l ∈ s.linesOf i ↔ l ∈ s.linesOf j)

theorem mem_linesOf {i : StatementImport} {l : StatementLine} :
    l ∈ s.linesOf i ↔ l ∈ s.lines ∧ s.vouches i.id l.id = true := by
  simp [StatementStore.linesOf]

theorem evidence_nodup {ls : List StatementLine} (h : (ls.map StatementLine.lineHash).Nodup) :
    (ls.map StatementLine.evidence).Nodup := by
  rw [List.nodup_iff_pairwise_ne, List.pairwise_map] at h ⊢
  exact h.imp fun hne heq => hne (congrArg EvidenceLine.lineHash heq)

theorem Corpus.evidenceOf_nodup {last4 : Text} (hc : Corpus rt last4 ps) {p : ParsedStatement}
    (hp : p ∈ ps) : (evidenceOf rt p).Nodup := by
  have hnodup := hc.hashes_nodup hp
  rw [evidenceOf, List.nodup_iff_pairwise_ne, List.pairwise_map]
  rw [List.nodup_iff_pairwise_ne, List.pairwise_map] at hnodup
  exact hnodup.imp fun hne heq => hne (congrArg EvidenceLine.lineHash heq)

/-- The lines an import vouches for are its statement's, in some order. -/
theorem StoreOk.linesOf_perm (h : StoreOk rt ps s) {last4 : Text} (hc : Corpus rt last4 ps)
    {i : StatementImport} (hi : i ∈ s.standing) :
    ((s.linesOf i).map StatementLine.evidence).Perm (evidenceOf rt i.statement) := by
  have hlines : ((s.linesOf i).map StatementLine.evidence).Nodup :=
    evidence_nodup (h.attests.hashes.sublist (List.filter_sublist.map _))
  refine (List.perm_ext_iff_of_nodup hlines
    (hc.evidenceOf_nodup (h.inCorpus i (mem_standing.mp hi).1))).mpr fun e => ?_
  constructor
  · intro he
    obtain ⟨l, hl, rfl⟩ := List.mem_map.mp he
    obtain ⟨hl, hv⟩ := mem_linesOf.mp hl
    exact (h.vouches_iff hi hl).mp hv
  · intro he
    obtain ⟨l, hl, rfl, hv⟩ := h.line_of_evidence hi he
    exact List.mem_map_of_mem (mem_linesOf.mpr ⟨hl, hv⟩)

theorem evidenceOf_cents (rt : StatementRuntime) (p : ParsedStatement) :
    ((evidenceOf rt p).map EvidenceLine.amountCents).sum = amountOf p.lines := by
  rw [amountOf, ← hashedFrom_txns p.lines [], evidenceOf, hashedLines,
    List.map_map, List.map_map]
  rfl

theorem StoreOk.centsOf_linesOf (h : StoreOk rt ps s) {last4 : Text} (hc : Corpus rt last4 ps)
    {i : StatementImport} (hi : i ∈ s.standing) : centsOf (s.linesOf i) = amountOf i.statement.lines := by
  have hperm := ((h.linesOf_perm hc hi).map EvidenceLine.amountCents).sum_eq
  rw [evidenceOf_cents, List.map_map] at hperm
  exact hperm

/-- A statement that passes ties its balances with its lines. -/
theorem ending_of_passed {p : ParsedStatement} (h : (computeTieOut p).1 = .passed) :
    p.beginningCents + amountOf p.lines = p.endingCents := by
  have hall : (tieOutChecks p).all TieOutCheck.ok = true := by
    by_contra hnot
    simp [computeTieOut, hnot] at h
  have hlast : checkEq .endingEquation p.endingCents (p.beginningCents + amountOf p.lines) ∈
      tieOutChecks p := by
    unfold tieOutChecks
    exact List.mem_append_right _
      (List.mem_cons_of_mem _ (List.mem_cons_of_mem _ (List.mem_singleton_self _)))
  have hok := List.all_eq_true.mp hall _ hlast
  simp only [checkEq, decide_eq_true_eq] at hok
  exact hok.symm

theorem StoreOk.evidence (h : StoreOk rt ps s) {last4 : Text} (hc : Corpus rt last4 ps) :
    EvidenceHolds rt s := by
  refine ⟨?_, ⟨h.attests.hashes, h.attests.vouchers⟩, ?_, ?_, ?_⟩
  · intro e
    constructor
    · intro he
      obtain ⟨l, hl, rfl⟩ := List.mem_map.mp he
      obtain ⟨k, hk⟩ := h.attests.line_known hl
      obtain ⟨i, hi, -, he⟩ := mem_claims hk
      exact ⟨i, hi, he⟩
    · rintro ⟨i, hi, he⟩
      obtain ⟨l, hl, rfl, -⟩ := h.line_of_evidence hi he
      exact List.mem_map_of_mem hl
  · intro l hl i
    rw [h.attests.source_iff hl i]
    constructor
    · exact mem_claims
    · rintro ⟨imp, himp, rfl, he⟩
      rwa [h.claims_standing himp]
  · intro i hi
    obtain ⟨hmem, hstands⟩ := mem_standing.mp hi
    have hpassed : i.tieOutStatus = .passed := by
      simp only [StatementImport.stands, Bool.and_eq_true, decide_eq_true_eq] at hstands
      exact hstands.2
    rw [h.centsOf_linesOf hc hi]
    exact ending_of_passed (h.tied i hmem hpassed)
  · intro i hi j hj l hl hd
    rw [mem_linesOf, mem_linesOf, h.vouches_iff hi hl, h.vouches_iff hj hl]
    exact and_congr_right fun _ => h.agree i hi j hj l.evidence hd

/-! ### Contiguous runs of statements -/

/-- No day is in both periods: the window of the overlap check is empty. -/
def noCommonDay (p q : ParsedStatement) : Bool :=
  (earlierDate p.periodEnd q.periodEnd).toordinal < (laterDate p.periodStart q.periodStart).toordinal

/-- Imports whose periods follow each other day by day with matching balances. -/
def Contiguous (run : List StatementImport) : Prop :=
  (∀ i ∈ run, i.statement.periodStart.toordinal ≤ i.statement.periodEnd.toordinal) ∧
    run.IsChain fun a b => a.statement.periodEnd.toordinal + 1 = b.statement.periodStart.toordinal ∧
      a.statement.endingCents = b.statement.beginningCents

/-- Standing imports with no common day share no line. -/
def Separate (rt : StatementRuntime) (s : StatementStore) : Prop :=
  ∀ i ∈ s.standing, ∀ j ∈ s.standing, i.id ≠ j.id → noCommonDay i.statement j.statement = true →
    ∀ e ∈ evidenceOf rt i.statement, e ∉ evidenceOf rt j.statement

theorem centsOf_filter_or (p q : StatementLine → Bool) : ∀ (ls : List StatementLine),
    (∀ l ∈ ls, ¬(p l = true ∧ q l = true)) →
    centsOf (ls.filter fun l => p l || q l) = centsOf (ls.filter p) + centsOf (ls.filter q)
  | [], _ => rfl
  | l :: ls, h => by
    have hrest := centsOf_filter_or p q ls fun x hx => h x (by simp [hx])
    have hl := h l (by simp)
    unfold centsOf at hrest ⊢
    cases hp : p l <;> cases hq : q l <;>
      simp_all [add_assoc, add_left_comm]

theorem Contiguous.before {i : StatementImport} {rest : List StatementImport}
    (h : Contiguous (i :: rest)) : ∀ j ∈ rest,
      i.statement.periodEnd.toordinal < j.statement.periodStart.toordinal := by
  induction rest generalizing i with
  | nil => simp
  | cons b rest ih =>
    obtain ⟨hpos, hchain⟩ := h
    rw [List.isChain_cons_cons] at hchain
    obtain ⟨⟨hnext, -⟩, hchain⟩ := hchain
    have hb := hpos b (by simp)
    intro j hj
    rcases List.mem_cons.mp hj with rfl | hj
    · omega
    · have hlt := ih ⟨fun x hx => hpos x (List.mem_cons_of_mem _ hx), hchain⟩ j hj
      omega

/-- Over a contiguous run the lines, each counted once, carry the first balance to the last. -/
theorem StoreOk.run_balanced (h : StoreOk rt ps s) {last4 : Text} (hc : Corpus rt last4 ps)
    (hsep : Separate rt s) : ∀ {first : StatementImport} {rest : List StatementImport},
    (∀ i ∈ first :: rest, i ∈ s.standing) → Contiguous (first :: rest) →
    first.statement.beginningCents +
      centsOf (s.lines.filter fun l => (first :: rest).any fun i => s.vouches i.id l.id) =
      ((first :: rest).getLast (by simp)).statement.endingCents
  | first, [], hrun, _ => by
    have hbal := (h.evidence hc).balanced first (hrun first (by simp))
    simpa [StatementStore.linesOf] using hbal
  | first, next :: rest, hrun, hcont => by
    have hfirst := hrun first (by simp)
    have hbal := (h.evidence hc).balanced first hfirst
    have hbefore := hcont.before
    obtain ⟨hpos, hchain⟩ := hcont
    rw [List.isChain_cons_cons] at hchain
    obtain ⟨⟨-, hmatch⟩, hchain⟩ := hchain
    have hrest := StoreOk.run_balanced h hc hsep (fun i hi => hrun i (List.mem_cons_of_mem _ hi))
      ⟨fun x hx => hpos x (List.mem_cons_of_mem _ hx), hchain⟩
    have hapart : ∀ l ∈ s.lines, ¬(s.vouches first.id l.id = true ∧
        ((next :: rest).any fun i => s.vouches i.id l.id) = true) := by
      rintro l hl ⟨hv, hany⟩
      obtain ⟨j, hj, hvj⟩ := List.any_eq_true.mp hany
      have hjs := hrun j (List.mem_cons_of_mem _ hj)
      have hlt := hbefore j hj
      have hf := hpos first (by simp)
      have hjpos := hpos j (List.mem_cons_of_mem _ hj)
      have hne : first.id ≠ j.id := by
        intro heq
        have := h.import_ext (mem_standing.mp hfirst).1 (mem_standing.mp hjs).1 heq
        subst this
        omega
      have hday : noCommonDay first.statement j.statement = true := by
        rw [noCommonDay, decide_eq_true_eq]
        unfold earlierDate laterDate
        split <;> split <;> omega
      exact hsep first hfirst j hjs hne hday _ ((h.vouches_iff hfirst hl).mp hv)
        ((h.vouches_iff hjs hl).mp hvj)
    have hsum := centsOf_filter_or (fun l => s.vouches first.id l.id)
      (fun l => (next :: rest).any fun i => s.vouches i.id l.id) s.lines hapart
    rw [List.getLast_cons (by simp), ← hrest]
    simp only [List.any_cons] at hsum ⊢
    rw [hsum]
    unfold StatementStore.linesOf at hbal
    omega

end Store

end Gdx
