import GdxDispatch.Ledger.Models

/-! Idempotency keys with liveness.

    An event's key is `source_type:source_id:event:hash:seq`, a reversal's is `reversal:id`. The
    components of an event key hold no colon and `reversal` is no source type, so a key belongs to
    one (source, event, hash) prefix only, and `seq`, the count of reversed entries whose key
    starts with `prefix:`, counts the entries of that prefix and no others. -/

namespace Gdx
open Lib

/-- One line as it enters the content hash. -/
structure ContentLine where
  accountId : ℕ
  amountCents : ℤ
  jobId : Option ℕ
  customerId : Option ℕ
  deriving DecidableEq, Repr

/-- The canonical fields an event is hashed over. -/
structure Content where
  effectiveAt : ℤ
  lines : List ContentLine
  extra : List (Text × Text)
  deriving DecidableEq, Repr

/-- The content hash: hex digits, so never a colon. -/
structure ContentHash where
  digest : Content → Text
  no_colon : ∀ c, ':' ∉ digest c

/-- Different economic content, different hash. No posting rule passes extra content. -/
def ContentHash.CollisionFree (H : ContentHash) : Prop :=
  ∀ c c', c.extra = [] → c'.extra = [] → H.digest c = H.digest c' → c = c'

/-- An optional id as one number. -/
def optionCode : Option ℕ → ℤ
  | none => 0
  | some id => id + 1

theorem optionCode_injective : Function.Injective optionCode := by
  intro a b h
  cases a <;> cases b <;> simp only [optionCode] at h
  · rfl
  · omega
  · omega
  · congr 1; omega

def ContentLine.numbers (l : ContentLine) : List ℤ :=
  [l.accountId, l.amountCents, optionCode l.jobId, optionCode l.customerId]

theorem flatMap_numbers_injective : ∀ {ls ms : List ContentLine},
    ls.flatMap (·.numbers) = ms.flatMap (·.numbers) → ls = ms
  | [], [], _ => rfl
  | [], m :: ms, h => by simp [ContentLine.numbers] at h
  | l :: ls, [], h => by simp [ContentLine.numbers] at h
  | ⟨a, x, j, c⟩ :: ls, ⟨a', x', j', c'⟩ :: ms, h => by
    simp only [List.flatMap_cons, ContentLine.numbers, List.cons_append, List.nil_append,
      List.cons.injEq, Nat.cast_inj] at h
    obtain ⟨rfl, rfl, hj, hc, hrest⟩ := h
    rw [optionCode_injective hj, optionCode_injective hc, flatMap_numbers_injective hrest]

/-- A content hash that spells the content out. -/
def plainHash : ContentHash where
  digest c := spell (c.effectiveAt :: c.lines.flatMap (·.numbers))
  no_colon _ := notMem_spell (by decide) (by decide) (by decide) (by decide) _

theorem plainHash_collisionFree : plainHash.CollisionFree := by
  intro c c' hx hx' h
  have hnum := spell_injective h
  simp only [List.cons.injEq] at hnum
  have hlines := flatMap_numbers_injective hnum.2
  cases c; cases c'
  simp_all

/-- A key component is non-empty and holds no colon. -/
def ValidComponent (value : Text) : Prop := value ≠ [] ∧ ':' ∉ value

instance (value : Text) : Decidable (ValidComponent value) :=
  inferInstanceAs (Decidable (_ ∧ _))

def validateComponent (name : String) (value : Text) : Except LedgerError Unit :=
  if ValidComponent value then .ok () else .error (.badKeyComponent name)

/-- `{source_type}:{source_id}:{event}:{chash}`. -/
def joinPrefix (sourceType sourceId event chash : Text) : Text :=
  sepCons ':' sourceType (sepCons ':' sourceId (sepCons ':' event chash))

def keyPrefix (sourceType sourceId event chash : Text) : Except LedgerError Text := do
  validateComponent "source_type" sourceType
  if sourceType = "reversal".toList then throw (.badKeyComponent "source_type")
  validateComponent "source_id" sourceId
  validateComponent "event" event
  return joinPrefix sourceType sourceId event chash

def idempotencyKey (pfx : Text) (seq : ℕ) : Text := sepCons ':' pfx (numeral seq)

def reversalKey (originalEntryId : ℕ) : Text := sepCons ':' "reversal".toList (str originalEntryId)

def escapeLike (raw : Text) : Text :=
  replaceChar '_' ['\\', '_'] (replaceChar '%' ['\\', '%'] (replaceChar '\\' ['\\', '\\'] raw))

/-- `idempotency_key LIKE escaped(raw) || '%' ESCAPE '\'`. -/
def likeEscapedPrefix (raw key : Text) : Bool := like (escapeLike raw ++ ['%']) key

/-- Count of reversed entries of the company whose key starts with `prefix:`. -/
def computeSeq (L : Ledger) (company : ℕ) (pfx : Text) : ℕ :=
  (L.entries.filter fun e =>
    e.companyId == company && e.status == .reversed && likeEscapedPrefix (pfx ++ [':']) e.idempotencyKey).length

/-! ### `LIKE` on an escaped prefix is a prefix test -/

/-- One character after the three replacements. -/
def escapeChar (c : Char) : Text :=
  if c = '\\' ∨ c = '%' ∨ c = '_' then ['\\', c] else [c]

theorem escapeLike_eq_flatMap (raw : Text) : escapeLike raw = raw.flatMap escapeChar := by
  unfold escapeLike replaceChar
  rw [List.flatMap_assoc, List.flatMap_assoc]
  refine List.flatMap_congr fun c _ => ?_
  unfold escapeChar
  by_cases h1 : c = '\\'
  · subst h1; rfl
  by_cases h2 : c = '%'
  · subst h2; rfl
  by_cases h3 : c = '_'
  · subst h3; rfl
  simp [h1, h2, h3]

theorem tokens_escapeChar (c : Char) (rest : Text) :
    tokens (escapeChar c ++ rest) = .lit c :: tokens rest := by
  unfold escapeChar
  split
  · exact tokens_escaped c rest
  · next h =>
    simp only [not_or] at h
    exact tokens_cons_plain h.1 h.2.1 h.2.2 rest

theorem tokens_escapeLike : ∀ (raw rest : Text),
    tokens (escapeLike raw ++ rest) = raw.map .lit ++ tokens rest
  | [], rest => rfl
  | c :: raw, rest => by
    rw [escapeLike_eq_flatMap, List.flatMap_cons, List.append_assoc, tokens_escapeChar,
      ← escapeLike_eq_flatMap, tokens_escapeLike raw rest]
    rfl

theorem likeEscapedPrefix_iff (raw key : Text) : likeEscapedPrefix raw key = true ↔ raw <+: key := by
  unfold likeEscapedPrefix like
  rw [tokens_escapeLike]
  exact matchToks_lits_any raw key

/-! ### Keys read back -/

/-- The components of an event key as `keyPrefix` accepts them, with a colon-free hash. -/
structure ValidPrefix (sourceType sourceId event chash : Text) : Prop where
  sourceType_valid : ValidComponent sourceType
  not_reversal : sourceType ≠ "reversal".toList
  sourceId_valid : ValidComponent sourceId
  event_valid : ValidComponent event
  chash_no_colon : ':' ∉ chash

theorem keyPrefix_ok {st sid ev h p : Text} (hh : ':' ∉ h) :
    keyPrefix st sid ev h = .ok p ↔ ValidPrefix st sid ev h ∧ p = joinPrefix st sid ev h := by
  unfold keyPrefix validateComponent
  by_cases h1 : ValidComponent st
  · by_cases h2 : st = "reversal".toList
    · rw [if_pos h1, if_pos h2]
      exact ⟨(by intro h; cases h), fun h => absurd h2 h.1.not_reversal⟩
    · by_cases h3 : ValidComponent sid
      · by_cases h4 : ValidComponent ev
        · rw [if_pos h1, if_neg h2, if_pos h3, if_pos h4]
          constructor
          · intro h; cases h; exact ⟨⟨h1, h2, h3, h4, hh⟩, rfl⟩
          · rintro ⟨-, rfl⟩; rfl
        · rw [if_pos h1, if_neg h2, if_pos h3, if_neg h4]
          exact ⟨(by intro h; cases h), fun h => absurd h.1.event_valid h4⟩
      · rw [if_pos h1, if_neg h2, if_neg h3]
        exact ⟨(by intro h; cases h), fun h => absurd h.1.sourceId_valid h3⟩
  · rw [if_neg h1]
    exact ⟨(by intro h; cases h), fun h => absurd h.1.sourceType_valid h1⟩

theorem idempotencyKey_joinPrefix (st sid ev h : Text) (n : ℕ) :
    idempotencyKey (joinPrefix st sid ev h) n =
      sepCons ':' st (sepCons ':' sid (sepCons ':' ev (sepCons ':' h (numeral n)))) := by
  simp [idempotencyKey, joinPrefix, sepCons, List.append_assoc]

theorem joinPrefix_colon (st sid ev h : Text) :
    joinPrefix st sid ev h ++ [':'] =
      sepCons ':' st (sepCons ':' sid (sepCons ':' ev (sepCons ':' h []))) := by
  simp [joinPrefix, sepCons, List.append_assoc]

theorem colon_notMem_numeral (n : ℕ) : ':' ∉ numeral n := notMem_numeral (by decide) n

/-- `prefix:` starts an event key exactly when the key carries the same four components. -/
theorem prefix_eventKey_iff {st sid ev h st' sid' ev' h' : Text} {n : ℕ}
    (hv : ValidPrefix st sid ev h) (hv' : ValidPrefix st' sid' ev' h') :
    joinPrefix st sid ev h ++ [':'] <+: idempotencyKey (joinPrefix st' sid' ev' h') n ↔
      st = st' ∧ sid = sid' ∧ ev = ev' ∧ h = h' := by
  rw [joinPrefix_colon, idempotencyKey_joinPrefix,
    sepCons_prefix_iff hv.sourceType_valid.2 hv'.sourceType_valid.2,
    sepCons_prefix_iff hv.sourceId_valid.2 hv'.sourceId_valid.2,
    sepCons_prefix_iff hv.event_valid.2 hv'.event_valid.2,
    sepCons_prefix_iff hv.chash_no_colon hv'.chash_no_colon]
  simp

/-- No event prefix starts a reversal key. -/
theorem not_prefix_reversalKey {st sid ev h : Text} (hv : ValidPrefix st sid ev h) (id : ℕ) :
    ¬ joinPrefix st sid ev h ++ [':'] <+: reversalKey id := by
  rw [joinPrefix_colon, reversalKey, sepCons_prefix_iff hv.sourceType_valid.2 (by decide)]
  exact fun hpre => hv.not_reversal hpre.1

theorem eventKey_ne_reversalKey {st sid ev h : Text} (hv : ValidPrefix st sid ev h) (n : ℕ) (id : ℕ) :
    idempotencyKey (joinPrefix st sid ev h) n ≠ reversalKey id := by
  intro heq
  rw [idempotencyKey_joinPrefix, reversalKey] at heq
  exact hv.not_reversal (sepCons_inj hv.sourceType_valid.2 (by decide) heq).1

theorem reversalKey_inj {a b : ℕ} (h : reversalKey a = reversalKey b) : a = b :=
  str_injective (sepCons_inj (by decide) (by decide) h).2

end Gdx
