import GdxDispatch.Auth.Rotation

/-! Refresh rotation is linear, up to three races and a lapse.

    Between looking a token up and marking it used a request is alone only by luck: another that presents the same token
    there gets a pair of its own. A revocation likewise sees the family as it stands, not the tokens that requests under
    way have yet to put there. `Calm` says that neither happens, and that no key lapses too early; along calm runs
    every token is exchanged once, and what a revoked token was exchanged for is revoked with it. -/

namespace Gdx
open Lib

variable {clock : JwtClock} {s s' : Sessions} {j k c rid sub : ℕ} {ev : SessionEvent} {t new : RefreshToken}

namespace Sessions

/-- A revocation of this user has read the family and has not written yet. -/
def Revoking (s : Sessions) (sub : ℕ) : Prop :=
  ∃ rid ttl call members, s.flights rid = .revokeWrite sub ttl call members

/-- Another request is about to mark the token used. -/
def Contended (s : Sessions) (rid j : ℕ) : Prop := ∃ rid' t, rid' ≠ rid ∧ s.flights rid' = .mark t ∧ t.jti = j

/-- The step does not run into a race, and no key lapses in it that holds a token which can still be presented. -/
def Calm (clock : JwtClock) (s : Sessions) : SessionEvent → Prop
  | .login _ sub => ¬ s.Revoking sub
  | .run rid _ =>
    (∀ t, s.flights rid = .check t → t.jti ∉ s.used.smembers s.now → ¬ s.Contended rid t.jti ∧ ¬ s.Revoking t.sub) ∧
      ∀ sub ttl call, s.flights rid = .revokeRead sub ttl call → ∀ rid', ¬ (s.flights rid').Enters sub
  | .wait time =>
    { s with now := s.now + time }.KeptUsed clock ∧ { s with now := s.now + time }.KeptFamily clock
  | _ => True

/-- The steps of a run are calm. -/
def CalmRun (clock : JwtClock) : Sessions → List SessionEvent → Prop
  | _, [] => True
  | s, ev :: events => s.Calm clock ev ∧ CalmRun clock (s.step clock ev) events

/-- A refresh with this token would be let through. -/
def Usable (clock : JwtClock) (s : Sessions) (j : ℕ) : Prop :=
  ∃ t ∈ s.tokens, t.jti = j ∧ clock.accepts t.exp s.now = true ∧ j ∉ s.used.smembers s.now

/-! ### Exchanged once -/

/-- What was issued and what is in Redis, with the keys kept so far. -/
structure Sound (clock : JwtClock) (s : Sessions) : Prop where
  known : s.Known
  listed : s.Listed
  keptUsed : s.KeptUsed clock
  keptFamily : s.KeptFamily clock

theorem Sound.step (hs : s.Sound clock) (h : s.Does clock ev s') (hc : s.Calm clock ev) : s'.Sound clock := by
  obtain ⟨hk, hl, hu, hf⟩ := hs
  refine ⟨hk.step h, hl.step hk h, ?_, ?_⟩
  · by_cases hev : ∀ time, ev ≠ .wait time
    · exact hu.step h hk hl hev
    · obtain ⟨time, rfl⟩ := not_forall_not.mp hev
      cases h with
      | stay _ hev => exact absurd rfl (hev time)
      | revoke _ hev => exact absurd rfl (hev time)
      | wait => exact hc.1
  · by_cases hev : ∀ time, ev ≠ .wait time
    · exact hf.step h hl hev
    · obtain ⟨time, rfl⟩ := not_forall_not.mp hev
      cases h with
      | stay _ hev => exact absurd rfl (hev time)
      | revoke _ hev => exact absurd rfl (hev time)
      | wait => exact hc.2

/-- Every token is on its way to one exchange at most, and what is cached or answered is that exchange. -/
structure Linear (clock : JwtClock) (s : Sessions) : Prop where
  spent : ∀ j c, (j, c) ∈ s.exchanges → s.Gone clock j
  beyond : ∀ rid t, (s.flights rid).beyond = some t → s.Gone clock t.jti
  alone : ∀ rid rid' t t', (s.flights rid).minting = some t → (s.flights rid').minting = some t' → t.jti = t'.jti →
    rid = rid'
  unspent : ∀ rid t c, (s.flights rid).minting = some t → (t.jti, c) ∉ s.exchanges
  once : ∀ j c c', (j, c) ∈ s.exchanges → (j, c') ∈ s.exchanges → c = c'
  issued : ∀ j c, (j, c) ∈ s.exchanges → ∃ t ∈ s.tokens, ∃ new ∈ s.tokens, t.jti = j ∧ new.jti = c ∧ new.sub = t.sub
  carried : ∀ rid t new, (s.flights rid).pair = some (t, new) → (t.jti, new.jti) ∈ s.exchanges
  cached : ∀ j c, s.redemption j = some c → (j, c.refresh) ∈ s.exchanges
  answered : s.answers ⊆ s.exchanges

/-- A request that exchanges has made its mark, or is about to make it. -/
theorem mark_or_beyond {f : Stage} (hm : f.minting = some t) : f = .mark t ∨ f.beyond = some t := by
  cases f <;> grind [Stage.minting, Stage.beyond]

/-- In a calm step a request finds its token unused only while no other exchanges it, and it was not exchanged. -/
theorem Linear.pass (hl : s.Linear clock) (hs : s.Sound clock) (hc : s.Calm clock ev) (hf : s.flights rid = .check t)
    (hnew : t.jti ∉ s.used.smembers s.now) (hev : ev.runs = some rid) :
    (∀ c, (t.jti, c) ∉ s.exchanges) ∧ ∀ rid' t', (s.flights rid').minting = some t' → t'.jti = t.jti → rid' = rid := by
  refine ⟨fun c hex => hnew ((hl.spent _ c hex).found hs.keptUsed hf), fun rid' t' hm heq => ?_⟩
  by_contra hne
  obtain hmark | hbeyond := mark_or_beyond hm
  · cases ev <;> cases hev
    exact (hc.1 t hf hnew).1 ⟨rid', t', hne, hmark, heq⟩
  · have hgone := hl.beyond rid' t' hbeyond
    rw [heq] at hgone
    exact hnew (hgone.found hs.keptUsed hf)

theorem Linear.step (hl : s.Linear clock) (hs : s.Sound clock) (h : s.Does clock ev s') (hc : s.Calm clock ev) :
    s'.Linear clock := by
  have hgone : ∀ t ∈ s.tokens, s.Gone clock t.jti → s'.Gone clock t.jti :=
    fun t ht hg => hg.step h hs.keptUsed (hs.known.lt t ht)
  have hissue : ∀ rid t, s.flights rid = .issue t →
      (s.flights rid).minting = some t ∧ (s.flights rid).beyond = some t := by
    intro rid t hf
    rw [hf]
    exact ⟨rfl, rfl⟩
  refine ⟨?spent, ?beyond, ?alone, ?unspent, ?once, ?issued, ?carried, ?cached, ?answered⟩
  case spent =>
    intro j c hex
    obtain hold | ⟨rid, t, hf, heq, -⟩ := h.exchanges hex
    · obtain ⟨t, ht, -, -, rfl, -⟩ := hl.issued j c hold
      exact hgone t ht (hl.spent _ c hold)
    · cases heq
      exact hgone t (hs.known.minting rid t (hissue rid t hf).1) (hl.beyond rid t (hissue rid t hf).2)
  case beyond =>
    intro rid t hb
    obtain hold | hmem := h.beyond hb
    · have hm : (s.flights rid).minting = some t := by
        revert hold
        cases s.flights rid <;> grind [Stage.minting, Stage.beyond]
      exact hgone t (hs.known.minting rid t hm) (hl.beyond rid t hold)
    · exact .inl hmem
  case alone =>
    intro rid rid' t t' hm hm' heq
    obtain hold | ⟨hf, hnew, hev⟩ := h.minting hm
    · obtain hold' | ⟨hf', hnew', hev'⟩ := h.minting hm'
      · exact hl.alone rid rid' t t' hold hold' heq
      · exact (hl.pass hs hc hf' hnew' hev').2 rid t hold heq
    · obtain hold' | ⟨hf', hnew', hev'⟩ := h.minting hm'
      · exact ((hl.pass hs hc hf hnew hev).2 rid' t' hold' heq.symm).symm
      · exact Option.some.inj (hev.symm.trans hev')
  case unspent =>
    intro rid t c hm hex
    obtain hold | ⟨rid₀, t₀, hf₀, heq, hf₀', -, hev₀⟩ := h.exchanges hex
    · obtain hm | ⟨hf, hnew, hev⟩ := h.minting hm
      · exact hl.unspent rid t c hm hold
      · exact (hl.pass hs hc hf hnew hev).1 c hold
    · -- The request that exchanges now is the only one that could have, and is past it after the step.
      have hne : rid ≠ rid₀ := by
        rintro rfl
        rw [hf₀'] at hm
        cases hm
      have hjti : t.jti = t₀.jti := congrArg Prod.fst heq
      obtain hm | ⟨hf, hnew, hev⟩ := h.minting hm
      · exact hne (hl.alone rid rid₀ t t₀ hm (hissue rid₀ t₀ hf₀).1 hjti)
      · exact hne (Option.some.inj (hev.symm.trans hev₀))
  case once =>
    intro j c c' hex hex'
    obtain hold | ⟨rid, t, hf, heq, -⟩ := h.exchanges hex
    · obtain hold' | ⟨rid, t, hf, heq, -⟩ := h.exchanges hex'
      · exact hl.once j c c' hold hold'
      · cases heq
        exact absurd hold (hl.unspent rid t c (hissue rid t hf).1)
    · cases heq
      obtain hold' | ⟨rid', t', hf', heq', -⟩ := h.exchanges hex'
      · exact absurd hold' (hl.unspent rid t c' (hissue rid t hf).1)
      · exact (congrArg Prod.snd heq').symm
  case issued =>
    intro j c hex
    obtain hold | ⟨rid, t, hf, heq, -, htokens, -⟩ := h.exchanges hex
    · obtain ⟨t, ht, new, hnew, hj, hc, hsub⟩ := hl.issued j c hold
      exact ⟨t, h.tokens_subset.1 ht, new, h.tokens_subset.1 hnew, hj, hc, hsub⟩
    · cases heq
      have ht := hs.known.minting rid t (hissue rid t hf).1
      exact ⟨t, h.tokens_subset.1 ht, s.newToken t.sub, htokens ▸ List.mem_cons_self, rfl, rfl, rfl⟩
  case carried =>
    intro rid t new hp
    obtain hold | ⟨-, -, -, hex⟩ := h.pair hp
    · exact h.exchanges_subset (hl.carried rid t new hold)
    · exact hex
  case cached =>
    intro j c hr
    obtain ⟨b, hb, href⟩ | ⟨rid, t, new, hp, rfl, href⟩ := h.redemption hr
    · exact href ▸ h.exchanges_subset (hl.cached j b hb)
    · exact href ▸ h.exchanges_subset (hl.carried rid t new hp)
  case answered =>
    intro p hp
    obtain hold | ⟨c, hr, href⟩ | ⟨rid, t, new, hpair, rfl⟩ := h.answers hp
    · exact h.exchanges_subset (hl.answered hold)
    · have hex := hl.cached p.1 c hr
      rw [href] at hex
      exact h.exchanges_subset hex
    · exact h.exchanges_subset (hl.carried rid t new hpair)

/-! ### Revoked with its heirs -/

/-- A revocation can find every token that is not spent: in the family, or on the way there. While it writes, nothing
    is on the way; what it has revoked stays spent, with all that was exchanged for it. -/
structure Revocable (clock : JwtClock) (s : Sessions) : Prop where
  traced : ∀ t ∈ s.tokens, s.Gone clock t.jti ∨ t.jti ∈ (s.family t.sub).members ∨
    ∃ rid, (s.flights rid).joining = some t
  still : ∀ rid sub ttl call members, s.flights rid = .revokeWrite sub ttl call members →
    (∀ rid', ¬ (s.flights rid').Enters sub) ∧ ∀ j ∈ (s.family sub).members, j ∈ members ∨ s.Gone clock j
  issued : ∀ j ∈ s.revoked, ∃ t ∈ s.tokens, t.jti = j
  dead : ∀ j ∈ s.revoked, s.Gone clock j
  idle : ∀ rid t, (s.flights rid).minting = some t → t.jti ∉ s.revoked
  heirs : ∀ j c, (j, c) ∈ s.exchanges → j ∈ s.revoked → c ∈ s.revoked

theorem enters_of_minting {f : Stage} (hm : f.minting = some t) : f.Enters t.sub := by
  cases f <;> grind [Stage.minting, Stage.Enters]

/-- The family that a request joins is the one of its token. -/
theorem Known.enters_iff (hk : s.Known) (hjoin : (s.flights rid).joining = some t) :
    (s.flights rid).Enters sub ↔ t.sub = sub := by
  have hpair := hk.pair rid
  revert hjoin hpair
  cases s.flights rid <;> grind [Stage.joining, Stage.Enters, Stage.pair]

/-- When `revoke_user_sessions` returns, nobody is about to join the family, and its user's tokens are spent. -/
theorem Revocable.returns (hr : s.Revocable clock) (hs : s.Sound clock) (h : s.Does clock ev s')
    (hc : s.Calm clock ev) (hret : s.Returns s' ev sub) :
    (∀ rid, ¬ (s.flights rid).Enters sub) ∧ ∀ t ∈ s.tokens, t.sub = sub → s'.Gone clock t.jti := by
  obtain ⟨rid, ttl, hev, hret⟩ := hret
  have hstill : ∀ rid, ¬ (s.flights rid).Enters sub := by
    obtain ⟨hf, -⟩ | ⟨members, hf, -⟩ := hret
    · cases ev <;> cases hev
      exact hc.2 sub ttl true hf
    · exact (hr.still rid sub ttl true members hf).1
  refine ⟨hstill, ?_⟩
  rintro t ht rfl
  have hlt := hs.known.lt t ht
  obtain hgone | hfam | ⟨rid', hjoin⟩ := hr.traced t ht
  · exact hgone.step h hs.keptUsed hlt
  · by_cases hp : s.Presentable clock t.jti
    · obtain ⟨-, hnil⟩ | ⟨members, hf, hused⟩ := hret
      · have hmem : t.jti ∈ (s.family t.sub).smembers s.now := (hs.keptFamily t.sub).mem_current hfam hp
        rw [hnil] at hmem
        cases hmem
      · obtain hmem | hgone := (hr.still rid t.sub ttl true members hf).2 _ hfam
        · left
          rw [hused]
          exact RedisSet.mem_sadd_expire.mpr (.inl hmem)
        · exact hgone.step h hs.keptUsed hlt
    · exact .inr fun hp' => hp (h.presentable hlt hp')
  · exact absurd ((hs.known.enters_iff hjoin).mpr rfl) (hstill rid')

theorem Revocable.traced_step (hr : s.Revocable clock) (hs : s.Sound clock) (h : s.Does clock ev s')
    (ht : t ∈ s'.tokens) :
    s'.Gone clock t.jti ∨ t.jti ∈ (s'.family t.sub).members ∨ ∃ rid, (s'.flights rid).joining = some t := by
  obtain hold | hjoin := h.issued ht
  · have hlt := hs.known.lt t hold
    obtain hgone | hfam | ⟨rid, hjoin⟩ := hr.traced t hold
    · exact .inl (hgone.step h hs.keptUsed hlt)
    · by_cases hp : s.Presentable clock t.jti
      · obtain hmem | ⟨rid, ttl, call, members, hf, hused⟩ :=
          h.family_mono ((hs.keptFamily t.sub).mem_current hfam hp)
        · exact .inr (.inl hmem)
        · -- The family is deleted: what it held was read before, and goes into the used set.
          obtain hmem | hgone := (hr.still rid t.sub ttl call members hf).2 _ hfam
          · refine .inl (.inl ?_)
            rw [hused]
            exact RedisSet.mem_sadd_expire.mpr (.inl hmem)
          · exact .inl (hgone.step h hs.keptUsed hlt)
      · exact .inl (.inr fun hp' => hp (h.presentable hlt hp'))
    · obtain hstays | ⟨sub, henters, hmem⟩ := h.joined hjoin
      · exact .inr (.inr ⟨rid, hstays⟩)
      · rw [(hs.known.enters_iff hjoin).mp henters]
        exact .inr (.inl hmem)
  · exact .inr (.inr hjoin)

theorem Revocable.still_step (hr : s.Revocable clock) (hs : s.Sound clock) (h : s.Does clock ev s')
    (hc : s.Calm clock ev) {ttl : ℕ} {call : Bool} {members : List ℕ}
    (hf : s'.flights rid = .revokeWrite sub ttl call members) :
    (∀ rid', ¬ (s'.flights rid').Enters sub) ∧ ∀ j ∈ (s'.family sub).members, j ∈ members ∨ s'.Gone clock j := by
  obtain hold | ⟨hread, hev, rfl⟩ := h.revoking hf
  · obtain ⟨hstill, hfam⟩ := hr.still rid sub ttl call members hold
    have hrevoking : s.Revoking sub := ⟨rid, ttl, call, members, hold⟩
    refine ⟨fun rid' henters => ?_, fun j hj => ?_⟩
    · obtain hbefore | ⟨t, hf', rfl, hnew, hev⟩ | rfl := h.enters henters
      · exact hstill rid' hbefore
      · cases ev <;> cases hev
        exact (hc.1 t hf' hnew).2 hrevoking
      · exact hc hrevoking
    · obtain hbefore | ⟨rid', -, -, -, henters⟩ := h.family hj
      · exact (hfam j hbefore).imp_right fun hg => hg.step h hs.keptUsed (hs.listed.family sub j hbefore)
      · exact absurd henters (hstill rid')
  · cases ev <;> cases hev
    have hstill := hc.2 sub ttl call hread
    refine ⟨fun rid' henters => ?_, fun j hj => ?_⟩
    · obtain hbefore | ⟨t, hf', -, -, hev⟩ | hev := h.enters henters
      · exact hstill rid' hbefore
      · cases hev
        rw [hread] at hf'
        cases hf'
      · cases hev
    · obtain hbefore | ⟨rid', -, -, -, henters⟩ := h.family hj
      · by_cases hp : s.Presentable clock j
        · exact .inl ((hs.keptFamily sub).mem_current hbefore hp)
        · exact .inr (.inr fun hp' => hp (h.presentable (hs.listed.family sub j hbefore) hp'))
      · exact absurd henters (hstill rid')

theorem Revocable.step (hr : s.Revocable clock) (hl : s.Linear clock) (hs : s.Sound clock)
    (h : s.Does clock ev s') (hc : s.Calm clock ev) : s'.Revocable clock := by
  -- The request that returns is no other one.
  have hbusy : ∀ sub rid, s.Returns s' ev sub → ev.runs = some rid → (∀ t, s.flights rid ≠ .check t) ∧
      ∀ t, s.flights rid ≠ .issue t := by
    rintro sub rid ⟨rid₀, ttl, hev₀, hret⟩ hev
    obtain rfl := Option.some.inj (hev₀.symm.trans hev)
    constructor
    · rintro t hf
      rw [hf] at hret
      obtain ⟨hf, -⟩ | ⟨_, hf, -⟩ := hret <;> cases hf
    · rintro t hf
      rw [hf] at hret
      obtain ⟨hf, -⟩ | ⟨_, hf, -⟩ := hret <;> cases hf
  refine ⟨fun t ht => hr.traced_step hs h ht, fun rid sub ttl call members hf => hr.still_step hs h hc hf,
    fun j hj => ?issued, fun j hj => ?dead, fun rid t hm hj => ?idle, fun j c hex hj => ?heirs⟩
  case issued =>
    obtain hold | ⟨sub, -, ⟨t, ht, -, heq⟩, -⟩ := h.revoked hj
    · obtain ⟨t, ht, heq⟩ := hr.issued j hold
      exact ⟨t, h.tokens_subset.1 ht, heq⟩
    · exact ⟨t, h.tokens_subset.1 ht, heq⟩
  case dead =>
    obtain hold | ⟨sub, hret, ⟨t, ht, hsub, rfl⟩, -⟩ := h.revoked hj
    · obtain ⟨t, ht, rfl⟩ := hr.issued j hold
      exact (hr.dead _ hold).step h hs.keptUsed (hs.known.lt t ht)
    · exact (hr.returns hs h hc hret).2 t ht hsub
  case idle =>
    obtain hold | ⟨sub, hret, ⟨t', ht', hsub, heq⟩, -⟩ := h.revoked hj
    · obtain hm | ⟨hf, hnew, -⟩ := h.minting hm
      · exact hr.idle rid t hm hold
      · exact hnew ((hr.dead _ hold).found hs.keptUsed hf)
    · obtain hm | ⟨hf, -, hev⟩ := h.minting hm
      · obtain rfl := hs.known.inj t' ht' t (hs.known.minting rid t hm) heq
        exact (hr.returns hs h hc hret).1 rid (hsub ▸ enters_of_minting hm)
      · exact (hbusy sub rid hret hev).1 t hf
  case heirs =>
    obtain hold | ⟨sub, hret, ⟨t, ht, hsub, rfl⟩, hall⟩ := h.revoked hj
    · obtain hex | ⟨rid, t, hf, heq, -⟩ := h.exchanges hex
      · exact h.revoked_subset (hr.heirs j c hex hold)
      · cases heq
        exact absurd hold (hr.idle rid t (by rw [hf]; rfl))
    · obtain hex | ⟨rid, t', hf, -, -, -, hev⟩ := h.exchanges hex
      · obtain ⟨t', ht', new, hnew, heq, rfl, hsame⟩ := hl.issued _ c hex
        obtain rfl := hs.known.inj t' ht' t ht heq
        exact hall new hnew (hsame.trans hsub)
      · exact absurd hf ((hbusy sub rid hret hev).2 t')

/-! ### Runs -/

theorem sound_fresh (clock : JwtClock) (now : ℕ) : (fresh now).Sound clock :=
  ⟨⟨fun _ h => (nomatch h), fun _ h => (nomatch h), fun _ _ h => (nomatch h), fun _ _ h => (nomatch h),
      fun _ _ _ h => (nomatch h), fun _ _ h => (nomatch h), fun _ _ _ _ h => (nomatch h),
      fun _ _ _ _ _ h => (nomatch h)⟩,
    ⟨fun _ h => (nomatch h), fun _ _ h => (nomatch h), fun _ _ h => (nomatch h), fun _ _ _ _ _ h => (nomatch h)⟩,
    .inl rfl, fun _ => .inl rfl⟩

theorem linear_fresh (clock : JwtClock) (now : ℕ) : (fresh now).Linear clock :=
  ⟨fun _ _ h => (nomatch h), fun _ _ h => (nomatch h), fun _ _ _ _ h => (nomatch h), fun _ _ _ h => (nomatch h),
    fun _ _ _ h => (nomatch h), fun _ _ h => (nomatch h), fun _ _ _ h => (nomatch h), fun _ _ h => (nomatch h),
    fun _ h => (nomatch h)⟩

theorem revocable_fresh (clock : JwtClock) (now : ℕ) : (fresh now).Revocable clock :=
  ⟨fun _ h => (nomatch h), fun _ _ _ _ _ h => (nomatch h), fun _ h => (nomatch h), fun _ h => (nomatch h),
    fun _ _ h => (nomatch h), fun _ _ h => (nomatch h)⟩

/-- The three invariants hold along calm runs. -/
theorem CalmRun.keeps {events : List SessionEvent} (hs : s.Sound clock) (hl : s.Linear clock)
    (hr : s.Revocable clock) (hcalm : CalmRun clock s events) :
    (s.run clock events).Sound clock ∧ (s.run clock events).Linear clock ∧ (s.run clock events).Revocable clock := by
  induction events generalizing s with
  | nil => exact ⟨hs, hl, hr⟩
  | cons ev events ih =>
    have h := step_does clock s ev
    exact ih (hs.step h hcalm.1) (hl.step hs h hcalm.1) (hr.step hl hs h hcalm.1) hcalm.2

/-- A spent token cannot be used. -/
theorem Gone.not_usable (hg : s.Gone clock j) (hs : s.Sound clock) : ¬ s.Usable clock j := by
  rintro ⟨t, ht, rfl, hok, hnew⟩
  have hp : s.Presentable clock t.jti := .inl ⟨t, ht, rfl, hok⟩
  obtain hmem | hno := hg
  · exact hnew (hs.keptUsed.mem_current hmem hp)
  · exact hno hp

end Sessions

/-- Along every calm run from an empty store, and so in each of its states, a refresh token is exchanged once: any two
    answers to requests that presented it carry the same new token. And once `revoke_user_sessions` has returned, no
    exchange of a token that its user had before, under way meanwhile or not, has left a token that can be used. -/
theorem refresh_rotation_linear (clock : JwtClock) (now : ℕ) (events : List SessionEvent)
    (hcalm : Sessions.CalmRun clock (.fresh now) events) :
    (∀ j c c', (j, c) ∈ (Sessions.run clock (.fresh now) events).answers →
      (j, c') ∈ (Sessions.run clock (.fresh now) events).answers → c = c') ∧
    (∀ j c c', (j, c) ∈ (Sessions.run clock (.fresh now) events).exchanges →
      (j, c') ∈ (Sessions.run clock (.fresh now) events).exchanges → c = c') ∧
    ∀ j c, j ∈ (Sessions.run clock (.fresh now) events).revoked →
      (j, c) ∈ (Sessions.run clock (.fresh now) events).exchanges →
      ¬ (Sessions.run clock (.fresh now) events).Usable clock c := by
  obtain ⟨hs, hl, hr⟩ := hcalm.keeps (Sessions.sound_fresh clock now) (Sessions.linear_fresh clock now)
    (Sessions.revocable_fresh clock now)
  refine ⟨fun j c c' h h' => hl.once j c c' (hl.answered h) (hl.answered h'), hl.once, fun j c hj hex => ?_⟩
  exact (hr.dead c (hr.heirs j c hex hj)).not_usable hs

/-- A retry that looks the token up after the first request has marked it, and a revocation after both. -/
def calmRetry : List SessionEvent :=
  .login 0 5 :: .run 0 true :: .run 0 true :: .refresh 1 ⟨0, 5, REFRESH_TTL⟩ false :: .run 1 true :: .run 1 true ::
    .refresh 2 ⟨0, 5, REFRESH_TTL⟩ false :: .run 2 true ::
      (List.replicate 7 (.run 1 true) ++ [.run 2 true, .revoke 3 5, .run 3 true, .run 3 true])

theorem calmRetry_calm : Sessions.CalmRun pyJwt (.fresh 0) calmRetry := by
  unfold calmRetry
  simp [Sessions.CalmRun, Sessions.Calm, Sessions.step, Sessions.runFlight, Sessions.fresh, Sessions.fly,
    Sessions.issueTo, Sessions.setFamily, Sessions.newToken, Sessions.Contended, Sessions.Revoking, Stage.Enters,
    RedisSet.smembers, RedisSet.current, RedisSet.live, RedisSet.sadd, RedisSet.expire, RedisSet.empty, pyJwt,
    Function.update_apply, List.replicate, Option.filter, REFRESH_TTL, REVOKE_TTL, REFRESH_REPLAY_CACHE_TTL,
    REFRESH_REPLAY_LEEWAY_SECONDS]
  grind

theorem refresh_rotation_linear_retry :
    (Sessions.run pyJwt (.fresh 0) calmRetry).answers = [(0, 1), (0, 1)] ∧
      (Sessions.run pyJwt (.fresh 0) calmRetry).revoked = [1, 0] ∧
      ¬ (Sessions.run pyJwt (.fresh 0) calmRetry).Usable pyJwt 1 :=
  ⟨by decide +kernel, by decide +kernel,
    (refresh_rotation_linear pyJwt 0 calmRetry calmRetry_calm).2.2 0 1 (by decide +kernel) (by decide +kernel)⟩

/-- Two requests look one token up before either marks it. -/
def forkedRetry : List SessionEvent :=
  .login 0 5 :: .run 0 true :: .run 0 true :: .refresh 1 ⟨0, 5, REFRESH_TTL⟩ false ::
    .refresh 2 ⟨0, 5, REFRESH_TTL⟩ false :: .run 1 true :: .run 2 true ::
      (List.replicate 8 (.run 1 true) ++ List.replicate 8 (.run 2 true))

/-- A revocation begins and returns while a request has looked its token up and goes on. -/
def overtakenRefresh : List SessionEvent :=
  .login 0 5 :: .run 0 true :: .run 0 true :: .refresh 1 ⟨0, 5, REFRESH_TTL⟩ false :: .run 1 true ::
    .revoke 2 5 :: .run 2 true :: .run 2 true :: List.replicate 8 (.run 1 true)

theorem refresh_rotation_forks :
    ¬ (∀ j c c', (j, c) ∈ (Sessions.run pyJwt (.fresh 0) forkedRetry).answers →
      (j, c') ∈ (Sessions.run pyJwt (.fresh 0) forkedRetry).answers → c = c') ∧
    ¬ ∀ j c, j ∈ (Sessions.run pyJwt (.fresh 0) overtakenRefresh).revoked →
      (j, c) ∈ (Sessions.run pyJwt (.fresh 0) overtakenRefresh).answers →
      ¬ (Sessions.run pyJwt (.fresh 0) overtakenRefresh).Usable pyJwt c := by
  constructor
  · intro h
    exact absurd (h 0 1 2 (by decide +kernel) (by decide +kernel)) (by decide)
  · intro h
    refine h 0 1 (by decide +kernel) (by decide +kernel) ⟨⟨1, 5, REFRESH_TTL⟩, ?_, rfl, ?_, ?_⟩
    · decide +kernel
    · decide +kernel
    · decide +kernel

end Gdx
