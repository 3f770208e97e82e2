import GdxDispatch.Lib.Runs
import GdxDispatch.Proposals.Tiers

/-! A settled offer is not rewritten.

    Every write of a tier or of a line refuses an estimate its customer has settled, and so do both public routes. The
    office's accept does not look: it turns a declined estimate into an accepted one and an accepted one to another
    tier. A run keeps what was settled exactly when no office accept does either. -/

namespace Gdx.Proposals

open Lib

variable {p p' : Proposal} {tier row : ProposalTier} {call : TierCall} {tierId : ℕ}

/-! ### Prices of tiers -/

/-- A tier built from lines costs their sum. -/
def ProposalTier.Priced (tier : ProposalTier) : Prop := tier.lines ≠ [] → tier.totalPrice = tier.linesSum

/-- The tier table of an estimate. -/
structure Sound (p : Proposal) : Prop where
  keys : (p.tiers.map ProposalTier.id).Nodup
  fresh : ∀ t ∈ p.tiers, t.id < p.nextId
  priced : ∀ t ∈ p.tiers, t.Priced

@[simp] theorem resyncTierPrice_id (tier : ProposalTier) : (resyncTierPrice tier).id = tier.id := by
  unfold resyncTierPrice
  split
  · rfl
  · rfl

theorem resyncTierPrice_priced (tier : ProposalTier) : (resyncTierPrice tier).Priced := by
  unfold resyncTierPrice
  split
  · rename_i hflat
    exact fun h => absurd hflat h
  · exact fun _ => rfl

/-- One row is written in place, and ids may be handed out. -/
theorem Sound.put {n : ℕ} (h : Sound p) (hmem : tier ∈ p.tiers) (hid : row.id = tier.id) (hpriced : row.Priced)
    (hn : p.nextId ≤ n) : Sound { p with tiers := putRow ProposalTier.id p.tiers row, nextId := n } where
  keys := by
    rw [keys_putRow]
    exact h.keys
  fresh := fun t ht => by
    rcases mem_putRow.mp ht with ⟨ht, -⟩ | ⟨rfl, -⟩
    · exact (h.fresh t ht).trans_le hn
    · exact hid ▸ (h.fresh tier hmem).trans_le hn
  priced := fun t ht => by
    rcases mem_putRow.mp ht with ⟨ht, -⟩ | ⟨rfl, -⟩
    · exact h.priced t ht
    · exact hpriced

theorem Sound.add (h : Sound p) (payload : TierIn) :
    Sound { p with tiers := p.tiers ++ [payload.newTier p.nextId], nextId := p.nextId + 1 } where
  keys := by
    rw [List.map_append, List.map_singleton, List.nodup_append]
    refine ⟨h.keys, List.nodup_singleton _, ?_⟩
    rintro a ha b hb rfl
    obtain ⟨t, ht, rfl⟩ := List.mem_map.mp ha
    exact absurd (List.mem_singleton.mp hb) (h.fresh t ht).ne
  fresh := fun t ht => by
    rcases List.mem_append.mp ht with ht | ht
    · exact (h.fresh t ht).trans (Nat.lt_succ_self _)
    · rw [List.mem_singleton.mp ht]
      exact Nat.lt_succ_self _
  priced := fun t ht => by
    rcases List.mem_append.mp ht with ht | ht
    · exact h.priced t ht
    · rw [List.mem_singleton.mp ht]
      exact fun hlines => absurd rfl hlines

theorem Sound.remove (h : Sound p) (keep : ProposalTier → Bool) : Sound { p with tiers := p.tiers.filter keep } where
  keys := h.keys.sublist (List.filter_sublist.map _)
  fresh := fun t ht => h.fresh t (List.mem_of_mem_filter ht)
  priced := fun t ht => h.priced t (List.mem_of_mem_filter ht)

/-! ### What a call does -/

/-- The estimate accepted with a tier. -/
def Proposal.acceptedAs (p : Proposal) (now : ℤ) (tier : ProposalTier) : Proposal :=
  { p with
    status := .accepted
    acceptedAt := some now
    acceptedTierId := some tier.id
    total := tierContractSubtotal tier }

/-- What a call makes of an estimate: only the office's accept does not ask whether it is open. -/
inductive Did (p : Proposal) : TierCall → Proposal → Prop
  | same {call : TierCall} : Did p call p
  | tiers {call : TierCall} {ts : List ProposalTier} {n : ℕ} (hopen : p.finalized = false)
      (hsound : Sound p → Sound { p with tiers := ts, nextId := n }) : Did p call { p with tiers := ts, nextId := n }
  | office {now : ℤ} {tier : ProposalTier} (hrow : p.tier tier.id = some tier) :
      Did p (.officeAccept now tier.id) (p.acceptedAs now tier)
  | picked {now : ℤ} {tierId : Option ℕ} {tier : ProposalTier} (hopen : p.finalized = false)
      (hrow : p.tier tier.id = some tier) : Did p (.publicAccept now tierId) (p.acceptedAs now tier)
  | whole {now : ℤ} {tierId : Option ℕ} (hopen : p.finalized = false) :
      Did p (.publicAccept now tierId) { p with status := .accepted, acceptedAt := some now }
  | declined {now : ℤ} {reason stored : Option Text} (hopen : p.finalized = false) :
      Did p (.publicDecline now reason)
        { p with status := .declined, declinedAt := some now, declinedReason := stored }

theorem editableTier_ok (h : editableTier p tierId = .ok tier) : p.finalized = false ∧ p.tier tierId = some tier := by
  unfold editableTier at h
  split at h
  · cases h
  · rename_i hopen
    split at h
    · cases h
    · rename_i t hrow
      cases h
      exact ⟨by simpa using hopen, hrow⟩

/-- A tier written in place on an open estimate. -/
theorem Did.put (hopen : p.finalized = false) (hmem : tier ∈ p.tiers) (hid : row.id = tier.id)
    (hpriced : tier.Priced → row.Priced) : Did p call (p.put row) :=
  .tiers hopen fun h => h.put hmem hid (hpriced (h.priced tier hmem)) le_rfl

/-- Lines written and the price stored again. -/
theorem Did.relined {lines : List ProposalTierLine} (hedit : editableTier p tierId = .ok tier) :
    Did p call (p.put (resyncTierPrice { tier with lines := lines })) := by
  obtain ⟨hopen, hrow⟩ := editableTier_ok hedit
  exact .put hopen (mem_of_rowOf hrow) (resyncTierPrice_id _) fun _ => resyncTierPrice_priced _

theorem mem_of_scalarOneOrNone {α : Type} {rows : List α} {a : α} (h : scalarOneOrNone rows = .ok (some a)) :
    a ∈ rows := by
  unfold scalarOneOrNone at h
  split at h
  · cases h
  · cases h
    exact List.mem_singleton_self a
  · cases h

theorem TierIn.overwrite_id (payload : TierIn) (tier : ProposalTier) : (payload.overwrite tier).id = tier.id := by
  unfold TierIn.overwrite
  dsimp only
  split
  · rfl
  · exact resyncTierPrice_id _

theorem TierIn.overwrite_priced (payload : TierIn) (tier : ProposalTier) : (payload.overwrite tier).Priced := by
  unfold TierIn.overwrite
  dsimp only
  split
  · rename_i hflat
    exact fun h => absurd hflat h
  · exact resyncTierPrice_priced _

theorem addProposalTier_did {payload : TierIn} (h : addProposalTier p payload = .ok p') : Did p call p' := by
  unfold addProposalTier at h
  split at h
  · cases h
  · rename_i hopen
    have hopen : p.finalized = false := by simpa using hopen
    obtain ⟨found, hfound, h⟩ := except_bind_ok.mp h
    cases found with
    | none =>
      cases h
      exact .tiers hopen fun hs => hs.add payload
    | some tier =>
      cases h
      have hmem : tier ∈ p.tiers := List.mem_of_mem_filter (mem_of_scalarOneOrNone hfound)
      exact .put hopen hmem (payload.overwrite_id tier) fun _ => payload.overwrite_priced tier

theorem notNull_ok {α : Type} {stored v : α} (h : notNull stored none = .ok v) : v = stored := by
  cases h
  rfl

/-- Patching leaves the id and the lines, and the price where it was not sent. -/
theorem TierPatch.apply_ok {fields : TierPatch} (h : fields.apply tier = .ok row) :
    row.id = tier.id ∧ row.lines = tier.lines ∧ (fields.totalPrice = none → row.totalPrice = tier.totalPrice) := by
  obtain ⟨name, hname, h⟩ := except_bind_ok.mp h
  obtain ⟨price, hprice, h⟩ := except_bind_ok.mp h
  obtain ⟨months, hmonths, h⟩ := except_bind_ok.mp h
  obtain ⟨parts, hparts, h⟩ := except_bind_ok.mp h
  cases h
  refine ⟨rfl, rfl, fun hnone => ?_⟩
  rw [hnone] at hprice
  exact notNull_ok hprice

/-- A patch does not set the price of a tier built from lines. -/
theorem TierPatch.settable_priced {fields : TierPatch} (h : (fields.settable tier).apply tier = .ok row)
    (hpriced : tier.Priced) : row.Priced := by
  obtain ⟨-, hlines, hprice⟩ := TierPatch.apply_ok h
  intro hbuilt
  rw [hlines] at hbuilt
  have hdropped : (fields.settable tier).totalPrice = none := by rw [TierPatch.settable, if_neg hbuilt]
  rw [hprice hdropped, hpriced hbuilt, ProposalTier.linesSum, ProposalTier.linesSum, hlines]

theorem updateProposalTier_did {fields : TierPatch} (h : updateProposalTier p tierId fields = .ok p') :
    Did p call p' := by
  obtain ⟨tier, hedit, h⟩ := except_bind_ok.mp h
  obtain ⟨-, -, h⟩ := except_bind_ok.mp h
  obtain ⟨row, happly, h⟩ := except_bind_ok.mp h
  cases h
  obtain ⟨hopen, hrow⟩ := editableTier_ok hedit
  exact .put hopen (mem_of_rowOf hrow) (TierPatch.apply_ok happly).1 (TierPatch.settable_priced happly)

theorem deleteProposalTier_did (h : deleteProposalTier p tierId = .ok p') : Did p call p' := by
  obtain ⟨tier, hedit, h⟩ := except_bind_ok.mp h
  split at h
  · cases h
  · cases h
    exact .tiers (editableTier_ok hedit).1 fun hs => hs.remove _

theorem addTierLine_did {payload : TierLineIn} (h : addTierLine p tierId payload = .ok p') : Did p call p' := by
  obtain ⟨tier, hedit, h⟩ := except_bind_ok.mp h
  cases h
  obtain ⟨hopen, hrow⟩ := editableTier_ok hedit
  exact .tiers hopen fun hs =>
    hs.put (mem_of_rowOf hrow) (resyncTierPrice_id _) (resyncTierPrice_priced _) (Nat.le_succ _)

theorem updateTierLine_did {lineId : ℕ} {fields : TierLinePatch} (h : updateTierLine p tierId lineId fields = .ok p') :
    Did p call p' := by
  obtain ⟨tier, hedit, h⟩ := except_bind_ok.mp h
  obtain ⟨stored, -, h⟩ := except_bind_ok.mp h
  obtain ⟨row, -, h⟩ := except_bind_ok.mp h
  cases h
  exact .relined hedit

theorem deleteTierLine_did {lineId : ℕ} (h : deleteTierLine p tierId lineId = .ok p') : Did p call p' := by
  obtain ⟨tier, hedit, h⟩ := except_bind_ok.mp h
  obtain ⟨row, -, h⟩ := except_bind_ok.mp h
  cases h
  exact .relined hedit

theorem acceptTier_did {now : ℤ} (h : acceptTier p now tierId = .ok p') : Did p (.officeAccept now tierId) p' := by
  unfold acceptTier at h
  split at h
  · cases h
  · rename_i tier hrow
    cases h
    obtain rfl := key_of_rowOf hrow
    exact .office hrow

/-- Sent or bounced is open. -/
theorem finalized_of_answerable (h : ¬(p.status ≠ .sent ∧ p.status ≠ .rejected)) : p.finalized = false := by
  rw [not_and_or, not_not, not_not] at h
  rcases h with h | h
  · simp [Proposal.finalized, h]
  · simp [Proposal.finalized, h]

theorem publicTier_some {picked : Option ℕ} (h : publicTier p picked = .ok (some tier)) :
    p.tier tier.id = some tier := by
  unfold publicTier at h
  split at h
  · split at h
    · cases h
    · split at h
      · cases h
      · rename_i hrow
        cases h
        rw [key_of_rowOf hrow]
        exact hrow
  · split at h
    · cases h
    · cases h

theorem publicProposalAccept_did {now : ℤ} {picked : Option ℕ} (h : publicProposalAccept p now picked = .ok p') :
    Did p (.publicAccept now picked) p' := by
  unfold publicProposalAccept at h
  split at h
  · cases h
  · split at h
    · cases h
      exact .same
    · split at h
      · cases h
      · rename_i hstatus
        have hopen := finalized_of_answerable hstatus
        obtain ⟨found, hfound, h⟩ := except_bind_ok.mp h
        cases found with
        | none =>
          cases h
          exact .whole hopen
        | some tier =>
          cases h
          exact .picked hopen (publicTier_some hfound)

theorem publicProposalDecline_did {now : ℤ} {reason : Option Text} (h : publicProposalDecline p now reason = .ok p') :
    Did p (.publicDecline now reason) p' := by
  unfold publicProposalDecline at h
  split at h
  · cases h
  · split at h
    · cases h
      exact .same
    · split at h
      · cases h
      · rename_i hstatus
        cases h
        exact .declined (finalized_of_answerable hstatus)

theorem step_did (p : Proposal) (call : TierCall) : Did p call (p.step call) := by
  unfold Proposal.step
  split
  · rename_i p' h
    cases call with
    | addTier payload => exact addProposalTier_did h
    | updateTier tierId fields => exact updateProposalTier_did h
    | deleteTier tierId => exact deleteProposalTier_did h
    | addLine tierId payload => exact addTierLine_did h
    | updateLine tierId lineId fields => exact updateTierLine_did h
    | deleteLine tierId lineId => exact deleteTierLine_did h
    | officeAccept now tierId => exact acceptTier_did h
    | publicAccept now picked => exact publicProposalAccept_did h
    | publicDecline now reason => exact publicProposalDecline_did h
  · exact .same

/-! ### The settlement -/

/-- An estimate carries a tier only as accepted, and then the tier's price. -/
def AtContract (p : Proposal) : Prop :=
  ∀ id ∈ p.acceptedTierId, p.status = .accepted ∧ ∃ tier, p.tier id = some tier ∧ p.total = tierContractSubtotal tier

structure SameSettlement (p p' : Proposal) : Prop where
  status : p'.status = p.status
  acceptedTierId : p'.acceptedTierId = p.acceptedTierId
  total : p'.total = p.total

/-- The office accepts a tier of a settled estimate only where the estimate was accepted with that tier. -/
def KeepsSettlement (p : Proposal) : TierCall → Prop
  | .officeAccept _ tierId => p.finalized = true → (p.tier tierId).isSome →
      p.status = .accepted ∧ p.acceptedTierId = some tierId
  | _ => True

theorem Did.sound (h : Did p call p') (hs : Sound p) : Sound p' := by
  cases h with
  | same => exact hs
  | tiers _ hsound => exact hsound hs
  | office _ => exact ⟨hs.keys, hs.fresh, hs.priced⟩
  | picked _ _ => exact ⟨hs.keys, hs.fresh, hs.priced⟩
  | whole _ => exact ⟨hs.keys, hs.fresh, hs.priced⟩
  | declined _ => exact ⟨hs.keys, hs.fresh, hs.priced⟩

/-- An open estimate carries no tier. -/
theorem AtContract.no_tier (h : AtContract p) (hopen : p.finalized = false) : p.acceptedTierId = none := by
  cases hid : p.acceptedTierId with
  | none => rfl
  | some id =>
    have haccepted := (h id hid).1
    simp [Proposal.finalized, haccepted] at hopen

theorem acceptedAs_atContract {now : ℤ} (hrow : p.tier tier.id = some tier) : AtContract (p.acceptedAs now tier) := by
  rintro id hid
  cases hid
  exact ⟨rfl, tier, hrow, rfl⟩

theorem Did.atContract (h : Did p call p') (hat : AtContract p) : AtContract p' := by
  cases h with
  | same => exact hat
  | tiers hopen _ =>
    intro id hid
    rw [hat.no_tier hopen] at hid
    cases hid
  | office hrow => exact acceptedAs_atContract hrow
  | picked _ hrow => exact acceptedAs_atContract hrow
  | whole hopen =>
    intro id hid
    rw [hat.no_tier hopen] at hid
    cases hid
  | declined hopen =>
    intro id hid
    rw [hat.no_tier hopen] at hid
    cases hid

/-- A call that keeps the settlement leaves a settled estimate settled as it was. -/
theorem Did.settled (h : Did p call p') (hat : AtContract p) (hkeeps : KeepsSettlement p call)
    (hfinal : p.finalized = true) : SameSettlement p p' := by
  cases h with
  | same => exact ⟨rfl, rfl, rfl⟩
  | tiers hopen _ => simp [hfinal] at hopen
  | office hrow =>
    rename_i tier
    obtain ⟨haccepted, hid⟩ := hkeeps hfinal (by rw [hrow]; rfl)
    obtain ⟨-, contracted, hcontracted, htotal⟩ := hat tier.id hid
    obtain rfl : tier = contracted := Option.some.inj (hrow.symm.trans hcontracted)
    exact ⟨haccepted.symm, hid.symm, htotal.symm⟩
  | picked hopen _ => simp [hfinal] at hopen
  | whole hopen => simp [hfinal] at hopen
  | declined hopen => simp [hfinal] at hopen

/-- An office accept that keeps less rewrites the settlement. -/
theorem keepsSettlement_of_same (h : p.finalized = true → (p.step call).finalized = true → SameSettlement p (p.step call)) :
    KeepsSettlement p call := by
  cases call with
  | officeAccept now tierId =>
    intro hfinal hsome
    obtain ⟨tier, hrow⟩ := Option.isSome_iff_exists.mp hsome
    have hstep : p.step (.officeAccept now tierId) = { p with
        status := .accepted, acceptedAt := some now, acceptedTierId := some tierId, total := tierContractSubtotal tier } := by
      simp [Proposal.step, Proposal.call, acceptTier, hrow]
    rw [hstep] at h
    have hsame := h hfinal rfl
    exact ⟨hsame.status.symm, hsame.acceptedTierId.symm⟩
  | _ => trivial

theorem SameSettlement.finalized (h : SameSettlement p p') : p'.finalized = p.finalized := by
  rw [Proposal.finalized, Proposal.finalized, h.status]

theorem SameSettlement.trans {p'' : Proposal} (h : SameSettlement p p') (h' : SameSettlement p' p'') :
    SameSettlement p p'' :=
  ⟨h'.status.trans h.status, h'.acceptedTierId.trans h.acceptedTierId, h'.total.trans h.total⟩

theorem run_sound (hs : Sound p) (calls : List TierCall) : Sound (p.run calls) :=
  foldl_keeps (fun p call h => (step_did p call).sound h) hs

theorem run_atContract (hat : AtContract p) (calls : List TierCall) : AtContract (p.run calls) :=
  foldl_keeps (fun p call h => (step_did p call).atContract h) hat

theorem run_settled {calls : List TierCall} (hat : AtContract p) (h : Along Proposal.step KeepsSettlement p calls)
    (hfinal : p.finalized = true) : SameSettlement p (p.run calls) := by
  induction calls generalizing p with
  | nil => exact ⟨rfl, rfl, rfl⟩
  | cons call calls ih =>
    have hdid := step_did p call
    have hsame := hdid.settled hat h.1 hfinal
    exact hsame.trans (ih (hdid.atContract hat) h.2 (hsame.finalized.trans hfinal))

/-- An estimate as it is when it is offered: its tiers are priced, and it carries none as accepted. -/
structure Offered (p : Proposal) : Prop extends Sound p where
  unaccepted : p.acceptedTierId = none

/-- The three laws in every state of a run: tiers with lines cost their sum, an accepted tier's price is the total, and
    what is settled stays as it is to the end. -/
def NeverRewritten (p : Proposal) (calls : List TierCall) : Prop :=
  ∀ before after, calls = before ++ after →
    (∀ tier ∈ (p.run before).tiers, tier.lines ≠ [] → tier.totalPrice = tier.linesSum) ∧
    (∀ id ∈ (p.run before).acceptedTierId, (p.run before).status = .accepted →
      ∃ tier, (p.run before).tier id = some tier ∧ (p.run before).total = tierContractSubtotal tier) ∧
    ((p.run before).finalized = true → SameSettlement (p.run before) (p.run calls))

theorem run_append (p : Proposal) (before after : List TierCall) : p.run (before ++ after) = (p.run before).run after :=
  List.foldl_append

/-- A run rewrites no settled offer exactly when every office accept of a settled estimate repeats its tier. -/
theorem settled_offer_never_rewritten (p : Proposal) (calls : List TierCall) (hp : Offered p) :
    NeverRewritten p calls ↔ Along Proposal.step KeepsSettlement p calls := by
  have hat : AtContract p := fun id hid => by
    rw [hp.unaccepted] at hid
    cases hid
  constructor
  · intro hlaw
    refine along_iff.mpr fun before call after heq => keepsSettlement_of_same fun hfinal hfinal' => ?_
    -- both sides of the call agree with the end of the run
    have hstep : p.run (before ++ [call]) = (p.run before).step call := run_append p before [call]
    have hbefore := (hlaw before (call :: after) heq).2.2 hfinal
    have hafter := (hlaw (before ++ [call]) after (by simp [heq])).2.2 (hstep ▸ hfinal')
    rw [hstep] at hafter
    exact ⟨hafter.status.symm.trans hbefore.status, hafter.acceptedTierId.symm.trans hbefore.acceptedTierId,
      hafter.total.symm.trans hbefore.total⟩
  · rintro hkeeps before after rfl
    refine ⟨(run_sound hp.toSound before).priced, fun id hid _ => (run_atContract hat before id hid).2, fun hfinal => ?_⟩
    rw [run_append]
    exact run_settled (run_atContract hat before) (along_append.mp hkeeps).2 hfinal

/-! ### An estimate with two packages -/

/-- A sent estimate with a flat good tier for 500.00 and a better one for 800.00. -/
def twoPackages : Proposal where
  status := .sent
  acceptedTierId := none
  total := 0
  proposalMode := true
  sentAt := some 0
  acceptedAt := none
  declinedAt := none
  declinedReason := none
  deletedAt := none
  tiers := [(TierIn.mk .good none 500 12).newTier 0, (TierIn.mk .better none 800 24).newTier 1]
  nextId := 2

theorem twoPackages_offered : Offered twoPackages where
  keys := by decide
  fresh := by decide
  priced := by
    intro tier htier hlines
    simp only [twoPackages, List.mem_cons, List.not_mem_nil, or_false] at htier
    rcases htier with rfl | rfl
    · exact absurd rfl hlines
    · exact absurd rfl hlines
  unaccepted := rfl

theorem settled_offer_never_rewritten_repeated :
    NeverRewritten twoPackages [.publicAccept 5 (some 0), .officeAccept 6 0, .publicDecline 7 none] := by
  refine (settled_offer_never_rewritten _ _ twoPackages_offered).mpr ⟨trivial, fun _ _ => ?_, trivial, trivial⟩
  exact ⟨by decide +kernel, by decide +kernel⟩

/-- The customer takes the good package, and the office then accepts the better one. -/
theorem settled_offer_rewritten : ¬ ∀ p calls, Offered p → NeverRewritten p calls := by
  intro h
  have hlaw := h twoPackages [.publicAccept 5 (some 0), .officeAccept 6 1] twoPackages_offered
    [.publicAccept 5 (some 0)] [.officeAccept 6 1] rfl
  have hfinal : (twoPackages.run [.publicAccept 5 (some 0)]).finalized = true := by decide +kernel
  have hsame := (hlaw.2.2 hfinal).acceptedTierId
  have hrewritten : (twoPackages.run [.publicAccept 5 (some 0), .officeAccept 6 1]).acceptedTierId ≠
      (twoPackages.run [.publicAccept 5 (some 0)]).acceptedTierId := by decide +kernel
  exact hrewritten hsame

end Gdx.Proposals
