import Mathlib.Data.List.Nodup
import GdxDispatch.Webhooks.Emit

/-! Events leave with their transaction.

    While the transaction is alive, the rows a session sees beyond the durable ones are those whose ids wait in it. The
    savepoints a caller has open change nothing about that, since no event is emitted inside one: each of them goes
    back to the rows that are seen now. So the commit sends what it makes durable, and a rollback takes both. -/

namespace Gdx
open Lib

variable {Data : Type} {digest : String → String} {s s' s₀ : EmitSession Data} {e : Emission Data}
  {ev : EmitEvent Data} {row : DeliveryRow} {outcome : RowOutcome} {staged : List ℕ}

namespace EmitSession

/-! ### The session -/

theorem release_eq (h : s.txn.frames ≠ []) :
    s.release = { s with txn := { s.txn with frames := s.txn.frames.tail } } := by
  have hnested : (!s.txn.frames.isEmpty) = true := by simpa using h
  unfold release dispatchPending
  rw [hnested]
  rfl

theorem release_iterate (n : ℕ) (hn : s.txn.frames.length = n) :
    release^[n] s = { s with txn := { s.txn with frames := [] } } := by
  induction n generalizing s with
  | zero =>
    have hnil : s.txn.frames = [] := List.length_eq_zero_iff.mp hn
    show s = { s with txn := { s.txn with frames := [] } }
    rw [← hnil]
  | succ n ih =>
    have hne : s.txn.frames ≠ [] := by
      intro hnil
      rw [hnil] at hn
      cases hn
    have htail : s.txn.frames.tail.length = n := by rw [List.length_tail, hn]; rfl
    rw [Function.iterate_succ_apply, release_eq hne]
    exact ih htail

theorem commit_eq (s : EmitSession Data) :
    s.commit = { s with
      txn := { s.txn with durable := s.txn.now, frames := [] }
      sent := s.sent.append s.pending
      pending := .none } := by
  unfold commit
  rw [release_iterate _ rfl]
  rfl

theorem rollbackNested_iterate (n : ℕ) (s : EmitSession Data) :
    (rollbackNested^[n] s).txn.durable = s.txn.durable ∧ (rollbackNested^[n] s).sent = s.sent ∧
      (rollbackNested^[n] s).nextId = s.nextId := by
  induction n generalizing s with
  | zero => exact ⟨rfl, rfl, rfl⟩
  | succ n ih => exact ih s.rollbackNested

theorem rollback_eq (s : EmitSession Data) :
    s.rollback = { s with txn := ⟨s.txn.durable, s.txn.durable, [], false⟩, pending := .none } := by
  obtain ⟨hdurable, hsent, hid⟩ := rollbackNested_iterate s.txn.frames.length s
  show EmitSession.mk _ _ _ _ = _
  simp only [Txn.rollback, hdurable, hsent, hid]

/-! ### Rows behind savepoints -/

/-- How far a fan-out has come since `s₀`: its rows are there and their ids staged, or the transaction is dead. -/
structure Grown (s₀ s : EmitSession Data) (staged : List ℕ) : Prop where
  frames : s.txn.frames = []
  durable : s.txn.durable = s₀.txn.durable
  pending : s.pending = s₀.pending
  sent : s.sent = s₀.sent
  nextId : s₀.nextId ≤ s.nextId
  rows : s.txn.dead = true ∧ s.txn.now = s₀.txn.durable ∨
    s.txn.dead = false ∧ ∃ added, s.txn.now = s₀.txn.now ++ added ∧ added.map (·.id) = staged ∧ staged.Nodup ∧
      ∀ id ∈ staged, s₀.nextId ≤ id ∧ id < s.nextId

theorem Grown.refl (hframes : s.txn.frames = []) (halive : s.txn.dead = false) : Grown s s [] :=
  ⟨hframes, rfl, rfl, rfl, le_rfl,
    .inr ⟨halive, [], (List.append_nil _).symm, rfl, List.nodup_nil, fun _ h => (nomatch h)⟩⟩

theorem Grown.stageRow (hg : Grown s₀ s staged) (hid : row.id = s.nextId) :
    Grown s₀ (s.stageRow row outcome).1 (staged ++ (s.stageRow row outcome).2.toList) := by
  obtain ⟨hframes, hdurable, hpending, hsent, hnext, hrows⟩ := hg
  have hbase : s.txn.base = s₀.txn.durable := by rw [Txn.base, hframes, ← hdurable]; rfl
  unfold EmitSession.stageRow
  obtain ⟨hdead, hnow⟩ | ⟨halive, added, hnow, hstaged, hnodup, hrange⟩ := hrows
  · rw [if_pos hdead]
    exact ⟨hframes, hdurable, hpending, hsent, hnext, .inl ⟨hdead, hnow⟩⟩
  · rw [if_neg (by rw [halive]; exact Bool.false_ne_true)]
    split
    · exact ⟨hframes, hdurable, hpending, hsent, hnext, .inl ⟨rfl, hbase⟩⟩
    · dsimp only
      split
      · -- The savepoint goes back to what was there before it.
        refine ⟨hframes, hdurable, hpending, hsent, hnext, .inr ⟨rfl, added, hnow, ?_, ?_, ?_⟩⟩
        · rw [hstaged]
          exact (List.append_nil _).symm
        · simpa using hnodup
        · intro id hid
          exact hrange id (by simpa using hid)
      · rw [release_eq (by exact List.cons_ne_nil _ _)]
        refine ⟨hframes, hdurable, hpending, hsent, hnext.trans (Nat.le_succ _), .inr ⟨halive, added ++ [row], ?_, ?_, ?_, ?_⟩⟩
        · show s.txn.now ++ [row] = _
          rw [hnow, List.append_assoc]
        · rw [List.map_append, hstaged]
          rfl
        · show (staged ++ [row.id]).Nodup
          have hlt : row.id ∉ staged := fun h => absurd (hrange _ h).2 (by rw [hid]; exact lt_irrefl _)
          rw [List.nodup_append]
          exact ⟨hnodup, List.nodup_singleton _, fun a ha b hb => by
            rw [List.mem_singleton.mp hb]
            rintro rfl
            exact hlt ha⟩
        · intro id hid'
          show s₀.nextId ≤ id ∧ id < s.nextId + 1
          obtain hold | hnew := List.mem_append.mp hid'
          · have := hrange id hold
            omega
          · have heq : id = row.id := List.mem_singleton.mp hnew
            omega

theorem Grown.stageRows (digest : String → String) (tenantId : String) (e : Emission Data) (subs : List Subscription)
    (hg : Grown s₀ s staged) :
    Grown s₀ (stageRows digest tenantId e s subs).1 (staged ++ (EmitSession.stageRows digest tenantId e s subs).2) := by
  induction subs generalizing s staged with
  | nil =>
    rw [EmitSession.stageRows, List.append_nil]
    exact hg
  | cons sub subs ih =>
    rw [EmitSession.stageRows]
    split
    · dsimp only
      rw [← List.append_assoc]
      exact ih (hg.stageRow rfl)
    · exact ih hg

/-! ### What waits is what was written -/

/-- The rows beyond the durable ones, with ids of their own, are those that wait. -/
structure New (s : EmitSession Data) (new : List DeliveryRow) : Prop where
  now : s.txn.now = s.txn.durable ++ new
  ids : new.map (·.id) = s.pending.deliveries
  nodup : s.pending.deliveries.Nodup
  fresh : ∀ row ∈ s.txn.durable, row.id ∉ s.pending.deliveries

/-- The ids that wait are those of the rows beyond the durable ones, unless the transaction is dead; the savepoints of
    callers go back to the rows that are there; and every id was given out once. -/
structure Staged (s : EmitSession Data) : Prop where
  frames : ∀ f ∈ s.txn.frames, f.saved = s.txn.now
  rows : s.txn.dead = true ∧ s.txn.frames = [] ∨ ∃ new, s.New new
  lt : ∀ row, row ∈ s.txn.now ∨ row ∈ s.txn.durable → row.id < s.nextId

/-- An emit comes only when the caller has no savepoint open. -/
def Outside (s : EmitSession Data) : EmitEvent Data → Prop
  | .emit _ => s.txn.frames = []
  | _ => True

def OutsideRun (digest : String → String) : EmitSession Data → List (EmitEvent Data) → Prop
  | _, [] => True
  | s, ev :: events => s.Outside ev ∧ OutsideRun digest (s.step digest ev) events

theorem Staged.base (hs : s.Staged) (hframes : s.txn.frames ≠ []) : s.txn.base = s.txn.now := by
  cases hf : s.txn.frames with
  | nil => exact absurd hf hframes
  | cons f rest =>
    rw [Txn.base, hf]
    exact hs.frames f (by rw [hf]; exact List.mem_cons_self)

theorem Staged.alive (hs : s.Staged) (h : s.txn.dead = false ∨ s.txn.frames ≠ []) : ∃ new, s.New new := by
  obtain ⟨hdead, hnil⟩ | hrows := hs.rows
  · obtain halive | hne := h
    · rw [hdead] at halive
      cases halive
    · exact absurd hnil hne
  · exact hrows

theorem Staged.emit (hs : s.Staged) (hframes : s.txn.frames = []) (halive : s.txn.dead = false) (tenantId : String)
    (subs : List Subscription) : (s.emit digest tenantId e subs).Staged := by
  obtain ⟨new, hnow, hids, hpend, hfresh⟩ := hs.alive (.inl halive)
  have hg := Grown.stageRows digest tenantId e subs (Grown.refl hframes halive)
  unfold EmitSession.emit
  generalize stageRows digest tenantId e s subs = r at hg ⊢
  obtain ⟨hframes', hdurable, hpending, -, hnext, hrows⟩ := hg
  have hlt : ∀ row ∈ s.txn.now ++ s.txn.durable, row.id < r.1.nextId := fun row hrow =>
    Nat.lt_of_lt_of_le (hs.lt row (List.mem_append.mp hrow)) hnext
  have hnone : ∀ f ∈ r.1.txn.frames, f.saved = r.1.txn.now := by
    rw [hframes']
    exact fun f hf => (nomatch hf)
  obtain ⟨hdead, hbase⟩ | ⟨-, added, hnow', hstaged, hnodup, hrange⟩ := hrows
  · refine ⟨hnone, .inl ⟨hdead, hframes'⟩, fun row hrow => hlt row (List.mem_append_right _ ?_)⟩
    change row ∈ r.1.txn.now ∨ row ∈ r.1.txn.durable at hrow
    rw [hbase, hdurable] at hrow
    exact hrow.elim id id
  · have hdeliveries : (r.1.pending.append ⟨r.2, pluginEvents digest tenantId e, workflowJobs tenantId e⟩).deliveries =
        s.pending.deliveries ++ r.2 := by
      rw [hpending]
      rfl
    -- A new id is past every id given out before.
    have hpast : ∀ row ∈ s.txn.now ++ s.txn.durable, ∀ id ∈ r.2, row.id ≠ id := by
      intro row hrow id hid
      have hold := hs.lt row (List.mem_append.mp hrow)
      have hnew := (hrange id hid).1
      omega
    refine ⟨hnone, .inr ⟨new ++ added, ?_, ?_, ?_, fun row hrow => ?_⟩, fun row hrow => ?_⟩
    · show r.1.txn.now = r.1.txn.durable ++ _
      rw [hnow', hnow, hdurable, List.append_assoc]
    · rw [hdeliveries, List.map_append, hids, hstaged]
      rfl
    · rw [hdeliveries, List.nodup_append]
      refine ⟨hpend, hnodup, fun a ha b hb => ?_⟩
      rw [← hids] at ha
      obtain ⟨row, hrow, rfl⟩ := List.mem_map.mp ha
      have hmem : row ∈ s.txn.now := hnow ▸ List.mem_append_right _ hrow
      exact hpast row (List.mem_append_left _ hmem) b hb
    · change row ∈ r.1.txn.durable at hrow
      rw [hdurable] at hrow
      rw [hdeliveries, List.mem_append, not_or]
      exact ⟨hfresh row hrow, fun hid => hpast row (List.mem_append_right _ hrow) row.id hid rfl⟩
    · change row ∈ r.1.txn.now ∨ row ∈ r.1.txn.durable at hrow
      rw [hnow', hdurable, List.mem_append] at hrow
      obtain (hold | hnew) | hold := hrow
      · exact hlt row (List.mem_append_left _ hold)
      · exact (hrange row.id (by rw [List.nil_append] at hstaged; exact hstaged ▸ List.mem_map_of_mem hnew)).2
      · exact hlt row (List.mem_append_right _ hold)

/-- What a savepoint or its end leaves as it is. -/
theorem Staged.same (hs : s.Staged) (hne : s.txn.dead = false ∨ s.txn.frames ≠ []) (hnow : s'.txn.now = s.txn.now)
    (hdurable : s'.txn.durable = s.txn.durable) (hpending : s'.pending = s.pending) (hid : s'.nextId = s.nextId)
    (hframes : ∀ f ∈ s'.txn.frames, f.saved = s.txn.now) : s'.Staged := by
  obtain ⟨new, hnow', hids, hnodup, hfresh⟩ := hs.alive hne
  refine ⟨fun f hf => (hframes f hf).trans hnow.symm, .inr ⟨new, ?_, ?_, ?_, ?_⟩, fun row hrow => ?_⟩
  · rw [hnow, hdurable, hnow']
  · rw [hpending, hids]
  · rw [hpending]
    exact hnodup
  · rw [hpending, hdurable]
    exact hfresh
  · rw [hid]
    rw [hnow, hdurable] at hrow
    exact hs.lt row hrow

theorem Staged.step (hs : s.Staged) (hout : s.Outside ev) : (s.step digest ev).Staged := by
  cases ev with
  | emit e =>
    show (s.emitDomainEvent digest e).Staged
    unfold emitDomainEvent
    split
    · split
      · exact hs
      · exact hs.emit hout ‹_› _ _
    · exact hs
  | savepoint =>
    simp only [EmitSession.step]
    split
    · exact hs
    · refine hs.same (.inl (Bool.eq_false_iff.mpr ‹_›)) rfl rfl rfl rfl fun f hf => ?_
      obtain rfl | hold := List.mem_cons.mp hf
      · rfl
      · exact hs.frames f hold
  | release =>
    simp only [EmitSession.step]
    split
    · exact hs
    · rename_i h
      rw [not_or] at h
      rw [release_eq h.2]
      exact hs.same (.inr h.2) rfl rfl rfl rfl fun f hf => hs.frames f (List.mem_of_mem_tail hf)
  | rollbackTo =>
    simp only [EmitSession.step]
    split
    · exact hs
    · exact hs.same (.inr ‹_›) (hs.base ‹_›) rfl rfl rfl fun f hf => hs.frames f (List.mem_of_mem_tail hf)
  | flushFails =>
    simp only [EmitSession.step]
    split
    · exact hs
    · by_cases hframes : s.txn.frames = []
      · have hbase : s.flushFails.txn.now = s.txn.durable := by
          show s.txn.base = _
          rw [Txn.base, hframes]
          rfl
        refine ⟨fun f hf => ?_, .inl ⟨rfl, hframes⟩, fun row hrow => ?_⟩
        · have hf' : f ∈ s.txn.frames := hf
          rw [hframes] at hf'
          cases hf'
        · rw [hbase] at hrow
          exact hs.lt row (.inr (hrow.elim id id))
      · exact hs.same (.inr hframes) (hs.base hframes) rfl rfl rfl fun f hf => hs.frames f hf
  | commit =>
    simp only [EmitSession.step]
    split
    · exact hs
    · rw [commit_eq]
      exact ⟨fun f hf => (nomatch hf),
        .inr ⟨[], (List.append_nil _).symm, rfl, List.nodup_nil, fun _ _ h => (nomatch h)⟩,
        fun row hrow => hs.lt row (.inl (hrow.elim id id))⟩
  | rollback =>
    show s.rollback.Staged
    rw [rollback_eq]
    exact ⟨fun f hf => (nomatch hf),
      .inr ⟨[], (List.append_nil _).symm, rfl, List.nodup_nil, fun _ _ h => (nomatch h)⟩,
      fun row hrow => hs.lt row (.inr (hrow.elim id id))⟩

theorem staged_start (rows : List DeliveryRow) : (start rows : EmitSession Data).Staged := by
  refine ⟨fun f hf => (nomatch hf),
    .inr ⟨[], (List.append_nil _).symm, rfl, List.nodup_nil, fun _ _ h => (nomatch h)⟩, fun row hrow => ?_⟩
  have hmem : row ∈ rows := hrow.elim id id
  show row.id < rows.foldr (fun row n => max (row.id + 1) n) 0
  clear hrow
  induction rows with
  | nil => cases hmem
  | cons first rows ih =>
    obtain rfl | hold := List.mem_cons.mp hmem
    · exact Nat.lt_of_lt_of_le (Nat.lt_succ_self _) (Nat.le_max_left _ _)
    · exact Nat.lt_of_lt_of_le (ih hold) (Nat.le_max_right _ _)

/-! ### Runs -/

/-- An emit that is carried out stages its plugin event and its workflow job behind what waits, whatever its rows do. -/
theorem pending_emit (digest : String → String) (e : Emission Data) (hframes : s.txn.frames = []) (halive : s.txn.dead = false) (tenantId : String)
    (subs : List Subscription) :
    (s.emit digest tenantId e subs).pending.plugins = s.pending.plugins ++ pluginEvents digest tenantId e ∧
      (s.emit digest tenantId e subs).pending.workflows = s.pending.workflows ++ workflowJobs tenantId e ∧
      s.pending.deliveries <+: (s.emit digest tenantId e subs).pending.deliveries ∧
      (s.emit digest tenantId e subs).sent = s.sent ∧
      (s.emit digest tenantId e subs).txn.durable = s.txn.durable := by
  have hg := Grown.stageRows digest tenantId e subs (Grown.refl hframes halive)
  unfold EmitSession.emit
  generalize stageRows digest tenantId e s subs = r at hg ⊢
  obtain ⟨-, hdurable, hpending, hsent, -, -⟩ := hg
  refine ⟨?_, ?_, ?_, hsent, hdurable⟩
  · exact congrArg (fun work : EventWork Data => work.plugins ++ _) hpending
  · exact congrArg (fun work : EventWork Data => work.workflows ++ _) hpending
  · show s.pending.deliveries <+: r.1.pending.deliveries ++ r.2
    rw [hpending]
    exact List.prefix_append _ _

/-- Nothing of the first is missing in the second. -/
structure KeptIn (a b : EventWork Data) : Prop where
  deliveries : a.deliveries <+: b.deliveries
  plugins : a.plugins <+: b.plugins
  workflows : a.workflows <+: b.workflows

theorem KeptIn.refl (a : EventWork Data) : KeptIn a a :=
  ⟨List.prefix_refl _, List.prefix_refl _, List.prefix_refl _⟩

/-- Short of the end of the transaction nothing is sent, made durable or dropped. -/
theorem step_keeps (digest : String → String) (hout : s.Outside ev) (hcommit : ev ≠ .commit ∨ s.txn.dead = true) (hrollback : ev ≠ .rollback) :
    (s.step digest ev).sent = s.sent ∧ (s.step digest ev).txn.durable = s.txn.durable ∧
      KeptIn s.pending (s.step digest ev).pending := by
  have hsame : s.sent = s.sent ∧ s.txn.durable = s.txn.durable ∧ KeptIn s.pending s.pending :=
    ⟨rfl, rfl, .refl _⟩
  cases ev with
  | emit e =>
    show (s.emitDomainEvent digest e).sent = _ ∧ (s.emitDomainEvent digest e).txn.durable = _ ∧
      KeptIn s.pending (s.emitDomainEvent digest e).pending
    unfold emitDomainEvent
    split
    · split
      · exact hsame
      · obtain ⟨hplugins, hworkflows, hdeliveries, hsent, hdurable⟩ :=
          pending_emit digest e hout ‹_› _ _
        exact ⟨hsent, hdurable, hdeliveries, hplugins ▸ List.prefix_append _ _, hworkflows ▸ List.prefix_append _ _⟩
    · exact hsame
  | savepoint =>
    simp only [EmitSession.step]
    split <;> exact hsame
  | release =>
    simp only [EmitSession.step]
    split
    · exact hsame
    · rename_i h
      rw [not_or] at h
      rw [release_eq h.2]
      exact hsame
  | rollbackTo =>
    simp only [EmitSession.step]
    split <;> exact hsame
  | flushFails =>
    simp only [EmitSession.step]
    split <;> exact hsame
  | commit =>
    obtain hne | hdead := hcommit
    · exact absurd rfl hne
    · rw [show s.step digest .commit = s from if_pos hdead]
      exact hsame
  | rollback => exact absurd rfl hrollback

theorem OutsideRun.keeps {events : List (EmitEvent Data)} (hs : s.Staged) (hout : OutsideRun digest s events) :
    (s.run digest events).Staged := by
  induction events generalizing s with
  | nil => exact hs
  | cons ev events ih => exact ih (hs.step hout.1) hout.2

theorem outsideRun_snoc {before : List (EmitEvent Data)} (h : OutsideRun digest s (before ++ [ev])) :
    OutsideRun digest s before ∧ (s.run digest before).Outside ev := by
  induction before generalizing s with
  | nil => exact ⟨trivial, h.1⟩
  | cons first before ih =>
    obtain ⟨hbefore, hlast⟩ := ih h.2
    exact ⟨⟨h.1, hbefore⟩, hlast⟩

end EmitSession

/-- In every session whose events are emitted outside the callers' savepoints, after any run `before` and at the next
    event `ev`. A commit sends the ids of the rows it makes durable, each once, and all plugin events and workflow jobs
    that wait; nothing else sends anything. Until the transaction ends nothing that waits is dropped, and while it is
    alive the rows that were written are those that wait, whatever became of other rows. An emit that is carried out
    stages its plugin event and its workflow job. -/
theorem events_leave_with_their_transaction (digest : String → String) (rows : List DeliveryRow)
    (before : List (EmitEvent Data)) (ev : EmitEvent Data)
    (hout : EmitSession.OutsideRun digest (.start rows) (before ++ [ev])) (s s' : EmitSession Data)
    (hs : EmitSession.run digest (.start rows) before = s) (hs' : s.step digest ev = s') :
    (ev = .commit → s.txn.dead = false → ∃ new, s'.txn.durable = s.txn.durable ++ new ∧
      s'.sent.deliveries = s.sent.deliveries ++ new.map (·.id) ∧ (new.map (·.id)).Nodup ∧
      (∀ row ∈ s.txn.durable, row.id ∉ new.map (·.id)) ∧ s'.sent.plugins = s.sent.plugins ++ s.pending.plugins ∧
      s'.sent.workflows = s.sent.workflows ++ s.pending.workflows ∧ s'.pending = .none) ∧
    (ev ≠ .commit ∨ s.txn.dead = true → s'.sent = s.sent ∧ s'.txn.durable = s.txn.durable) ∧
    (ev ≠ .commit ∨ s.txn.dead = true → ev ≠ .rollback → EmitSession.KeptIn s.pending s'.pending) ∧
    (s'.txn.dead = false → ∃ new, s'.txn.now = s'.txn.durable ++ new ∧
      new.map (·.id) = s'.pending.deliveries) ∧
    ∀ e tenantId subs, ev = .emit e → e.suppress = false → e.tenantId = some tenantId → tenantId ≠ "" →
      e.subscriptions = some subs → s.txn.dead = false →
      s'.pending.plugins = s.pending.plugins ++ EmitSession.pluginEvents digest tenantId e ∧
      s'.pending.workflows = s.pending.workflows ++ EmitSession.workflowJobs tenantId e := by
  obtain ⟨hbefore, hlast⟩ := EmitSession.outsideRun_snoc hout
  have hst := hbefore.keeps (EmitSession.staged_start rows)
  rw [hs] at hlast hst
  subst hs'
  refine ⟨?_, fun hcommit => ?_, fun hcommit hrollback => ?_, fun halive => ?_, ?_⟩
  · rintro rfl halive
    obtain ⟨new, hnow, hids, hnodup, hfresh⟩ := hst.alive (.inl halive)
    have hstep : s.step digest .commit = s.commit := if_neg (by rw [halive]; exact Bool.false_ne_true)
    rw [hstep, EmitSession.commit_eq]
    refine ⟨new, hnow, ?_, hids ▸ hnodup, hids ▸ hfresh, rfl, rfl, rfl⟩
    rw [hids]
    rfl
  · by_cases hrollback : ev = .rollback
    · subst hrollback
      show s.rollback.sent = _ ∧ s.rollback.txn.durable = _
      rw [EmitSession.rollback_eq]
      exact ⟨rfl, rfl⟩
    · obtain ⟨hsent, hdurable, -⟩ := EmitSession.step_keeps digest hlast hcommit hrollback
      exact ⟨hsent, hdurable⟩
  · exact (EmitSession.step_keeps digest hlast hcommit hrollback).2.2
  · obtain ⟨new, hnow, hids, -, -⟩ := (hst.step hlast).alive (.inl halive)
    exact ⟨new, hnow, hids⟩
  · rintro e tenantId subs rfl hsuppress htenant hne hsubs halive
    have hstep : s.step digest (.emit e) = s.emit digest tenantId e subs := by
      show s.emitDomainEvent digest e = _
      unfold EmitSession.emitDomainEvent
      rw [hsuppress, htenant, hsubs, halive]
      exact if_neg hne
    rw [hstep]
    obtain ⟨hplugins, hworkflows, -⟩ := EmitSession.pending_emit digest e hlast halive tenantId subs
    exact ⟨hplugins, hworkflows⟩

/-- An invoice is paid; one subscription takes the row, another one's insert fails, and some plugin has consented. -/
def paidTwice : Emission Unit :=
  ⟨"invoice.paid", "inv-1", (), some "gdx", false, "2026-01-01",
    some [⟨"a", some ["invoice.paid"], .flushed⟩, ⟨"b", some ["invoice.paid"], .rejected⟩], true, true⟩

/-- It is emitted twice, with a savepoint of the caller's rolled back in between. -/
def reemit : List (EmitEvent Unit) := [.emit paidTwice, .savepoint, .rollbackTo, .emit paidTwice]

theorem events_leave_with_their_transaction_reemit :
    ∃ new, (((EmitSession.start []).run id reemit).step id .commit).txn.durable =
        ((EmitSession.start []).run id reemit).txn.durable ++ new ∧
      (((EmitSession.start []).run id reemit).step id .commit).sent.deliveries =
        ((EmitSession.start []).run id reemit).sent.deliveries ++ new.map (·.id) ∧
      (((EmitSession.start []).run id reemit).step id .commit).sent.deliveries = [0] ∧
      (((EmitSession.start []).run id reemit).step id .commit).sent.plugins.length = 2 := by
  have hsecond : (((EmitSession.start []).run id [.emit paidTwice, .savepoint, .rollbackTo]).txn.frames = []) := by
    decide +kernel
  have hout : EmitSession.OutsideRun id (EmitSession.start []) (reemit ++ [.commit]) :=
    ⟨rfl, trivial, trivial, hsecond, trivial, trivial⟩
  obtain ⟨new, hdurable, hdeliveries, -⟩ :=
    (events_leave_with_their_transaction id [] reemit .commit hout _ _ rfl rfl).1 rfl (by decide +kernel)
  exact ⟨new, hdurable, hdeliveries, by decide +kernel, by decide +kernel⟩

end Gdx
