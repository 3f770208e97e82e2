import GdxDispatch.Offline.SentOnce

/-! No queued write is lost silently.

    A row that is not waiting to be sent and not listed for the tech was landed, thrown to its caller, or retired for a
    reason: a newer row of its kind is on the server, or someone else closed the job after it was made. Reasons only
    accumulate, so a step keeps every row accounted for when it does so for the rows it touches. Four things break
    this: a page that dies between filing a refusal and throwing it, a retry that writes from a stale reading, a
    closeout retired because of this phone's own one, and a purge that read an older row as on the wire. -/

namespace Gdx

open Lib

/-! ### Situations of a row -/

/-- The refusal of the row was thrown to its caller, or is being thrown. -/
def Phone.told (s : Phone) (id : ℕ) : Prop := id ∈ s.thrown ∨ ∃ p, s.page = some p ∧ id ∈ p.throwing

/-- The row was retired while a newer one was `SYNCED`, or after the server reported someone else's closeout. -/
def Phone.retired (s : Phone) (id : ℕ) : Prop :=
  ∃ record ∈ s.retirements, record.row.id = id ∧ (record.newerSynced = true ∨ record.reported = true)

/-- Where a queued row is: waiting or on the wire, landed, listed for the tech, thrown to its caller, or retired. -/
def Phone.accountsFor (s : Phone) (id : ℕ) : Prop :=
  match s.rows.find? fun r => decide (r.id = id) with
  | some r =>
    r.status = .pending ∨ r.status = .syncing ∨ r.status = .synced ∨
      (r.status = .failed ∧ (r.acknowledged = false ∨ s.told id ∨ (r.superseded = true ∧ s.retired id)))
  | none => (∃ b ∈ s.landed, b.id = id) ∨ s.told id ∨ s.retired id

/-- Every closeout of the job this phone sent that took effect after the row was made is a newer one, and its row is
    `SYNCED`. -/
def Phone.ownCloseoutsSettled (s : Phone) (r : QueueRow) : Prop :=
  ∀ row time, Effect.own row time ∈ s.effects → row.isCloseout = true → row.resourceId = r.resourceId →
    r.createdAt < time → r.id < row.id ∧ ∃ o ∈ s.rows, o.id = row.id ∧ o.status = .synced

/-- A tidy step that does not come at a bad moment. -/
def Phone.sound (s : Phone) (action : QueueAction) : Prop :=
  s.tidy action ∧ match action with
    | .die => ∀ p, s.page = some p → p.throwing = []
    | .retryStep (.walking (r :: _) all) true => retryMove r all = .ask → s.ownCloseoutsSettled r
    | .purgeStep task => ∀ o ∈ s.rows, task.drops o = true → o.superseded = true →
        ∀ u ∈ task.all, u.status = .syncing → u.id < o.id → o.sameKind u = false
    | _ => True

def Phone.soundRun (s : Phone) : List QueueAction → Prop
  | [] => True
  | action :: rest => s.sound action ∧ ∀ s', s.step action = some s' → s'.soundRun rest

/-- The rows that took effect, with the times. -/
def Phone.ownEffects (s : Phone) : List (QueueRow × ℕ) := s.effects.filterMap fun e => match e with
  | .own row time => some (row, time)
  | .other _ _ => none

theorem mem_ownEffects {s : Phone} {row : QueueRow} {time : ℕ} : (row, time) ∈ s.ownEffects ↔ .own row time ∈ s.effects := by
  unfold Phone.ownEffects
  rw [List.mem_filterMap]
  constructor
  · rintro ⟨e, he, heq⟩
    cases e with
    | own r t =>
      cases heq
      exact he
    | other job t => cases heq
  · exact fun h => ⟨_, h, rfl⟩

instance (s : Phone) (r : QueueRow) : Decidable (s.ownCloseoutsSettled r) :=
  decidable_of_iff (∀ own ∈ s.ownEffects, own.1.isCloseout = true → own.1.resourceId = r.resourceId →
      r.createdAt < own.2 → r.id < own.1.id ∧ ∃ o ∈ s.rows, o.id = own.1.id ∧ o.status = .synced)
    ⟨fun h row time he => h (row, time) (mem_ownEffects.mpr he), fun h own he => h own.1 own.2 (mem_ownEffects.mp he)⟩

instance (s : Phone) (action : QueueAction) : Decidable (s.sound action) := by
  unfold Phone.sound
  refine @instDecidableAnd _ _ inferInstance ?_
  split
  · exact inferInstanceAs (Decidable (∀ p ∈ s.page, p.throwing = []))
  all_goals infer_instance

instance Phone.decidableSoundRun : ∀ (s : Phone) (actions : List QueueAction), Decidable (s.soundRun actions)
  | _, [] => .isTrue trivial
  | s, action :: rest =>
    match h : s.step action with
    | none => decidable_of_iff (s.sound action) ⟨fun ht => ⟨ht, fun s' hs => by rw [h] at hs; cases hs⟩, And.left⟩
    | some mid =>
      have := Phone.decidableSoundRun mid rest
      decidable_of_iff (s.sound action ∧ mid.soundRun rest)
        ⟨fun hall => ⟨hall.1, fun s' hs => by rw [h] at hs; cases hs; exact hall.2⟩, fun hall => ⟨hall.1, hall.2 mid h⟩⟩

/-! ### Reasons to retire a row -/

/-- A newer row of its kind landed, or the server reported someone else's closeout made after it. -/
def Phone.overruled (s : Phone) (r : QueueRow) : Prop :=
  (∃ b ∈ s.landed, r.id < b.id ∧ r.kind = b.kind ∧ r.kind ≠ none) ∨ s.reported r = true

theorem supersedeGroup_closeout {actionType : Text} :
    supersedeGroup actionType = some .closeout ↔ actionType = "job.closeout".toList := by
  unfold supersedeGroup
  constructor
  · intro h
    split at h
    · assumption
    · split at h
      · cases h
      · split at h
        · cases h
        · split at h
          · cases h
          · split at h <;> cases h
  · intro h
    rw [if_pos h]

theorem isCloseout_iff {r : QueueRow} : r.isCloseout = true ↔ r.actionType = "job.closeout".toList := by
  unfold QueueRow.isCloseout
  exact decide_eq_true_iff

/-- Two rows of one kind are closeouts of one job or neither is one. -/
theorem closeout_of_kind {x o : QueueRow} (hkind : x.kind = o.kind) (ho : o.isCloseout = true) :
    x.isCloseout = true ∧ x.resourceId = o.resourceId := by
  have hgroup : supersedeGroup o.actionType = some .closeout :=
    supersedeGroup_closeout.mpr (isCloseout_iff.mp ho)
  unfold QueueRow.kind at hkind
  rw [hgroup, Option.map_some] at hkind
  obtain ⟨group, hx, heq⟩ := Option.map_eq_some_iff.mp hkind
  simp only [Prod.mk.injEq] at heq
  rw [heq.1] at hx
  exact ⟨isCloseout_iff.mpr (supersedeGroup_closeout.mp hx), heq.2⟩

section Reasons
variable {s s' : Phone} {x o : QueueRow}

/-- What overrules a row overrules an older one of its kind. -/
theorem Phone.overruled.older (h : s.overruled o) (hlt : x.id < o.id) (hkind : x.kind = o.kind) (hnone : x.kind ≠ none)
    (hborn : x.createdAt ≤ o.createdAt) : s.overruled x := by
  rcases h with ⟨b, hb, hbo, hbkind, -⟩ | hreport
  · exact Or.inl ⟨b, hb, by omega, hkind.trans hbkind, hnone⟩
  · refine Or.inr ?_
    unfold Phone.reported at hreport ⊢
    rw [Bool.and_eq_true, List.any_eq_true] at hreport ⊢
    obtain ⟨hclose, report, hmem, hmatch⟩ := hreport
    obtain ⟨hxclose, hjob⟩ := closeout_of_kind hkind hclose
    simp only [Bool.and_eq_true, decide_eq_true_eq] at hmatch
    refine ⟨hxclose, report, hmem, ?_⟩
    simp only [Bool.and_eq_true, decide_eq_true_eq]
    exact ⟨hmatch.1.trans hjob.symm, by omega⟩

end Reasons

/-! ### Every row accounted for -/

/-- What was known of a row by its status and flags. -/
structure RowAccounted (s : Phone) (r : QueueRow) : Prop where
  landed : r.status = .synced → ∃ b ∈ s.landed, b.id = r.id ∧ b.kind = r.kind
  refused : r.status = .failed → r.acknowledged = true → r.superseded = false → s.told r.id
  retired : r.status = .failed → r.superseded = true → s.retired r.id
  overruled : r.superseded = true → s.overruled r

/-- The rows a retry compares with. -/
def RetryTask.all : RetryTask → List QueueRow
  | .reading _ => []
  | .walking _ all => all
  | .asked _ _ _ all => all

/-- What a retry has read still holds. -/
structure TaskAccounted (s : Phone) (task : RetryTask) : Prop where
  rows : ∀ r ∈ task.rows, r.id < s.nextId ∧ ∀ x ∈ s.rows, x.id = r.id →
    x.actionType = r.actionType ∧ x.resourceId = r.resourceId ∧ x.createdAt = r.createdAt
  all : ∀ o ∈ task.all, o.id < s.nextId ∧ (o.status = .synced → ∃ b ∈ s.landed, b.id = o.id ∧ b.kind = o.kind) ∧
    (o.superseded = true → s.overruled o) ∧ ∀ x ∈ s.rows, x.id < o.id → x.createdAt ≤ o.createdAt
  asked : ∀ r rest all, task = .asked r true rest all → s.overruled r

/-- What a purge has read: a row of the store was unsent or on the wire then, is finished, or came later. -/
def PurgeSeen (s : Phone) (task : PurgeTask) : Prop :=
  task.cutoff ≤ s.now ∧ ∀ a ∈ s.rows, task.cutoff ≤ a.createdAt ∨
    ∃ u ∈ task.all, u.id = a.id ∧ u.kind = a.kind ∧ (u.unsent = true ∨ u.status = .syncing ∨ a.finished)

structure Phone.Accounted (s : Phone) : Prop where
  rows : ∀ r ∈ s.rows, RowAccounted s r
  gone : ∀ id, 1 ≤ id → id < s.nextId → (∃ r ∈ s.rows, r.id = id) ∨
    (∃ b ∈ s.landed, b.id = id) ∨ s.told id ∨ s.retired id
  born : ∀ x ∈ s.rows, ∀ y ∈ s.rows, x.id < y.id → x.createdAt ≤ y.createdAt
  age : ∀ r ∈ s.rows, r.createdAt ≤ s.now ∧ ∀ time, r.lastAttemptedAt = some time → r.createdAt ≤ time
  retries : ∀ p, s.page = some p → ∀ task ∈ p.retries, TaskAccounted s task
  purges : ∀ p, s.page = some p → ∀ task ∈ p.purges, PurgeSeen s task

/-- What a phone knows only accumulates. -/
structure Phone.Grows (s s' : Phone) : Prop where
  now : s.now ≤ s'.now
  nextId : s.nextId ≤ s'.nextId
  landed : ∀ b ∈ s.landed, b ∈ s'.landed
  told : ∀ id, s.told id → s'.told id
  retirements : ∀ record ∈ s.retirements, record ∈ s'.retirements
  reports : ∀ report ∈ s.reports, report ∈ s'.reports

/-- What a write leaves of a row. -/
structure Stays (now : ℕ) (x y : QueueRow) : Prop where
  id : y.id = x.id
  actionType : y.actionType = x.actionType
  resourceId : y.resourceId = x.resourceId
  createdAt : y.createdAt = x.createdAt
  finished : x.finished → y.finished
  last : y.lastAttemptedAt = x.lastAttemptedAt ∨ y.lastAttemptedAt = some now

theorem Stays.refl (now : ℕ) (x : QueueRow) : Stays now x x := ⟨rfl, rfl, rfl, rfl, fun h => h, Or.inl rfl⟩

theorem Stays.kind {now : ℕ} {x y : QueueRow} (h : Stays now x y) : y.kind = x.kind := by
  unfold QueueRow.kind
  rw [h.actionType, h.resourceId]

section Accounts
variable {s s' : Phone} {p p' : Page} {r : QueueRow}

theorem Phone.Grows.retired (hg : s.Grows s') {id : ℕ} (h : s.retired id) : s'.retired id := by
  obtain ⟨record, hmem, hrest⟩ := h
  exact ⟨record, hg.retirements record hmem, hrest⟩

theorem Phone.Grows.overruled (hg : s.Grows s') (h : s.overruled r) : s'.overruled r := by
  rcases h with ⟨b, hb, hrest⟩ | hreport
  · exact Or.inl ⟨b, hg.landed b hb, hrest⟩
  · refine Or.inr ?_
    unfold Phone.reported at hreport ⊢
    rw [Bool.and_eq_true, List.any_eq_true] at hreport ⊢
    obtain ⟨hclose, report, hmem, hmatch⟩ := hreport
    exact ⟨hclose, report, hg.reports report hmem, hmatch⟩

theorem RowAccounted.grows (h : RowAccounted s r) (hg : s.Grows s') : RowAccounted s' r where
  landed := by
    intro hs
    obtain ⟨b, hb, hrest⟩ := h.landed hs
    exact ⟨b, hg.landed b hb, hrest⟩
  refused := fun hs hack hsup => hg.told r.id (h.refused hs hack hsup)
  retired := fun hs hsup => hg.retired (h.retired hs hsup)
  overruled := fun hsup => hg.overruled (h.overruled hsup)

theorem TaskAccounted.grows {task : RetryTask} (h : TaskAccounted s task) (hg : s.Grows s')
    (hfrom : ∀ y ∈ s'.rows, ∃ x ∈ s.rows, Stays s.now x y) : TaskAccounted s' task where
  rows := by
    intro r hr
    obtain ⟨hlt, hsame⟩ := h.rows r hr
    refine ⟨lt_of_lt_of_le hlt hg.nextId, ?_⟩
    intro y hy hid
    obtain ⟨x, hx, hst⟩ := hfrom y hy
    rw [hst.actionType, hst.resourceId, hst.createdAt]
    exact hsame x hx (hst.id.symm.trans hid)
  all := by
    intro o ho
    obtain ⟨hlt, hland, hover, hborn⟩ := h.all o ho
    refine ⟨lt_of_lt_of_le hlt hg.nextId, ?_, fun hsup => hg.overruled (hover hsup), ?_⟩
    · intro hs
      obtain ⟨b, hb, hrest⟩ := hland hs
      exact ⟨b, hg.landed b hb, hrest⟩
    · intro y hy hid
      obtain ⟨x, hx, hst⟩ := hfrom y hy
      rw [hst.createdAt]
      exact hborn x hx (hst.id ▸ hid)
  asked := fun r rest all heq => hg.overruled (h.asked r rest all heq)

theorem PurgeSeen.grows {task : PurgeTask} (h : PurgeSeen s task) (hg : s.Grows s')
    (hfrom : ∀ y ∈ s'.rows, ∃ x ∈ s.rows, Stays s.now x y) : PurgeSeen s' task := by
  refine ⟨le_trans h.1 hg.now, ?_⟩
  intro y hy
  obtain ⟨x, hx, hst⟩ := hfrom y hy
  rw [hst.createdAt, hst.id, hst.kind]
  rcases h.2 x hx with hlate | ⟨u, hu, hid, hkind, hunsent | hsync | hdone⟩
  · exact Or.inl hlate
  · exact Or.inr ⟨u, hu, hid, hkind, Or.inl hunsent⟩
  · exact Or.inr ⟨u, hu, hid, hkind, Or.inr (Or.inl hsync)⟩
  · exact Or.inr ⟨u, hu, hid, hkind, Or.inr (Or.inr (hst.finished hdone))⟩

/-- A step keeps every row accounted for when it does so for the rows it writes and the ones it drops. -/
theorem Phone.Accounted.next (h : s.Accounted) (hg : s.Grows s') (hnext : s'.nextId = s.nextId)
    (hfrom : ∀ y ∈ s'.rows, ∃ x ∈ s.rows, Stays s.now x y ∧ (RowAccounted s x → RowAccounted s' y))
    (hkept : ∀ x ∈ s.rows, (∃ y ∈ s'.rows, y.id = x.id) ∨ (∃ b ∈ s'.landed, b.id = x.id) ∨ s'.told x.id ∨ s'.retired x.id)
    (hretries : ∀ p', s'.page = some p' → ∀ task ∈ p'.retries, TaskAccounted s' task)
    (hpurges : ∀ p', s'.page = some p' → ∀ task ∈ p'.purges, PurgeSeen s' task) : s'.Accounted where
  rows := by
    intro y hy
    obtain ⟨x, hx, -, hacc⟩ := hfrom y hy
    exact hacc (h.rows x hx)
  gone := by
    intro id hpos hlt
    rw [hnext] at hlt
    rcases h.gone id hpos hlt with ⟨x, hx, rfl⟩ | ⟨b, hb, hid⟩ | htold | hret
    · exact hkept x hx
    · exact Or.inr (Or.inl ⟨b, hg.landed b hb, hid⟩)
    · exact Or.inr (Or.inr (Or.inl (hg.told id htold)))
    · exact Or.inr (Or.inr (Or.inr (hg.retired hret)))
  born := by
    intro y hy z hz hlt
    obtain ⟨x, hx, hst, -⟩ := hfrom y hy
    obtain ⟨w, hw, hst', -⟩ := hfrom z hz
    rw [hst.createdAt, hst'.createdAt]
    exact h.born x hx w hw (hst.id ▸ hst'.id ▸ hlt)
  age := by
    intro y hy
    obtain ⟨x, hx, hst, -⟩ := hfrom y hy
    obtain ⟨hage, hlast⟩ := h.age x hx
    rw [hst.createdAt]
    refine ⟨le_trans hage hg.now, ?_⟩
    intro time htime
    rcases hst.last with hsame | hnow
    · exact hlast time (hsame ▸ htime)
    · rw [hnow, Option.some.injEq] at htime
      exact htime ▸ hage
  retries := hretries
  purges := hpurges

/-- A row keeps its account when its status and flags stay or it is open. -/
theorem RowAccounted.of_open (hs : r.status ≠ .synced ∧ r.status ≠ .failed) (hover : r.superseded = true → s.overruled r) :
    RowAccounted s r where
  landed := fun h => absurd h hs.1
  refused := fun h => absurd h hs.2
  retired := fun h => absurd h hs.2
  overruled := hover

/-- A step of a page that throws or keeps the refusals it had to throw. -/
theorem Phone.Grows.paged (hp : s.page = some p) (hp' : s'.page = some p') (hnow : s'.now = s.now)
    (hnext : s'.nextId = s.nextId) (hthrow : ∀ id ∈ p.throwing, id ∈ p'.throwing ∨ id ∈ s'.thrown)
    (hland : ∀ b ∈ s.landed, b ∈ s'.landed) (hthrown : ∀ id ∈ s.thrown, id ∈ s'.thrown)
    (hret : ∀ record ∈ s.retirements, record ∈ s'.retirements) (hrep : ∀ report ∈ s.reports, report ∈ s'.reports) :
    s.Grows s' where
  now := le_of_eq hnow.symm
  nextId := le_of_eq hnext.symm
  landed := hland
  told := by
    rintro id (hid | ⟨q, hq, hid⟩)
    · exact Or.inl (hthrown id hid)
    · rw [hp, Option.some.injEq] at hq
      subst hq
      rcases hthrow id hid with hid | hid
      · exact Or.inr ⟨p', hp', hid⟩
      · exact Or.inl hid
  retirements := hret
  reports := hrep

/-- A step of a page, with the tasks it leaves. -/
theorem Phone.Accounted.onPage (h : s.Accounted) (hp : s.page = some p) (hp' : s'.page = some p') (hg : s.Grows s')
    (hnext : s'.nextId = s.nextId)
    (hfrom : ∀ y ∈ s'.rows, ∃ x ∈ s.rows, Stays s.now x y ∧ (RowAccounted s x → RowAccounted s' y))
    (hkept : ∀ x ∈ s.rows, (∃ y ∈ s'.rows, y.id = x.id) ∨ (∃ b ∈ s'.landed, b.id = x.id) ∨ s'.told x.id ∨ s'.retired x.id)
    (hretries : ∀ task ∈ p'.retries, TaskAccounted s task ∨ TaskAccounted s' task)
    (hpurges : ∀ task ∈ p'.purges, task ∈ p.purges ∨ PurgeSeen s' task) : s'.Accounted := by
  have hstays : ∀ y ∈ s'.rows, ∃ x ∈ s.rows, Stays s.now x y := by
    intro y hy
    obtain ⟨x, hx, hst, -⟩ := hfrom y hy
    exact ⟨x, hx, hst⟩
  refine h.next hg hnext hfrom hkept ?_ ?_
  · intro q hq task htask
    rw [hp', Option.some.injEq] at hq
    subst hq
    rcases hretries task htask with hold | hnew
    · exact hold.grows hg hstays
    · exact hnew
  · intro q hq task htask
    rw [hp', Option.some.injEq] at hq
    subst hq
    rcases hpurges task htask with hold | hnew
    · exact (h.purges p hp task hold).grows hg hstays
    · exact hnew

/-- A step of a page that leaves the store. -/
theorem Phone.Accounted.still (h : s.Accounted) (hp : s.page = some p) (hp' : s'.page = some p') (hg : s.Grows s')
    (hnext : s'.nextId = s.nextId) (hrows : s'.rows = s.rows)
    (hretries : ∀ task ∈ p'.retries, TaskAccounted s task ∨ TaskAccounted s' task)
    (hpurges : ∀ task ∈ p'.purges, task ∈ p.purges ∨ PurgeSeen s' task) : s'.Accounted := by
  refine h.onPage hp hp' hg hnext ?_ ?_ hretries hpurges
  · rw [hrows]
    exact fun y hy => ⟨y, hy, .refl _ y, fun hacc => hacc.grows hg⟩
  · rw [hrows]
    exact fun x hx => Or.inl ⟨x, hx, rfl⟩

/-- A step of a page that writes one row. -/
theorem Phone.Accounted.patched {id : ℕ} {f : QueueRow → QueueRow} (h : s.Accounted) (hp : s.page = some p)
    (hp' : s'.page = some p') (hg : s.Grows s') (hnext : s'.nextId = s.nextId) (hrows : s'.rows = patch s.rows id f)
    (hf : ∀ x ∈ s.rows, x.id = id → Stays s.now x (f x) ∧ (RowAccounted s x → RowAccounted s' (f x)))
    (hretries : ∀ task ∈ p'.retries, TaskAccounted s task)
    (hpurges : ∀ task ∈ p'.purges, task ∈ p.purges) : s'.Accounted := by
  refine h.onPage hp hp' hg hnext ?_ ?_ (fun task ht => Or.inl (hretries task ht)) fun task ht => Or.inl (hpurges task ht)
  · rw [hrows]
    exact patch_from hf fun x _ => ⟨.refl _ x, fun hacc => hacc.grows hg⟩
  · rw [hrows]
    intro x hx
    refine Or.inl ⟨if x.id = id then f x else x, mem_patch.mpr ⟨x, hx, rfl⟩, ?_⟩
    split
    · rename_i hid
      exact (hf x hx hid).1.id
    · rfl

/-! A row is retired. -/

theorem Phone.Ok.find_row (hok : s.Ok) (hr : r ∈ s.rows) : s.rows.find? (fun x => decide (x.id = r.id)) = some r := by
  cases hfind : s.rows.find? fun x => decide (x.id = r.id) with
  | none =>
    have := List.find?_eq_none.mp hfind r hr
    simp at this
  | some x =>
    have hid : x.id = r.id := by simpa using List.find?_some hfind
    rw [hok.queue.eq_of_id (List.mem_of_find?_eq_some hfind) hr hid]

/-- A row with a reason to retire is finished, or the reason shows now. -/
theorem Phone.Ok.reason (hok : s.Ok) (hr : r ∈ s.rows) (hover : s.overruled r) :
    r.finished ∨ s.newerSynced r = true ∨ s.reported r = true := by
  rcases hover with ⟨b, hb, hlt, hkind, hnone⟩ | hreport
  · obtain ⟨hdec, hdone⟩ := hok.queue.landedHere b hb
    rcases hok.queue.kept b hdec r hr hlt hkind hnone with ⟨o, ho, hob⟩ | hfin
    · have hokind := (hok.queue.decidedHere b hdec o ho hob).1
      refine Or.inr (Or.inl (List.any_eq_true.mpr ⟨o, ho, ?_⟩))
      have hsame : r.sameKind o = true := sameKind_iff.mpr ⟨hkind.trans hokind.symm, hnone⟩
      simp [hob, hlt, hdone o ho hob, hsame]
    · exact Or.inl hfin
  · exact Or.inr (Or.inr hreport)

/-- A row that is retired with a reason is accounted for. -/
theorem RowAccounted.retire (h : RowAccounted s r) (hok : s.Ok) (hr : r ∈ s.rows) (hover : s.overruled r)
    (hopen : r.status ≠ .synced) (hg : s.Grows s') (hrecord : s.retirement r ∈ s'.retirements) {y : QueueRow}
    (hy : Stays s.now r y) (hys : y.status ≠ .synced) (hsup : y.superseded = true) : RowAccounted s' y where
  landed := fun hs => absurd hs hys
  refused := by simp [hsup]
  retired := by
    intro _ _
    rw [hy.id]
    rcases hok.reason hr hover with hdone | hreason
    · rcases hdone with hd | ⟨hf, -, hs⟩
      · exact absurd hd hopen
      · exact hg.retired (h.retired hf hs)
    · exact ⟨_, hrecord, rfl, hreason⟩
  overruled := by
    intro _
    have hover := hg.overruled hover
    unfold Phone.overruled Phone.reported QueueRow.isCloseout at hover ⊢
    rw [hy.id, hy.kind, hy.actionType, hy.resourceId, hy.createdAt]
    exact hover

theorem Stays.retire (now : ℕ) (x : QueueRow) (hx : x.status ≠ .synced ∧ x.status ≠ .syncing) :
    Stays now x x.retire where
  id := rfl
  actionType := rfl
  resourceId := rfl
  createdAt := rfl
  finished := by
    rintro (hd | ⟨hf, -⟩)
    · exact absurd hd hx.1
    · exact Or.inr ⟨hf, rfl, rfl⟩
  last := Or.inl rfl

theorem Phone.Accounted.retireRow {id : ℕ} (h : s.Accounted) (hok : s.Ok) (hp : s.page = some p)
    (hthrow : p'.throwing = p.throwing)
    (hx : ∀ x ∈ s.rows, x.id = id → s.overruled x ∧ x.status ≠ .synced ∧ x.status ≠ .syncing)
    (hretries : ∀ task ∈ p'.retries, TaskAccounted s task)
    (hpurges : ∀ task ∈ p'.purges, task ∈ p.purges) : ((s.retireRow id).withPage p').Accounted := by
  have hg : s.Grows ((s.retireRow id).withPage p') :=
    .paged hp rfl rfl rfl (fun id hid => Or.inl (hthrow ▸ hid)) (fun _ hb => hb) (fun _ hid => hid)
      (fun _ hr => List.mem_append_left _ hr) (fun _ hr => hr)
  refine h.patched hp rfl hg rfl rfl ?_ hretries hpurges
  rintro x hxmem rfl
  obtain ⟨hover, hopen⟩ := hx x hxmem rfl
  have hst := Stays.retire s.now x hopen
  refine ⟨hst, fun hacc => hacc.retire hok hxmem hover hopen.1 hg ?_ hst hopen.1 rfl⟩
  refine List.mem_append_right _ ?_
  rw [hok.find_row hxmem]
  simp

/-! The other steps. -/

theorem not_finished_of_open {x : QueueRow} (hs : x.status = .pending ∨ x.status = .syncing) : ¬ x.finished := by
  rintro (hd | ⟨hd, -⟩) <;> rcases hs with hs | hs <;> rw [hs] at hd <;> cases hd

theorem Phone.Accounted.claimFor (h : s.Accounted) (hok : s.Ok) (hp : s.page = some p) {q : Page} (hq : p.Same q) (id : ℕ)
    (caller : Bool) (hp' : (s.claimFor q id caller).2.Same p') (hpurges : p'.purges = p.purges) :
    ((s.claimFor q id caller).1.withPage p').Accounted := by
  have hspec := claim_spec s.now s.rows id
  unfold Phone.claimFor at hp' ⊢
  generalize claim s.now s.rows id = outcome at hspec hp' ⊢
  obtain ⟨rows, result⟩ := outcome
  dsimp only at hspec hp' ⊢
  have htasks : p'.retries = p.retries → ∀ task ∈ p'.retries, TaskAccounted s task :=
    fun heq task ht => h.retries p hp task (heq ▸ ht)
  cases hspec with
  | untouched result hnot =>
    cases result with
    | claimed row => exact absurd rfl (hnot row).1
    | superseded row => exact absurd rfl (hnot row).2
    | _ =>
      refine h.still hp rfl ?_ rfl rfl (fun task ht => Or.inl (htasks (hp'.retries.trans hq.retries) task ht)) fun task ht => Or.inl (hpurges ▸ ht)
      exact .paged hp rfl rfl rfl (fun _ hid => Or.inl (hp'.throwing.trans hq.throwing ▸ hid)) (fun _ hb => hb)
        (fun _ hid => hid) (fun _ hr => hr) fun _ hr => hr
  | uncertain row hrow hid hpending since hmaybe =>
    subst hid
    have hg : s.Grows (Phone.withPage { s with rows := patch s.rows row.id .markUncertain } p') :=
      .paged hp rfl rfl rfl (fun _ hid => Or.inl (hp'.throwing.trans hq.throwing ▸ hid)) (fun _ hb => hb)
        (fun _ hid => hid) (fun _ hr => hr) fun _ hr => hr
    refine h.patched hp rfl hg rfl rfl ?_ (htasks (hp'.retries.trans hq.retries)) fun task ht => hpurges ▸ ht
    intro x hx hid
    obtain rfl := hok.queue.eq_of_id hx hrow hid
    refine ⟨⟨rfl, rfl, rfl, rfl, fun hfin => absurd hfin (not_finished_of_open (Or.inl hpending)), Or.inl rfl⟩, ?_⟩
    intro hacc
    have hno : x.superseded = false := by
      by_contra hsup
      rcases hok.queue.flagged x hx (by simpa using hsup) with ⟨hf, -⟩ | ⟨-, hnone, -⟩
      · rw [hpending] at hf
        cases hf
      · rw [hmaybe] at hnone
        cases hnone
    exact ⟨by rintro ⟨⟩, by rintro _ ⟨⟩, fun _ hsup => absurd (hno.symm.trans hsup) (by decide),
      fun hsup => absurd (hno.symm.trans hsup) (by decide)⟩
  | superseded row hrow hid hpending hlanded =>
    subst hid
    have hg : s.Grows (Phone.withPage { s with
        rows := patch s.rows row.id fun r => { r.retire with status := .failed }
        retirements := s.retirements ++ [s.retirement row] } p') :=
      .paged hp rfl rfl rfl (fun _ hid => Or.inl (hp'.throwing.trans hq.throwing ▸ hid)) (fun _ hb => hb)
        (fun _ hid => hid) (fun _ hr => List.mem_append_left _ hr) fun _ hr => hr
    refine h.patched hp rfl hg rfl rfl ?_ (htasks (hp'.retries.trans hq.retries)) fun task ht => hpurges ▸ ht
    intro x hx hid
    obtain rfl := hok.queue.eq_of_id hx hrow hid
    have hst : Stays s.now x { x.retire with status := .failed } :=
      ⟨rfl, rfl, rfl, rfl, fun _ => Or.inr ⟨rfl, rfl, rfl⟩, Or.inl rfl⟩
    have hover : s.overruled x := by
      obtain ⟨o, ho, hsees⟩ := List.any_eq_true.mp hlanded
      simp only [Bool.and_eq_true, decide_eq_true_eq, Bool.or_eq_true] at hsees
      obtain ⟨⟨hlt, hsynced | hsup⟩, hsame⟩ := hsees
      · obtain ⟨b, hb, hbid, hbkind⟩ := (h.rows o ho).landed hsynced
        obtain ⟨hkind, hnone⟩ := sameKind_iff.mp hsame
        exact Or.inl ⟨b, hb, by omega, hkind.trans hbkind.symm, hnone⟩
      · obtain ⟨hkind, hnone⟩ := sameKind_iff.mp hsame
        exact ((h.rows o ho).overruled hsup).older hlt hkind hnone (h.born x hx o ho hlt)
    refine ⟨hst, fun hacc => hacc.retire hok hx hover (by rw [hpending]; decide) hg ?_ hst (by simp) rfl⟩
    exact List.mem_append_right _ (List.mem_singleton.mpr rfl)
  | claimed row hrow hid hpending hsafe hlanded hwire hundecided =>
    subst hid
    refine h.patched hp rfl ?_ rfl rfl ?_ (htasks (hp'.retries.trans hq.retries)) fun task ht => hpurges ▸ ht
    · exact .paged hp rfl rfl rfl (fun _ hid => Or.inl (hp'.throwing.trans hq.throwing ▸ hid)) (fun _ hb => hb)
        (fun _ hid => hid) (fun _ hr => hr) fun _ hr => hr
    · intro x hx hid
      obtain rfl := hok.queue.eq_of_id hx hrow hid
      refine ⟨⟨rfl, rfl, rfl, rfl, fun hfin => absurd hfin (not_finished_of_open (Or.inl hpending)), Or.inr rfl⟩, ?_⟩
      intro hacc
      exact .of_open (by simp) fun hsup => hacc.overruled hsup

theorem Page.resumeDrain_purges (p : Page) (id : ℕ) (answer : Answer) : (p.resumeDrain id answer).purges = p.purges := by
  unfold Page.resumeDrain Drain.afterSend Page.endDrain
  split
  · split
    · dsimp only
      split <;> rfl
    · rfl
  · rfl

theorem Phone.Accounted.answered (h : s.Accounted) (hok : s.Ok) (hp : s.page = some p) {f : Flight} (hf : f ∈ p.flights)
    (answer : Answer) : (s.answered p f answer).Accounted := by
  obtain ⟨hrow, hsync⟩ := (hok.queue_page hp).wired f.row (List.mem_map_of_mem hf)
  have hsup := hok.queue.not_superseded hrow hsync
  let mid : Page := { p with
    flights := p.flights.erase f
    throwing := if answer.verdict f.row = .refused ∧ f.caller = true then p.throwing ++ [f.row.id] else p.throwing
    retiring := if answer.verdict f.row = .synced then p.retiring ++ [⟨f.row, none⟩] else p.retiring }
  have hsame : mid.Same (mid.resumeDrain f.row.id answer) := Page.resumeDrain_same mid f.row.id answer
  have hpage : (s.answered p f answer).page = some (mid.resumeDrain f.row.id answer) := rfl
  have hg : s.Grows (s.answered p f answer) := by
    refine .paged hp hpage rfl rfl ?_ ?_ (fun _ hid => hid) (fun _ hr => hr) fun _ hr => hr
    · intro id hid
      refine Or.inl ?_
      rw [hsame.throwing]
      show id ∈ if answer.verdict f.row = .refused ∧ f.caller = true then p.throwing ++ [f.row.id] else p.throwing
      split
      · exact List.mem_append_left _ hid
      · exact hid
    · intro b hb
      show b ∈ if answer.verdict f.row = .synced then s.landed ++ [f.row] else s.landed
      split
      · exact List.mem_append_left _ hb
      · exact hb
  refine h.patched hp hpage hg rfl rfl ?_ ?_ ?_
  · intro x hx hid
    obtain rfl := hok.queue.eq_of_id hx hrow hid
    have hst : Stays s.now f.row (f.settle (answer.verdict f.row) f.row) := by
      cases answer.verdict f.row <;>
        exact ⟨rfl, rfl, rfl, rfl, fun hfin => absurd hfin (not_finished_of_open (Or.inr hsync)), Or.inl rfl⟩
    refine ⟨hst, fun _ => ?_⟩
    have hkeep : (f.settle (answer.verdict f.row) f.row).superseded = false := by
      cases answer.verdict f.row <;> exact hsup
    refine ⟨?_, ?_, by simp [hkeep], by simp [hkeep]⟩
    · intro hs
      have hv : answer.verdict f.row = .synced := by
        cases hv : answer.verdict f.row <;> rw [hv] at hs <;> first | rfl | cases hs
      refine ⟨f.row, ?_, hst.id.symm, hst.kind.symm⟩
      show f.row ∈ if answer.verdict f.row = .synced then s.landed ++ [f.row] else s.landed
      rw [if_pos hv]
      exact List.mem_append_right _ (List.mem_singleton.mpr rfl)
    · intro hs hack _
      have hv : answer.verdict f.row = .refused := by
        cases hv : answer.verdict f.row <;> rw [hv] at hs <;> first | rfl | cases hs
      have hcaller : f.caller = true := by
        rw [hv] at hack
        exact hack
      rw [hst.id]
      refine Or.inr ⟨_, hpage, ?_⟩
      rw [hsame.throwing]
      show f.row.id ∈ if answer.verdict f.row = .refused ∧ f.caller = true then p.throwing ++ [f.row.id] else p.throwing
      rw [if_pos ⟨hv, hcaller⟩]
      exact List.mem_append_right _ (List.mem_singleton.mpr rfl)
  · intro task ht
    exact h.retries p hp task (by rwa [hsame.retries] at ht)
  · intro task ht
    rwa [Page.resumeDrain_purges] at ht

theorem Phone.Accounted.recover (h : s.Accounted) (hok : s.Ok) (hp : s.page = some p) (hsame : p.Same p')
    (hpurges : p'.purges = p.purges) (hr : r ∈ p.stuck) :
    Phone.Accounted ({ s with rows := patch s.rows r.id (Gdx.recover s.now r) }.withPage p') := by
  obtain ⟨hrow, hsync, -⟩ := (hok.page p hp).stuck r hr
  have hsup := hok.queue.not_superseded hrow hsync
  refine h.patched hp rfl ?_ rfl rfl ?_ (fun task ht => h.retries p hp task (hsame.retries ▸ ht)) fun task ht => hpurges ▸ ht
  · exact .paged hp rfl rfl rfl (fun _ hid => Or.inl (hsame.throwing ▸ hid)) (fun _ hb => hb) (fun _ hid => hid)
      (fun _ hr => hr) fun _ hr => hr
  · intro x hx hid
    obtain rfl := hok.queue.eq_of_id hx hrow hid
    unfold Gdx.recover
    dsimp only
    split
    · refine ⟨⟨rfl, rfl, rfl, rfl, fun hfin => absurd hfin (not_finished_of_open (Or.inr hsync)), Or.inl rfl⟩, ?_⟩
      exact fun hacc => .of_open (by simp) fun hs => hacc.overruled hs
    · refine ⟨⟨rfl, rfl, rfl, rfl, fun hfin => absurd hfin (not_finished_of_open (Or.inr hsync)), Or.inl rfl⟩, ?_⟩
      intro _
      exact ⟨by rintro ⟨⟩, by rintro _ ⟨⟩, fun _ hs => absurd (hsup.symm.trans hs) (by decide),
        fun hs => absurd (hsup.symm.trans hs) (by decide)⟩

/-- A landed row overrules the older refusals it lists. -/
theorem Phone.Accounted.retire (h : s.Accounted) (hok : s.Ok) (hp : s.page = some p) (hsame : p.Same p')
    (hpurges : p'.purges = p.purges) {task : Retiring} (ht : task ∈ p.retiring) (hr : r ∈ task.older.getD []) :
    ((s.retireRow r.id).withPage p').Accounted := by
  obtain ⟨hland, hlisted⟩ := (hok.page p hp).retiring task ht
  obtain ⟨hlt, hrows⟩ := hlisted r hr
  refine h.retireRow hok hp hsame.throwing ?_ (fun task ht => h.retries p hp task (hsame.retries ▸ ht)) fun task ht => hpurges ▸ ht
  intro x hx hid
  obtain ⟨hkind, hnone, hidle⟩ := hrows x hx hid
  refine ⟨Or.inl ⟨task.entry, hland, hid ▸ hlt, hkind, hnone⟩, ?_⟩
  rcases hidle with hf | ⟨hf, -⟩ <;> rw [hf] <;> decide

theorem Phone.Accounted.die (h : s.Accounted) (hp : s.page = some p) (hthrow : p.throwing = []) :
    (s.die p).Accounted := by
  have hg : s.Grows (s.die p) := by
    refine ⟨le_rfl, le_rfl, fun _ hb => hb, ?_, fun _ hr => hr, fun _ hr => hr⟩
    rintro id (hid | ⟨q, hq, hid⟩)
    · exact Or.inl hid
    · rw [hp, Option.some.injEq] at hq
      subst hq
      rw [hthrow] at hid
      cases hid
  refine h.next hg rfl ?_ (fun x hx => Or.inl ⟨x, hx, rfl⟩) (by rintro q ⟨⟩) (by rintro q ⟨⟩)
  exact fun y hy => ⟨y, hy, .refl _ y, fun hacc => hacc.grows hg⟩

theorem Phone.Accounted.start (h : s.Accounted) (hp : s.page = none) :
    Phone.Accounted { s with page := some { startedAt := s.now }, orphans := [] } := by
  have hg : s.Grows { s with page := some { startedAt := s.now }, orphans := [] } := by
    refine ⟨le_rfl, le_rfl, fun _ hb => hb, ?_, fun _ hr => hr, fun _ hr => hr⟩
    rintro id (hid | ⟨q, hq, -⟩)
    · exact Or.inl hid
    · rw [hp] at hq
      cases hq
  refine h.next hg rfl ?_ (fun x hx => Or.inl ⟨x, hx, rfl⟩) ?_ ?_
  · exact fun y hy => ⟨y, hy, .refl _ y, fun hacc => hacc.grows hg⟩
  · rintro q ⟨rfl⟩ task ⟨⟩
  · rintro q ⟨rfl⟩ task ⟨⟩

/-- A step that leaves the page and the store. -/
theorem Phone.Accounted.beside (h : s.Accounted) (hg : s.Grows s') (hnext : s'.nextId = s.nextId) (hrows : s'.rows = s.rows) (hpage : s'.page = s.page) :
    s'.Accounted := by
  have hstays : ∀ y ∈ s'.rows, ∃ x ∈ s.rows, Stays s.now x y := by
    rw [hrows]
    exact fun y hy => ⟨y, hy, .refl _ y⟩
  refine h.next hg hnext ?_ ?_ ?_ ?_
  · rw [hrows]
    exact fun y hy => ⟨y, hy, .refl _ y, fun hacc => hacc.grows hg⟩
  · rw [hrows]
    exact fun x hx => Or.inl ⟨x, hx, rfl⟩
  · rw [hpage]
    exact fun q hq task ht => (h.retries q hq task ht).grows hg hstays
  · rw [hpage]
    exact fun q hq task ht => (h.purges q hq task ht).grows hg hstays

theorem Phone.Accounted.queue (h : s.Accounted) (hok : s.Ok) (hp : s.page = some p) (actionType resourceId : Text)
    (conflictIsError online : Bool) : (s.queue p actionType resourceId conflictIsError online).Accounted := by
  have hpage : ∃ callers, (s.queue p actionType resourceId conflictIsError online).page =
      some { p with callers := callers } := by
    cases online
    · exact ⟨p.callers, rfl⟩
    · exact ⟨_, rfl⟩
  obtain ⟨callers, hpage⟩ := hpage
  have hg : s.Grows (s.queue p actionType resourceId conflictIsError online) := by
    refine ⟨le_rfl, Nat.le_succ _, fun _ hb => hb, ?_, fun _ hr => hr, fun _ hr => hr⟩
    rintro id (hid | ⟨q, hq, hid⟩)
    · exact Or.inl hid
    · rw [hp, Option.some.injEq] at hq
      subst hq
      exact Or.inr ⟨_, hpage, hid⟩
  have hmem : ∀ y ∈ (s.queue p actionType resourceId conflictIsError online).rows, y ∈ s.rows ∨
      (y.id = s.nextId ∧ y.createdAt = s.now ∧ y.status = .pending ∧ y.superseded = false ∧ y.lastAttemptedAt = none) := by
    intro y hy
    rcases List.mem_append.mp hy with hy | hy
    · exact Or.inl hy
    · rw [List.mem_singleton] at hy
      subst hy
      exact Or.inr ⟨rfl, rfl, rfl, rfl, rfl⟩
  have hlt := hok.queue.lt
  refine {
    rows := ?_, gone := ?_, born := ?_, age := ?_, retries := ?_, purges := ?_ }
  · intro y hy
    rcases hmem y hy with hy | ⟨-, -, hs, hsup, -⟩
    · exact (h.rows y hy).grows hg
    · exact .of_open (by rw [hs]; decide) (by simp [hsup])
  · intro id hpos hid
    have hid : id < s.nextId + 1 := hid
    by_cases hnew : id = s.nextId
    · exact Or.inl ⟨_, List.mem_append_right _ (List.mem_singleton.mpr rfl), hnew.symm⟩
    · rcases h.gone id hpos (by omega) with ⟨x, hx, hxid⟩ | ⟨b, hb, hbid⟩ | htold | hret
      · exact Or.inl ⟨x, List.mem_append_left _ hx, hxid⟩
      · exact Or.inr (Or.inl ⟨b, hb, hbid⟩)
      · exact Or.inr (Or.inr (Or.inl (hg.told id htold)))
      · exact Or.inr (Or.inr (Or.inr hret))
  · intro x hx y hy hxy
    rcases hmem x hx with hx | ⟨hxid, -, -⟩ <;> rcases hmem y hy with hy | ⟨hyid, hborn, -⟩
    · exact h.born x hx y hy hxy
    · rw [hborn]
      exact (h.age x hx).1
    · have := hlt y hy
      omega
    · omega
  · intro y hy
    rcases hmem y hy with hy | ⟨-, hborn, -, -, hlast⟩
    · exact h.age y hy
    · exact ⟨le_of_eq hborn, by simp [hlast]⟩
  · intro q hq task htask
    rw [hpage, Option.some.injEq] at hq
    subst hq
    have hacc := h.retries p hp task htask
    refine ⟨?_, ?_, fun r rest all heq => hg.overruled (hacc.asked r rest all heq)⟩
    · intro r hr
      obtain ⟨hrlt, hsame⟩ := hacc.rows r hr
      refine ⟨lt_of_lt_of_le hrlt hg.nextId, ?_⟩
      intro x hx hid
      rcases hmem x hx with hx | ⟨hxid, -⟩
      · exact hsame x hx hid
      · omega
    · intro o ho
      obtain ⟨holt, hland, hover, hborn⟩ := hacc.all o ho
      refine ⟨lt_of_lt_of_le holt hg.nextId, hland, fun hsup => hg.overruled (hover hsup), ?_⟩
      intro x hx hid
      rcases hmem x hx with hx | ⟨hxid, -⟩
      · exact hborn x hx hid
      · omega
  · intro q hq task htask
    rw [hpage, Option.some.injEq] at hq
    subst hq
    obtain ⟨hcut, hseen⟩ := h.purges p hp task htask
    refine ⟨hcut, ?_⟩
    intro y hy
    rcases hmem y hy with hy | ⟨-, hborn, -⟩
    · exact hseen y hy
    · exact Or.inl (by rw [hborn]; exact hcut)

/-! Retries. -/

/-- A retry with fewer rows to walk. -/
theorem TaskAccounted.shrink {task task' : RetryTask} (h : TaskAccounted s task) (hrows : ∀ r ∈ task'.rows, r ∈ task.rows)
    (hall : task'.all = task.all) (hasked : ∀ r rest all, task' ≠ .asked r true rest all) : TaskAccounted s task' where
  rows := fun r hr => h.rows r (hrows r hr)
  all := by
    rw [hall]
    exact h.all
  asked := fun r rest all heq => absurd heq (hasked r rest all)

/-- A retry reads the whole store. -/
theorem Phone.Accounted.walking (h : s.Accounted) (hok : s.Ok) {rows : List QueueRow}
    (hrows : TaskAccounted s (.reading rows)) : TaskAccounted s (.walking rows s.rows) where
  rows := hrows.rows
  all := by
    intro o ho
    exact ⟨hok.queue.lt o ho, (h.rows o ho).landed, (h.rows o ho).overruled, fun x hx hlt => h.born x hx o ho hlt⟩
  asked := by
    intro r rest all heq
    cases heq

/-- The row a retry walks, as it is in the store. -/
theorem TaskAccounted.kind_eq {task : RetryTask} (h : TaskAccounted s task) (hr : r ∈ task.rows) {x : QueueRow}
    (hx : x ∈ s.rows) (hid : x.id = r.id) : x.kind = r.kind := by
  obtain ⟨htype, hres, -⟩ := (h.rows r hr).2 x hx hid
  unfold QueueRow.kind
  rw [htype, hres]

/-- What overrules the row a retry walks overrules it as it is in the store. -/
theorem TaskAccounted.overruled_row {task : RetryTask} (h : TaskAccounted s task) (hr : r ∈ task.rows) {x : QueueRow}
    (hx : x ∈ s.rows) (hid : x.id = r.id) (hover : s.overruled r) : s.overruled x := by
  obtain ⟨htype, hres, hborn⟩ := (h.rows r hr).2 x hx hid
  unfold Phone.overruled Phone.reported QueueRow.isCloseout at hover ⊢
  rw [h.kind_eq hr hx hid, hid, htype, hres, hborn]
  exact hover

/-- A newer row the retry read as landed or retired overrules the row in the store. -/
theorem TaskAccounted.newer {task : RetryTask} (h : TaskAccounted s task) (hr : r ∈ task.rows)
    (hnew : newerLanded r task.all = true) {x : QueueRow} (hx : x ∈ s.rows) (hid : x.id = r.id) : s.overruled x := by
  obtain ⟨o, ho, hsees⟩ := List.any_eq_true.mp hnew
  simp only [Bool.and_eq_true, decide_eq_true_eq, Bool.or_eq_true] at hsees
  obtain ⟨⟨hlt, hwhy⟩, hsame⟩ := hsees
  obtain ⟨-, hland, hover, hborn⟩ := h.all o ho
  obtain ⟨hkind, hnone⟩ := sameKind_iff.mp hsame
  rw [← h.kind_eq hr hx hid] at hkind hnone
  rcases hwhy with hsynced | hsup
  · obtain ⟨b, hb, hbid, hbkind⟩ := hland hsynced
    exact Or.inl ⟨b, hb, by omega, hkind.trans hbkind.symm, hnone⟩
  · exact (hover hsup).older (by omega) hkind hnone (hborn x hx (by omega))

theorem Phone.Accounted.retry (h : s.Accounted) (hok : s.Ok) (hp : s.page = some p) (jobId : Option Text)
    (ids : Option (List ℕ)) :
    (s.withPage { p with retries := p.retries ++ [.reading (retryRows s.rows jobId ids)] }).Accounted := by
  refine h.still hp rfl ?_ rfl rfl ?_ fun task ht => Or.inl ht
  · exact .paged hp rfl rfl rfl (fun _ hid => Or.inl hid) (fun _ hb => hb) (fun _ hid => hid) (fun _ hr => hr)
      fun _ hr => hr
  · intro task ht
    rcases List.mem_append.mp ht with ht | ht
    · exact Or.inl (h.retries p hp task ht)
    · rw [List.mem_singleton] at ht
      subst ht
      refine Or.inr ⟨?_, by simp [RetryTask.all], by rintro r rest all ⟨⟩⟩
      intro r hr
      have hr : r ∈ s.rows := mem_of_retryRows hr
      refine ⟨hok.queue.lt r hr, ?_⟩
      intro x hx hid
      rw [hok.queue.eq_of_id hx hr hid]
      exact ⟨rfl, rfl, rfl⟩

/-- A retry puts a row back in line. -/
theorem Phone.Accounted.requeueRow {id : ℕ} (h : s.Accounted) (hp : s.page = some p) (hthrow : p'.throwing = p.throwing)
    (hx : ∀ x ∈ s.rows, x.id = id → x.status = .failed ∧ x.acknowledged = false)
    (hretries : ∀ task ∈ p'.retries, TaskAccounted s task)
    (hpurges : ∀ task ∈ p'.purges, task ∈ p.purges) : ((s.requeueRow id).withPage p').Accounted := by
  refine h.patched hp rfl ?_ rfl rfl ?_ hretries hpurges
  · exact .paged hp rfl rfl rfl (fun _ hid => Or.inl (hthrow ▸ hid)) (fun _ hb => hb) (fun _ hid => hid) (fun _ hr => hr)
      fun _ hr => hr
  · intro x hxmem hid
    obtain ⟨hf, hack⟩ := hx x hxmem hid
    refine ⟨⟨rfl, rfl, rfl, rfl, ?_, Or.inl rfl⟩, fun hacc => .of_open (by simp [QueueRow.requeue]) ?_⟩
    · rintro (hd | ⟨-, hd, -⟩)
      · rw [hf] at hd
        cases hd
      · rw [hack] at hd
        cases hd
    · exact fun hsup => hacc.overruled hsup

/-- The tasks of a page where a retry went on. -/
theorem Phone.Accounted.swapped (h : s.Accounted) (hp : s.page = some p) {task : RetryTask} {by_ : List RetryTask}
    (hby : ∀ t ∈ by_, TaskAccounted s t) : ∀ t ∈ swap p.retries task by_, TaskAccounted s t := by
  intro t ht
  rcases mem_swap ht with ht | ht
  · exact h.retries p hp t ht
  · exact hby t ht

theorem closeout_of_ask {all : List QueueRow} (h : retryMove r all = .ask) : r.isCloseout = true := by
  unfold retryMove at h
  split at h
  · cases h
  · split at h
    · cases h
    · split at h
      · rename_i hask
        exact (Bool.and_eq_true_iff.mp hask).1
      · cases h

/-- A closeout the server calls stale is overruled when this phone's own ones are settled. -/
theorem Phone.Accounted.stale (h : s.Accounted) (hok : s.Ok) (hclose : r.isCloseout = true)
    (hown : s.ownCloseoutsSettled r) {e : Effect} (he : s.closeout r.resourceId = some e) (hlate : r.createdAt < e.time)
    (hg : s.Grows s') (hreport : e.isOwn = false → (r.resourceId, e.time) ∈ s'.reports) : s'.overruled r := by
  have hmem : e ∈ s.effects := by
    have := List.mem_of_find?_eq_some he
    rwa [List.mem_reverse] at this
  have hcloses : e.closes r.resourceId = true := List.find?_some he
  cases e with
  | own row time =>
    simp only [Effect.closes, Bool.and_eq_true, decide_eq_true_eq] at hcloses
    obtain ⟨hlt, o, ho, hoid, hsynced⟩ := hown row time hmem hcloses.1 hcloses.2 hlate
    obtain ⟨b, hb, hbid, hbkind⟩ := (h.rows o ho).landed hsynced
    have hokind := (hok.queue.decidedHere row (Or.inr ⟨time, hmem⟩) o ho hoid).1
    have hkind : r.kind = row.kind := by
      unfold QueueRow.kind
      rw [isCloseout_iff.mp hclose, isCloseout_iff.mp hcloses.1, hcloses.2]
    have hnone : r.kind ≠ none := by
      unfold QueueRow.kind
      rw [supersedeGroup_closeout.mpr (isCloseout_iff.mp hclose)]
      simp
    exact Or.inl ⟨b, hg.landed b hb, by omega, hkind.trans (hokind.symm.trans hbkind.symm), hnone⟩
  | other job time =>
    refine Or.inr ?_
    unfold Phone.reported
    rw [Bool.and_eq_true, List.any_eq_true]
    exact ⟨hclose, _, hreport rfl, by simpa using hlate⟩

theorem Phone.Accounted.ask (h : s.Accounted) (hok : s.Ok) (hp : s.page = some p) {rest all : List QueueRow}
    (hacc : TaskAccounted s (.walking (r :: rest) all)) {reached : Bool} (hmove : retryMove r all = .ask)
    (hown : reached = true → s.ownCloseoutsSettled r) :
    (s.ask p (.walking (r :: rest) all) r rest all reached).Accounted := by
  have hg : s.Grows (s.ask p (.walking (r :: rest) all) r rest all reached) :=
    .paged hp rfl rfl rfl (fun _ hid => Or.inl hid) (fun _ hb => hb) (fun _ hid => hid) (fun _ hr => hr)
      fun _ hr => List.mem_append_left _ hr
  refine h.still hp rfl hg rfl rfl ?_ fun task ht => Or.inl ht
  intro task ht
  rcases mem_swap ht with ht | ht
  · exact Or.inl (h.retries p hp task ht)
  · rw [List.mem_singleton] at ht
    subst ht
    have hkeep : TaskAccounted (s.ask p (.walking (r :: rest) all) r rest all reached) (.walking (r :: rest) all) :=
      hacc.grows hg fun y hy => ⟨y, hy, .refl _ y⟩
    refine Or.inr ⟨hkeep.rows, hkeep.all, ?_⟩
    intro r' rest' all' heq
    simp only [RetryTask.asked.injEq, Bool.and_eq_true] at heq
    obtain ⟨rfl, ⟨hreached, hsince⟩, -, -⟩ := heq
    unfold Phone.closedSince at hsince
    cases hclose : s.closeout r.resourceId with
    | none =>
      rw [hclose] at hsince
      cases hsince
    | some e =>
      rw [hclose, Option.any_some, decide_eq_true_eq] at hsince
      refine h.stale hok (closeout_of_ask hmove) (hown hreached) hclose hsince hg ?_
      intro hother
      refine List.mem_append_right _ ?_
      simp [hclose, hother, hreached, Phone.closedSince, hsince]

theorem Phone.Accounted.retryStep (h : s.Accounted) (hok : s.Ok) (hp : s.page = some p) {task : RetryTask}
    (ht : task ∈ p.retries) {reached : Bool} (hs : s.sound (.retryStep task reached)) :
    (s.retryStep p task reached).Accounted := by
  have hacc := h.retries p hp task ht
  have hstill : ∀ by_, (∀ t ∈ by_, TaskAccounted s t) →
      (s.withPage { p with retries := swap p.retries task by_ }).Accounted := by
    intro by_ hby
    refine h.still hp rfl ?_ rfl rfl (fun t ht => Or.inl (h.swapped hp hby t ht)) fun t ht => Or.inl ht
    exact .paged hp rfl rfl rfl (fun _ hid => Or.inl hid) (fun _ hb => hb) (fun _ hid => hid) (fun _ hr => hr)
      fun _ hr => hr
  have hrest : ∀ (r : QueueRow) (rest all : List QueueRow), (∀ x ∈ rest, x ∈ task.rows) → all = task.all →
      ∀ t ∈ [RetryTask.walking rest all], TaskAccounted s t := by
    rintro r rest all hrows hall t ht
    rw [List.mem_singleton] at ht
    subst ht
    exact hacc.shrink hrows hall (by rintro _ _ _ ⟨⟩)
  have hopen : ∀ x ∈ s.rows, x.status = .failed → x.status ≠ .synced ∧ x.status ≠ .syncing := by
    intro x _ hf
    rw [hf]
    decide
  unfold Phone.retryStep
  match task with
  | .reading rows =>
    refine hstill _ ?_
    intro t ht
    rw [List.mem_singleton] at ht
    subst ht
    exact h.walking hok hacc
  | .walking [] all => exact hstill [] (by simp)
  | .walking (r :: rest) all =>
    have hlist : ∀ t ∈ [RetryTask.walking rest all], TaskAccounted s t :=
      hrest r rest all (fun x hx => List.mem_cons_of_mem _ hx) rfl
    obtain ⟨htidy, hown⟩ := hs
    unfold Phone.tidy at htidy
    dsimp only at htidy ⊢
    split
    · exact hstill _ hlist
    · rename_i hmove
      rw [hmove] at htidy
      refine h.retireRow hok hp rfl ?_ (h.swapped hp hlist) fun t ht => ht
      intro x hx hid
      have hnew : newerLanded r all = true := by
        unfold retryMove at hmove
        split at hmove
        · cases hmove
        · split at hmove
          · assumption
          · split at hmove <;> cases hmove
      exact ⟨hacc.newer List.mem_cons_self hnew hx hid, hopen x hx (htidy x hx hid)⟩
    · rename_i hmove
      refine h.ask hok hp hacc hmove ?_
      rintro rfl
      exact hown hmove
    · rename_i hmove
      rw [hmove] at htidy
      exact h.requeueRow hp rfl htidy (h.swapped hp hlist) fun t ht => ht
  | .asked r true rest all =>
    have hlist : ∀ t ∈ [RetryTask.walking rest all], TaskAccounted s t :=
      hrest r rest all (fun x hx => List.mem_cons_of_mem _ hx) rfl
    dsimp only
    refine h.retireRow hok hp rfl ?_ (h.swapped hp hlist) fun t ht => ht
    intro x hx hid
    exact ⟨hacc.overruled_row List.mem_cons_self hx hid (hacc.asked r rest all rfl), hopen x hx (hs.1 x hx hid)⟩
  | .asked r false rest all =>
    have hlist : ∀ t ∈ [RetryTask.walking rest all], TaskAccounted s t :=
      hrest r rest all (fun x hx => List.mem_cons_of_mem _ hx) rfl
    dsimp only
    exact h.requeueRow hp rfl hs.1 (h.swapped hp hlist) fun t ht => ht

/-! Purges. -/

theorem Phone.Accounted.purge (h : s.Accounted) (hok : s.Ok) (hp : s.page = some p) (maxAgeDays : ℕ) :
    (s.withPage { p with purges := p.purges ++ [⟨s.now - maxAgeDays * 86400000, s.rows, false⟩] }).Accounted := by
  refine h.still hp rfl ?_ rfl rfl (fun task ht => Or.inl (h.retries p hp task ht)) ?_
  · exact .paged hp rfl rfl rfl (fun _ hid => Or.inl hid) (fun _ hb => hb) (fun _ hid => hid) (fun _ hr => hr)
      fun _ hr => hr
  · intro task ht
    rcases List.mem_append.mp ht with ht | ht
    · exact Or.inl ht
    · rw [List.mem_singleton] at ht
      subst ht
      refine Or.inr ⟨Nat.sub_le .., ?_⟩
      intro a ha
      refine Or.inr ⟨a, ha, rfl, rfl, ?_⟩
      cases hs : a.status with
      | pending => exact Or.inl (by simp [QueueRow.unsent, hs])
      | syncing => exact Or.inr (Or.inl rfl)
      | synced => exact Or.inr (Or.inr (Or.inl hs))
      | failed =>
        cases hsup : a.superseded with
        | false => exact Or.inl (by simp [QueueRow.unsent, hs, hsup])
        | true =>
          rcases hok.queue.flagged a ha hsup with ⟨-, hack⟩ | ⟨hpend, -⟩
          · exact Or.inr (Or.inr (Or.inr ⟨hs, hack, hsup⟩))
          · rw [hs] at hpend
            cases hpend

theorem Phone.Accounted.purgeStep (h : s.Accounted) (hp : s.page = some p) {task : PurgeTask} (ht : task ∈ p.purges) :
    (s.purgeStep p task).Accounted := by
  have hg : s.Grows (s.purgeStep p task) :=
    .paged hp rfl rfl rfl (fun _ hid => Or.inl hid) (fun _ hb => hb) (fun _ hid => hid) (fun _ hr => hr) fun _ hr => hr
  refine h.onPage hp rfl hg rfl ?_ ?_ (fun t ht => Or.inl (h.retries p hp t ht)) ?_
  · intro y hy
    exact ⟨y, List.mem_of_mem_filter hy, .refl _ y, fun hacc => hacc.grows hg⟩
  · intro x hx
    have hacc := (h.rows x hx).grows hg
    by_cases hdrop : task.drops x = true
    · refine Or.inr ?_
      unfold PurgeTask.drops at hdrop
      split at hdrop
      · simp only [PurgeTask.dropsFailed, Bool.and_eq_true, decide_eq_true_eq] at hdrop
        obtain ⟨⟨⟨hs, hack⟩, -⟩, -⟩ := hdrop
        cases hsup : x.superseded with
        | false => exact Or.inr (Or.inl (hacc.refused hs hack hsup))
        | true => exact Or.inr (Or.inr (hacc.retired hs hsup))
      · simp only [PurgeTask.dropsSynced, Bool.and_eq_true, decide_eq_true_eq] at hdrop
        obtain ⟨b, hb, hbid, -⟩ := hacc.landed hdrop.1.1
        exact Or.inl ⟨b, hb, hbid⟩
    · exact Or.inl ⟨x, List.mem_filter.mpr ⟨hx, by simpa using hdrop⟩, rfl⟩
  · intro t hm
    rcases mem_swap hm with hm | hm
    · exact Or.inl hm
    · refine Or.inr ?_
      split at hm
      · cases hm
      · rw [List.mem_singleton] at hm
        subst hm
        exact (h.purges p hp task ht).grows hg fun y hy => ⟨y, List.mem_of_mem_filter hy, .refl _ y⟩

theorem not_finished_of_unsent {a : QueueRow} (h : a.unsent = true) : ¬ a.finished := by
  rintro (hd | ⟨hd, -, hsup⟩) <;> simp [QueueRow.unsent, hd] at h
  rw [hsup] at h
  cases h

/-- A purge leaves what retires an older row that is still to send. -/
theorem Phone.Accounted.keeps_evidence (h : s.Accounted) (hok : s.Ok) (hp : s.page = some p) {task : PurgeTask}
    (ht : task ∈ p.purges) (hs : s.sound (.purgeStep task)) {a : QueueRow} (ha : a ∈ (s.purgeStep p task).rows)
    (hunsent : a.unsent = true) (hev : newerLanded a s.rows = true) :
    newerLanded a (s.purgeStep p task).rows = true := by
  have ha : a ∈ s.rows := List.mem_of_mem_filter ha
  obtain ⟨o, ho, hsees⟩ := List.any_eq_true.mp hev
  refine List.any_eq_true.mpr ⟨o, List.mem_filter.mpr ⟨ho, ?_⟩, hsees⟩
  by_contra hdrop
  have hdrop : task.drops o = true := by simpa using hdrop
  simp only [Bool.and_eq_true, decide_eq_true_eq, Bool.or_eq_true] at hsees
  obtain ⟨⟨hlt, hwhy⟩, hsame⟩ := hsees
  obtain ⟨hkind, hnone⟩ := sameKind_iff.mp hsame
  -- what the purge needed to know to drop the evidence
  have hspec : o.lastAttemptedAt.getD o.createdAt < task.cutoff ∧ needed task.all o = false ∧
      (o.status = .synced ∨ o.superseded = true) := by
    refine ⟨?_, ?_, hwhy⟩ <;> unfold PurgeTask.drops at hdrop <;> split at hdrop
    · simp only [PurgeTask.dropsFailed, Bool.and_eq_true, decide_eq_true_eq] at hdrop
      exact hdrop.1.2
    · simp only [PurgeTask.dropsSynced, Bool.and_eq_true, decide_eq_true_eq] at hdrop
      cases hlast : o.lastAttemptedAt with
      | none => simp [hlast] at hdrop
      | some time => simpa [hlast] using hdrop.1.2
    · simp only [PurgeTask.dropsFailed, Bool.and_eq_true, decide_eq_true_eq, Bool.not_eq_true',
        Bool.and_eq_false_iff] at hdrop
      obtain ⟨⟨⟨hf, -⟩, -⟩, hneed⟩ := hdrop
      refine hneed.resolve_left ?_
      rcases hwhy with hsynced | hsup
      · rw [hf] at hsynced
        cases hsynced
      · rw [hsup]
        decide
    · simp only [PurgeTask.dropsSynced, Bool.and_eq_true, Bool.not_eq_true'] at hdrop
      exact hdrop.2
  obtain ⟨hold, hneed, -⟩ := hspec
  have hneeds : ∀ u ∈ task.all, u.id = a.id → u.kind = a.kind → u.unsent = true → False := by
    intro u hu hid hukind hun
    have hsame' : o.sameKind u = true := sameKind_iff.mpr ⟨hkind.symm.trans hukind.symm, hkind ▸ hnone⟩
    have hyes : needed task.all o = true := List.any_eq_true.mpr ⟨u, hu, by simp [hun, hid, hlt, hsame']⟩
    rw [hneed] at hyes
    cases hyes
  rcases (h.purges p hp task ht).2 a ha with hlate | ⟨u, hu, hid, hukind, hun | hsync | hdone⟩
  · -- a row made after the purge read the store has no older evidence
    have hborn := h.born a ha o ho hlt
    have hafter : o.createdAt ≤ o.lastAttemptedAt.getD o.createdAt := by
      cases hlast : o.lastAttemptedAt with
      | none => exact le_rfl
      | some time => exact (h.age o ho).2 time hlast
    omega
  · exact hneeds u hu hid hukind hun
  · rcases hwhy with hsynced | hsup
    · obtain ⟨b, hb, hbid, hbkind⟩ := (h.rows o ho).landed hsynced
      have hdec := (hok.queue.landedHere b hb).1
      have hsome := (hok.queue.decidedHere b hdec o ho hbid.symm).2.2
      obtain ⟨time, htime⟩ := Option.isSome_iff_exists.mp hsome
      have hpast : o.lastAttemptedAt.any (· < task.cutoff) = true := by
        rw [htime] at hold ⊢
        simpa using hold
      rcases ((hok.page p hp).purging task ht).2 a ha o ho hlt hkind hnone (Or.inr ⟨b, hdec, hbid⟩) hpast with
        ⟨v, hv, hvid, hvkind, hvun⟩ | hdone
      · exact hneeds v hv hvid hvkind hvun
      · exact not_finished_of_unsent hunsent hdone
    · have hno := hs.2 o ho hdrop hsup u hu hsync (by omega)
      have hyes : o.sameKind u = true := sameKind_iff.mpr ⟨hkind.symm.trans hukind.symm, hkind ▸ hnone⟩
      rw [hno] at hyes
      cases hyes
  · exact not_finished_of_unsent hunsent hdone

/-- A sound step keeps every row accounted for. -/
theorem Phone.Accounted.moves (h : s.Accounted) (hok : s.Ok) (hm : Moves s s.sound s') : s'.Accounted := by
  cases hm with
  | tick ms =>
    exact h.beside ⟨Nat.le_add_right .., le_rfl, fun _ hb => hb, fun _ ht => ht, fun _ hr => hr, fun _ hr => hr⟩ rfl rfl rfl
  | otherCloses job =>
    exact h.beside ⟨le_rfl, le_rfl, fun _ hb => hb, fun _ ht => ht, fun _ hr => hr, fun _ hr => hr⟩ rfl rfl rfl
  | start hp => exact h.start hp
  | apply f hf =>
    unfold Phone.apply
    split
    · exact h
    · exact h.beside ⟨le_rfl, le_rfl, fun _ hb => hb, fun _ ht => ht, fun _ hr => hr, fun _ hr => hr⟩ rfl rfl rfl
  | die p hp hknown => exact h.die hp (hknown.2 p hp)
  | queue p hp actionType resourceId conflictIsError online => exact h.queue hok hp ..
  | page p p' hp hsame hpurges =>
    refine h.still hp rfl ?_ rfl rfl (fun task ht => Or.inl (h.retries p hp task (hsame.retries ▸ ht)))
      fun task ht => Or.inl (hpurges task ht)
    exact .paged hp rfl rfl rfl (fun _ hid => Or.inl (hsame.throwing ▸ hid)) (fun _ hb => hb) (fun _ hid => hid)
      (fun _ hr => hr) fun _ hr => hr
  | claim p q p' hp hq id caller hp' hpurges => exact h.claimFor hok hp hq id caller hp' hpurges
  | answer p hp f hf answer hmay => exact h.answered hok hp hf answer
  | throwRefusal p hp id hid =>
    refine h.still hp rfl ?_ rfl rfl (fun task ht => Or.inl (h.retries p hp task ht)) fun task ht => Or.inl ht
    refine .paged hp rfl rfl rfl ?_ (fun _ hb => hb) (fun _ hm => List.mem_append_left _ hm) (fun _ hr => hr)
      fun _ hr => hr
    intro other hother
    by_cases heq : other = id
    · exact Or.inr (List.mem_append_right _ (List.mem_singleton.mpr heq))
    · exact Or.inl ((List.mem_erase_of_ne heq).mpr hother)
  | retire p p' hp hsame hpurges task ht r hr => exact h.retire hok hp hsame hpurges ht hr
  | recover p p' hp hsame hpurges r hr => exact h.recover hok hp hsame hpurges hr
  | retry p hp jobId ids => exact h.retry hok hp jobId ids
  | retryStep p hp task ht reached hknown => exact h.retryStep hok hp ht hknown
  | purge p hp maxAgeDays => exact h.purge hok hp maxAgeDays
  | purgeStep p hp task ht => exact h.purgeStep hp ht

/-- A run of sound steps keeps every row accounted for. -/
theorem Phone.Accounted.run (h : s.Accounted) (hok : s.Ok) {actions : List QueueAction} (hs : s.soundRun actions)
    (hrun : s.run actions = some s') : s'.Accounted ∧ s'.Ok := by
  induction actions generalizing s with
  | nil =>
    cases hrun
    exact ⟨h, hok⟩
  | cons action rest ih =>
    obtain ⟨mid, hmid, hrest⟩ := Option.bind_eq_some_iff.mp hrun
    exact ih (h.moves hok (Phone.step_moves hs.1 hmid)) (hok.step hs.1.1 hmid) (hs.2 mid hmid) hrest

/-- The account of a row, read off. -/
theorem Phone.Accounted.accountsFor (h : s.Accounted) {id : ℕ} (hpos : 1 ≤ id) (hlt : id < s.nextId) :
    s.accountsFor id := by
  unfold Phone.accountsFor
  split
  · rename_i r hfind
    have hr : r ∈ s.rows := List.mem_of_find?_eq_some hfind
    obtain rfl : r.id = id := by simpa using List.find?_some hfind
    have hacc := h.rows r hr
    cases hs : r.status with
    | pending => exact Or.inl rfl
    | syncing => exact Or.inr (Or.inl rfl)
    | synced => exact Or.inr (Or.inr (Or.inl rfl))
    | failed =>
      refine Or.inr (Or.inr (Or.inr ⟨rfl, ?_⟩))
      cases hsup : r.superseded with
      | true => exact Or.inr (Or.inr ⟨rfl, hacc.retired hs hsup⟩)
      | false =>
        cases hack : r.acknowledged with
        | false => exact Or.inl rfl
        | true => exact Or.inr (Or.inl (hacc.refused hs hack hsup))
  · rename_i hfind
    rcases h.gone id hpos hlt with ⟨x, hx, hxid⟩ | hgone
    · have := List.find?_eq_none.mp hfind x hx
      simp [hxid] at this
    · exact hgone

end Accounts

theorem Phone.Accounted.new : Phone.Accounted {} := by
  constructor <;> simp
  intro id hpos hlt
  omega

/-- In every run of sound steps each row ever queued is waiting, on the wire, landed, listed for the tech, thrown to its
    caller or retired for a reason, and a purge leaves what retires an older row that is still to send. -/
theorem nothing_lost (actions : List QueueAction) (s : Phone) (hsound : Phone.soundRun {} actions)
    (hrun : Phone.run {} actions = some s) :
    (∀ id, 1 ≤ id → id < s.nextId → s.accountsFor id) ∧
    ∀ p task, s.page = some p → task ∈ p.purges → s.sound (.purgeStep task) → ∀ a ∈ (s.purgeStep p task).rows,
      a.unsent = true → newerLanded a s.rows = true → newerLanded a (s.purgeStep p task).rows = true := by
  obtain ⟨hacc, hok⟩ := Phone.Accounted.new.run Phone.Ok.new hsound hrun
  refine ⟨fun id hpos hlt => hacc.accountsFor hpos hlt, ?_⟩
  intro p task hp ht hs a ha hunsent hev
  exact hacc.keeps_evidence hok hp ht hs ha hunsent hev

/-- Nothing is left of three closeouts, two of them landed and one retired, and each is accounted for. -/
theorem nothing_lost_purgedCloseouts :
    ∃ s, Phone.run {} purgedCloseouts = some s ∧ s.rows = [] ∧ s.nextId = 4 ∧ s.accountsFor 1 ∧ s.accountsFor 2 ∧
      s.accountsFor 3 := by
  have hrun : (Phone.run {} purgedCloseouts).map (fun s => (s.rows, s.nextId)) = some ([], 4) := by decide +kernel
  obtain ⟨s, hs, hleft⟩ := Option.map_eq_some_iff.mp hrun
  obtain ⟨hrows, hnext⟩ := Prod.mk.inj hleft
  have hall := (nothing_lost purgedCloseouts s (by decide +kernel) hs).1
  exact ⟨s, hs, hrows, hnext, hall 1 le_rfl (by omega), hall 2 (by decide) (by omega), hall 3 (by decide) (by omega)⟩

/-! ### A closeout retired for the phone's own older one -/

/-- The first closeout is slow on the wire and takes effect at 2, after the second was made at 1. The second is refused
    in a drain, and the tech taps Retry. -/
def ownCloseout : List QueueAction :=
  let second : QueueRow := {
    id := 2, actionType := "job.closeout".toList, resourceId := "J-7".toList, conflictIsError := false
    createdAt := 1, status := .syncing, lastAttemptedAt := some 2 }
  let refused := { second with status := .failed }
  let all := [{ (sentCloseout 1 true).row with status := .synced }, refused]
  [.start, queueCloseout true, .sendNow 1, .tick 1, queueCloseout true, .sendNow 2, .tick 1, .apply 1,
    .answer (sentCloseout 1 true) (.status 200), .syncNow, .drain, .drain, .drain, .answer ⟨second, false⟩ (.status 422),
    .drain, .drain, .retry none (some [2]), .retryStep (.reading [refused]) true, .retryStep (.walking [refused] all) true,
    .retryStep (.asked refused true [] all) true]

/-- The row of the id is refused and acknowledged, nothing was thrown, and no retirement on record has a reason. -/
def Phone.forgot (s : Phone) (id : ℕ) : Bool :=
  ((s.rows.find? fun r => decide (r.id = id)).any fun r => decide (r.status = .failed) && r.acknowledged) &&
    s.thrown.isEmpty && (s.page.all fun p => p.throwing.isEmpty) &&
    s.retirements.all fun record => !record.newerSynced && !record.reported

/-- The second closeout is neither listed nor thrown, and it was retired for no newer row and nobody else's closeout. -/
theorem closeout_lost : ∃ s, Phone.run {} ownCloseout = some s ∧ 2 < s.nextId ∧ ¬ s.accountsFor 2 := by
  have hrun : (Phone.run {} ownCloseout).map (fun s => (s.nextId, s.forgot 2)) = some (3, true) := by decide +kernel
  obtain ⟨s, hs, heq⟩ := Option.map_eq_some_iff.mp hrun
  obtain ⟨hnext, hforgot⟩ := Prod.mk.inj heq
  unfold Phone.forgot at hforgot
  simp only [Bool.and_eq_true, List.isEmpty_iff, List.all_eq_true, Bool.not_eq_true'] at hforgot
  obtain ⟨⟨⟨hrow, hthrown⟩, hthrowing⟩, hrecords⟩ := hforgot
  have htold : ¬ s.told 2 := by
    rintro (hid | ⟨p, hp, hid⟩)
    · rw [hthrown] at hid
      cases hid
    · rw [hp, Option.all_some, List.isEmpty_iff] at hthrowing
      rw [hthrowing] at hid
      cases hid
  have hretired : ¬ s.retired 2 := by
    rintro ⟨record, hrecord, -, hwhy⟩
    simp [hrecords record hrecord] at hwhy
  refine ⟨s, hs, by omega, ?_⟩
  unfold Phone.accountsFor
  cases hfind : s.rows.find? fun r => decide (r.id = 2) with
  | none => simp [hfind] at hrow
  | some r =>
    simp only [hfind, Option.any_some, Bool.and_eq_true, decide_eq_true_eq] at hrow
    simp [hrow.1, hrow.2, htold, hretired]

end Gdx
