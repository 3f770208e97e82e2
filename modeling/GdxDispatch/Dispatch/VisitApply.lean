import GdxDispatch.Dispatch.NoDoubleBooking

/-! The applier replays the plan.

    A planner edits a working map and logs one action for each edit; `apply_visit_plan` runs the log
    against the stored rows. The two are interpreters of the same six actions. Every planner reaches
    its result by steps that each read a row of the map as it is then (`Work.Step`), and such a step
    moves the map and the stored rows alike, so the rows the applier leaves are the rows of the plan.

        map   ──step──▶ map'
         │               │        same id, tech, start, end, status
        rows ──action──▶ rows' -/

namespace Gdx
open Lib

/-! ### Stored rows -/

/-- A row of `appointments` that belongs to the job. -/
structure Appointment where
  id : ℕ
  techId : Option Text
  startAt : ℤ
  endAt : Option ℤ
  durationMinutes : Option ℤ
  status : Option Text
  arrivedAt : Option ℤ
  completedAt : Option ℤ
  title : Option Text
  customerId : Option ℕ
  customerName : Option Text
  createdBy : Option Text
  updatedAt : ℤ
  deletedAt : Option ℤ
  deriving DecidableEq, Repr

/-- The job's own columns the visits depend on, its customer's name looked up. -/
structure ScheduledJob where
  title : Option Text
  customerId : Option ℕ
  customerName : Option Text
  lifecycleStage : Option Text
  scheduledAt : Option ℤ
  deriving DecidableEq, Repr

def asValue (a : Appointment) : VisitRow where
  id := .stored a.id
  techId := a.techId
  startAt := a.startAt
  endAt := a.endAt
  status := a.status
  arrivedAt := a.arrivedAt
  title := a.title
  customerId := a.customerId
  customerName := a.customerName

/-- `rows`: the rows a plan can name, and the id the next stored row gets. -/
structure Session where
  rows : List (VisitId × Appointment)
  nextId : ℕ
  deriving DecidableEq, Repr

/-- `rows[key] = appt`. -/
def setKey : List (VisitId × Appointment) → VisitId → Appointment → List (VisitId × Appointment)
  | [], key, a => [(key, a)]
  | r :: rows, key, a => if r.1 = key then (key, a) :: rows else r :: setKey rows key a

/-- A row the plan names is changed in place; a row that is not there is an error. -/
def Session.edit (s : Session) (key : VisitId) (f : Appointment → Appointment) : Except VisitId Session :=
  if s.rows.any (·.1 == key) then
    .ok { s with rows := s.rows.map fun r => if r.1 = key then (r.1, f r.2) else r }
  else .error key

/-- `int((end - start).total_seconds() // 60)`. -/
def minutesBetween (start stop : ℤ) : ℤ := (stop - start) / MINUTE

/-- `(title if title else (job.title or "Job"))[:300]`. -/
def visitTitle (planned : Option VisitRow) (job : ScheduledJob) : Text :=
  (((planned.bind (·.title)).filter (· ≠ [])).getD ((job.title.filter (· ≠ [])).getD "Job".toList)).take 300

/-- The row an insert stores: the plan's customer, or the job's when the plan names none. -/
def insertedRow (job : ScheduledJob) (userId : Option Text) (now : ℤ) (planned : Option VisitRow) (id : ℕ)
    (tech : Option Text) (start stop : ℤ) : Appointment where
  id := id
  techId := tech
  startAt := start
  endAt := some stop
  durationMinutes := some (minutesBetween start stop)
  status := some "scheduled".toList
  arrivedAt := none
  completedAt := none
  title := some (visitTitle planned job)
  customerId := if (planned.bind (·.customerId)).isSome then planned.bind (·.customerId) else job.customerId
  customerName := if (planned.bind (·.customerId)).isSome then planned.bind (·.customerName) else job.customerName
  createdBy := userId
  updatedAt := now
  deletedAt := none

section Apply
variable (job : ScheduledJob) (userId : Option Text) (now : ℤ) (planned : List VisitRow)

def applyAction (s : Session) : VisitAction → Except VisitId Session
  | .insert key tech start stop _ =>
    .ok {
      rows := setKey s.rows key
        (insertedRow job userId now (planned.find? (·.id == key)) s.nextId tech start stop)
      nextId := s.nextId + 1 }
  | .move id start stop _ => s.edit id fun a => { a with
      startAt := start
      endAt := some stop
      durationMinutes := some (minutesBetween start stop)
      updatedAt := now }
  | .reassign id tech _ => s.edit id fun a => { a with techId := tech, updatedAt := now }
  | .retire id _ => s.edit id fun a => { a with deletedAt := some now, updatedAt := now }
  | .close id status _ => s.edit id fun a => { a with
      status := some status
      completedAt := if status = "completed".toList ∧ a.completedAt = none then some now else a.completedAt
      updatedAt := now }
  | .copyFields id changes => s.edit id fun a => { a with
      title := changes.title.getD a.title
      customerId := changes.customerId.getD a.customerId
      customerName := changes.customerName.getD a.customerName
      updatedAt := now }

def applyActions : Session → List VisitAction → Except VisitId Session
  | s, [] => .ok s
  | s, action :: actions => do
    let s ← applyAction job userId now planned s action
    applyActions s actions

/-- `apply_visit_plan` on the job's rows as `visit_rows` returns them. -/
def applyVisitPlan (rows : List Appointment) (nextId : ℕ) (plan : VisitPlan) : Except VisitId Session :=
  applyActions job userId now plan.visits ⟨rows.map fun a => (.stored a.id, a), nextId⟩ plan.actions

end Apply

/-- The rows that are not deleted. -/
def Session.live (s : Session) : List (VisitId × Appointment) := s.rows.filter (·.2.deletedAt.isNone)

/-- What of a visit the plan and the stored row agree on. -/
structure VisitView where
  id : VisitId
  techId : Option Text
  startAt : ℤ
  endAt : Option ℤ
  status : Option Text
  arrivedAt : Option ℤ
  deriving DecidableEq, Repr

def VisitRow.view (v : VisitRow) : VisitView := ⟨v.id, v.techId, v.startAt, v.endAt, v.status, v.arrivedAt⟩

def storedView (r : VisitId × Appointment) : VisitView :=
  ⟨r.1, r.2.techId, r.2.startAt, r.2.endAt, r.2.status, r.2.arrivedAt⟩

/-! ### What a planner can do to its map -/

/-- One edit of the map, of a row as the map holds it, with the action it logs. -/
inductive Work.Step : Work → Work → Prop
  | retire {w : Work} {v : VisitRow} (hv : v ∈ w.rows) (reason : String) : Step w (w.retire v reason)
  | close {w : Work} {v : VisitRow} (hv : v ∈ w.rows) (status : Text) (reason : String) :
      Step w (w.close v status reason)
  | reassign {w : Work} {v : VisitRow} (hv : v ∈ w.rows) (tech : Option Text) (reason : String) :
      Step w (w.reassign v tech reason)
  | move {w : Work} {v : VisitRow} (hv : v ∈ w.rows) (start stop : ℤ) (reason : String) :
      Step w (w.move v start stop reason)
  | insert {w : Work} (tech : Option Text) (start stop : ℤ) (fields : VisitFields) (reason : String) :
      Step w (w.insert tech start stop fields reason)
  | copyFields {w : Work} {v : VisitRow} (hv : v ∈ w.rows) (title customerName : Option Text)
      (customerId : Option ℕ) (changes : VisitFields) :
      Step w { w with
        rows := setRow w.rows { v with title := title, customerId := customerId, customerName := customerName }
        actions := w.actions ++ [.copyFields v.id changes] }

/-- Any number of edits. -/
def Work.Steps : Work → Work → Prop := Relation.ReflTransGen Work.Step

/-- Keys are distinct and the next key is new. -/
structure Work.Keyed (w : Work) : Prop where
  nodup : (w.rows.map (·.id)).Nodup
  fresh : ∀ v ∈ w.rows, ∀ n, v.id = .new n → n ≤ w.new

section Rows
variable {rows : List VisitRow} {row u : VisitRow}

/-- Writing under one key leaves the rows under the others. -/
theorem mem_setRow_of_ne : ∀ {rows : List VisitRow}, u ∈ rows → u.id ≠ row.id → u ∈ setRow rows row
  | v :: rows, hu, hne => by
    rw [setRow]
    rcases List.mem_cons.mp hu with rfl | hu
    · rw [if_neg hne]
      exact List.mem_cons_self ..
    · split_ifs
      · exact List.mem_cons_of_mem _ hu
      · exact List.mem_cons_of_mem _ (mem_setRow_of_ne hu hne)

theorem mem_setRow_self : ∀ (rows : List VisitRow), row ∈ setRow rows row
  | [] => List.mem_singleton_self row
  | v :: rows => by
    rw [setRow]
    split_ifs
    · exact List.mem_cons_self ..
    · exact List.mem_cons_of_mem _ (mem_setRow_self rows)

theorem setRow_new : ∀ {rows : List VisitRow}, row.id ∉ rows.map (·.id) → setRow rows row = rows ++ [row]
  | [], _ => rfl
  | v :: rows, h => by
    rw [List.map_cons, List.mem_cons, not_or] at h
    rw [setRow, if_neg fun heq => h.1 heq.symm, setRow_new h.2]
    rfl

theorem setRow_held : ∀ {rows : List VisitRow}, (rows.map (·.id)).Nodup → row.id ∈ rows.map (·.id) →
    setRow rows row = rows.map fun v => if v.id = row.id then row else v
  | [], _, h => by cases h
  | v :: rows, hnd, h => by
    rw [List.map_cons, List.nodup_cons] at hnd
    rw [setRow, List.map_cons]
    split_ifs with hid
    · congr 1
      rw [eq_comm]
      conv_rhs => rw [← List.map_id rows]
      refine List.map_congr_left fun u hu => ?_
      rw [if_neg, id]
      intro heq
      exact hnd.1 (hid.trans heq.symm ▸ List.mem_map_of_mem hu)
    · rw [List.map_cons, List.mem_cons] at h
      rw [setRow_held hnd.2 (h.resolve_left fun heq => hid heq.symm)]

end Rows

section Steps
variable {w w' : Work}

theorem Work.Keyed.setRow {row : VisitRow} {actions : List VisitAction} (h : w.Keyed) {n : ℕ} (hn : w.new ≤ n)
    (hrow : ∀ m, row.id = .new m → m ≤ n) : Work.Keyed ⟨setRow w.rows row, actions, n⟩ := by
  refine ⟨nodup_setRow h.nodup row, fun v hv m hm => ?_⟩
  rcases mem_setRow h.nodup hv with rfl | ⟨hv, -⟩
  · exact hrow m hm
  · exact (h.fresh v hv m hm).trans hn

theorem Work.Step.keyed (h : w.Step w') (hk : w.Keyed) : w'.Keyed := by
  cases h with
  | retire hv reason =>
    exact ⟨nodup_filter_ids hk.nodup _, fun v hv => hk.fresh v (List.mem_of_mem_filter hv)⟩
  | @close v hv => exact hk.setRow (le_refl _) (hk.fresh v hv)
  | @reassign v hv => exact hk.setRow (le_refl _) (hk.fresh v hv)
  | @move v hv => exact hk.setRow (le_refl _) (hk.fresh v hv)
  | insert =>
    refine hk.setRow (Nat.le_succ _) fun m hm => ?_
    cases hm
    exact le_refl _
  | @copyFields v hv => exact hk.setRow (le_refl _) (hk.fresh v hv)

theorem Work.Steps.keyed (h : w.Steps w') (hk : w.Keyed) : w'.Keyed := by
  induction h with
  | refl => exact hk
  | tail _ hs ih => exact hs.keyed ih

/-- A loop over rows read before it starts: each pass works on its own row, so the rows ahead are
    still as they were read, and what one pass keeps the loop keeps. -/
theorem snapshot_foldl {P : Work → Prop} {f : Work → VisitRow → Work}
    (hstep : ∀ (w : Work) (v : VisitRow), v ∈ w.rows → P w → P (f w v))
    (hkeep : ∀ (w : Work) (v : VisitRow), ∀ u ∈ w.rows, u.id ≠ v.id → u ∈ (f w v).rows) :
    ∀ (vs : List VisitRow) {w : Work}, (vs.map (·.id)).Nodup → (∀ v ∈ vs, v ∈ w.rows) → P w → P (vs.foldl f w)
  | [], _, _, _, h => h
  | v :: vs, w, hnd, hin, h => by
    rw [List.map_cons, List.nodup_cons] at hnd
    refine snapshot_foldl hstep hkeep vs hnd.2 (fun u hu => ?_) (hstep w v (hin v (List.mem_cons_self ..)) h)
    refine hkeep w v u (hin u (List.mem_cons_of_mem _ hu)) fun heq => hnd.1 ?_
    rw [← heq]
    exact List.mem_map_of_mem hu

theorem steps_foldl {f : Work → VisitRow → Work}
    (hstep : ∀ (w : Work) (v : VisitRow), v ∈ w.rows → w.Steps (f w v))
    (hkeep : ∀ (w : Work) (v : VisitRow), ∀ u ∈ w.rows, u.id ≠ v.id → u ∈ (f w v).rows) (vs : List VisitRow)
    {w : Work} (hnd : (vs.map (·.id)).Nodup) (hin : ∀ v ∈ vs, v ∈ w.rows) : w.Steps (vs.foldl f w) :=
  snapshot_foldl (P := w.Steps) (fun m v hv hm => hm.trans (hstep m v hv)) hkeep vs hnd hin .refl

theorem nodup_liveRows (h : (w.rows.map (·.id)).Nodup) : (w.liveRows.map (·.id)).Nodup :=
  ((List.perm_insertionSort visitLe w.rows).map _).nodup_iff.mpr h

theorem nodup_on {z : ShopZone} {day : ℤ} {tech : Option (Option Text)} {states : Option (List VisitState)}
    (h : (w.rows.map (·.id)).Nodup) : ((w.on z day tech states).map (·.id)).Nodup :=
  (nodup_liveRows h).sublist (List.filter_sublist.map _)

theorem retire_keeps (v : VisitRow) (reason : String) :
    ∀ u ∈ w.rows, u.id ≠ v.id → u ∈ (w.retire v reason).rows := fun _ hu hne =>
  List.mem_filter.mpr ⟨hu, by simpa using hne⟩

/-! ### Edits of OPEN rows -/

/-- The rows that are not OPEN stay as they are. -/
def Work.Spares (w w' : Work) : Prop := ∀ u ∈ w.rows, visitState u ≠ .open → u ∈ w'.rows

/-- A run of edits that spares the rows that are not OPEN. -/
structure Work.Gentle (w w' : Work) : Prop where
  steps : w.Steps w'
  spares : w.Spares w'

theorem Work.Gentle.refl (w : Work) : w.Gentle w := ⟨.refl, fun _ hu _ => hu⟩

theorem Work.Gentle.trans {w'' : Work} (h : w.Gentle w') (h' : w'.Gentle w'') : w.Gentle w'' :=
  ⟨Relation.ReflTransGen.trans h.steps h'.steps, fun u hu hne => h'.spares u (h.spares u hu hne) hne⟩

theorem Work.Gentle.keyed (h : w.Gentle w') (hk : w.Keyed) : w'.Keyed := h.steps.keyed hk

/-- One row leaves the map or is rewritten under its key. -/
inductive EditsRow (v : VisitRow) (w w' : Work) : Prop
  | dropped (h : w'.rows = w.rows.filter (·.id ≠ v.id))
  | rewritten (row : VisitRow) (h : w'.rows = setRow w.rows row) (hid : row.id = v.id)

/-- Only its own row is touched. -/
theorem EditsRow.keeps {v : VisitRow} (h : EditsRow v w w') : ∀ u ∈ w.rows, u.id ≠ v.id → u ∈ w'.rows := by
  intro u hu hne
  cases h with
  | dropped h =>
    rw [h]
    exact List.mem_filter.mpr ⟨hu, by simpa using hne⟩
  | rewritten row h hid =>
    rw [h]
    exact mem_setRow_of_ne hu (hid ▸ hne)

theorem EditsRow.nodup {v : VisitRow} (h : EditsRow v w w') (hnd : (w.rows.map (·.id)).Nodup) :
    (w'.rows.map (·.id)).Nodup := by
  cases h with
  | dropped h => rw [h]; exact nodup_filter_ids hnd _
  | rewritten row h hid => rw [h]; exact nodup_setRow hnd _

/-- An edit of an OPEN row spares the rows that are not OPEN. -/
theorem EditsRow.spares {v : VisitRow} (h : EditsRow v w w') (hnd : (w.rows.map (·.id)).Nodup) (hv : v ∈ w.rows)
    (hopen : visitState v = .open) : w.Spares w' := by
  intro u hu hne
  refine h.keeps u hu fun hid => hne ?_
  rw [List.inj_on_of_nodup_map hnd hu hv hid, hopen]

/-- An edit of an OPEN row, where the map holds it. -/
structure OpenEdit (v : VisitRow) (w w' : Work) : Prop where
  isOpen : visitState v = .open
  step : v ∈ w.rows → w.Step w'
  edit : EditsRow v w w'

theorem OpenEdit.gentle {v : VisitRow} (h : OpenEdit v w w') (hk : w.Keyed) (hv : v ∈ w.rows) : w.Gentle w' :=
  ⟨.single (h.step hv), h.edit.spares hk.nodup hv h.isOpen⟩

section OpenEdits
variable {v : VisitRow} (hopen : visitState v = .open)
include hopen

theorem openEdit_retire (w : Work) (reason : String) : OpenEdit v w (w.retire v reason) :=
  ⟨hopen, fun hv => .retire hv reason, .dropped rfl⟩

theorem openEdit_reassign (w : Work) (tech : Option Text) (reason : String) :
    OpenEdit v w (w.reassign v tech reason) := ⟨hopen, fun hv => .reassign hv tech reason, .rewritten _ rfl rfl⟩

theorem openEdit_move (w : Work) (start stop : ℤ) (reason : String) : OpenEdit v w (w.move v start stop reason) :=
  ⟨hopen, fun hv => .move hv start stop reason, .rewritten _ rfl rfl⟩

end OpenEdits

theorem insert_gentle (hk : w.Keyed) (tech : Option Text) (start stop : ℤ) (fields : VisitFields) (reason : String) :
    w.Gentle (w.insert tech start stop fields reason) := by
  refine ⟨.single (.insert ..), fun u hu _ => mem_setRow_of_ne hu fun hid => ?_⟩
  have hle := hk.fresh u hu _ hid
  omega

/-- A loop over rows read before it starts that edits the OPEN ones among them. -/
theorem gentle_foldl {f : Work → VisitRow → Work} {vs : List VisitRow}
    (hf : ∀ (w : Work), ∀ v ∈ vs, f w v = w ∨ OpenEdit v w (f w v)) (hk : w.Keyed) (hvs : (vs.map (·.id)).Nodup)
    (hin : ∀ v ∈ vs, v ∈ w.rows) : w.Gentle (vs.foldl f w) := by
  induction vs generalizing w with
  | nil => exact .refl w
  | cons v vs ih =>
    rw [List.map_cons, List.nodup_cons] at hvs
    have hrest : ∀ (w : Work), ∀ u ∈ vs, f w u = w ∨ OpenEdit u w (f w u) := fun w u hu =>
      hf w u (List.mem_cons_of_mem _ hu)
    rw [List.foldl_cons]
    rcases hf w v List.mem_cons_self with heq | hedit
    · rw [heq]
      exact ih hrest hk hvs.2 fun u hu => hin u (List.mem_cons_of_mem _ hu)
    · have hone := hedit.gentle hk (hin v List.mem_cons_self)
      refine hone.trans (ih hrest (hone.keyed hk) hvs.2 fun u hu => ?_)
      exact hedit.edit.keeps u (hin u (List.mem_cons_of_mem _ hu)) fun hid => hvs.1 (hid ▸ List.mem_map_of_mem hu)

theorem retireAll_gentle (reason : String) {vs : List VisitRow} (hk : w.Keyed) (hvs : (vs.map (·.id)).Nodup)
    (hin : ∀ v ∈ vs, v ∈ w.rows ∧ visitState v = .open) : w.Gentle (vs.foldl (fun w v => w.retire v reason) w) :=
  gentle_foldl (fun w v hv => .inr (openEdit_retire (hin v hv).2 w reason)) hk hvs fun v hv => (hin v hv).1

theorem open_of_on {z : ShopZone} {day : ℤ} {tech : Option (Option Text)} {v : VisitRow}
    (h : v ∈ w.on z day tech (some [.open])) : v ∈ w.rows ∧ visitState v = .open := by
  obtain ⟨hv, -, -, hstate⟩ := mem_on.mp h
  exact ⟨hv, List.mem_singleton.mp (hstate _ rfl)⟩

theorem copyFields_gentle (hk : w.Keyed) (fields : VisitFields) : w.Gentle (copyFields w fields) := by
  unfold copyFields
  split_ifs
  · exact .refl w
  refine gentle_foldl (fun w v _ => ?_) hk (nodup_liveRows hk.nodup) fun v hv => mem_liveRows.mp hv
  unfold copyFieldsRow
  split
  · exact .inl rfl
  · simp only
    split_ifs with hopen
    · exact .inl rfl
    · exact .inl rfl
    · exact .inr ⟨not_not.mp hopen, fun hv => .copyFields hv .., .rewritten _ rfl rfl⟩

/-! ### The crew -/

theorem crewRemove_gentle (z : ShopZone) (hk : w.Keyed) (n : ℤ) (crew : List Text) (tech : Text) :
    w.Gentle (crewRemove z n crew w tech) := by
  unfold crewRemove
  have hnd : ((w.on z n (some (some tech)) (some [.open])).map (·.id)).Nodup := nodup_on hk.nodup
  split
  · exact .refl w
  · next first rest hon =>
    rw [hon] at hnd
    have hin : ∀ v ∈ first :: rest, v ∈ w.rows ∧ visitState v = .open := fun v hv => open_of_on (hon ▸ hv)
    obtain ⟨hfirst, hopen⟩ := hin first List.mem_cons_self
    by_cases hcrew : crew ≠ []
    · rw [if_pos hcrew]
      exact retireAll_gentle _ hk hnd hin
    · rw [if_neg hcrew]
      rw [List.map_cons, List.nodup_cons] at hnd
      have hafter : ∀ m, OpenEdit first w m → w.Gentle (rest.foldl (fun w v => w.retire v "crew_removed") m) := by
        intro m hedit
        have hone := hedit.gentle hk hfirst
        refine hone.trans (retireAll_gentle _ (hone.keyed hk) hnd.2 fun v hv => ?_)
        obtain ⟨hv', hvopen⟩ := hin v (List.mem_cons_of_mem _ hv)
        exact ⟨hedit.edit.keeps v hv' fun hid => hnd.1 (hid ▸ List.mem_map_of_mem hv), hvopen⟩
      simp only
      split_ifs
      · exact hafter _ (openEdit_retire hopen w _)
      · exact hafter _ (openEdit_reassign hopen w none _)

theorem crewAdd_gentle (z : ShopZone) (hk : w.Keyed) (n : ℤ) (nStart nLength : Option ℤ) (fields : VisitFields)
    (mins : ℤ) (wasEmpty : Bool) (tech : Text) : w.Gentle (crewAdd z n nStart nLength fields mins wasEmpty w tech) := by
  unfold crewAdd
  by_cases hlive : (w.on z n (some (some tech)) none).any isLive = true
  · rw [if_pos hlive]
    exact .refl w
  rw [if_neg hlive]
  generalize hslots : (if wasEmpty = true then w.on z n (some none) (some [.open]) else []) = slots
  cases slots with
  | cons slot rest =>
    obtain ⟨hslot, hopen⟩ := open_of_on (slot_on hslots)
    exact (openEdit_reassign hopen w _ _).gentle hk hslot
  | nil =>
    cases nStart with
    | none => exact .refl w
    | some s => exact insert_gentle hk ..

theorem foldl_removeTech_gentle (z : ShopZone) (n : Option ℤ) : ∀ (ts : List Text) (s : List Text × Work),
    s.2.Keyed → s.2.Gentle (ts.foldl (removeTech z n) s).2
  | [], s, _ => .refl s.2
  | t :: ts, s, hk => by
    have hone : s.2.Gentle (removeTech z n s t).2 := by
      cases n with
      | none => exact .refl s.2
      | some n => exact crewRemove_gentle z hk n _ t
    exact hone.trans (foldl_removeTech_gentle z n ts _ (hone.keyed hk))

theorem foldl_addTech_gentle (z : ShopZone) (n nStart nLength : Option ℤ) (fields : VisitFields) (mins : ℤ) :
    ∀ (ts : List Text) (s : List Text × Work), s.2.Keyed →
      s.2.Gentle (ts.foldl (addTech z n nStart nLength fields mins) s).2
  | [], s, _ => .refl s.2
  | t :: ts, s, hk => by
    have hone : s.2.Gentle (addTech z n nStart nLength fields mins s t).2 := by
      cases n with
      | none => exact .refl s.2
      | some n => exact crewAdd_gentle z hk n nStart nLength fields mins _ t
    exact hone.trans (foldl_addTech_gentle z n nStart nLength fields mins ts _ (hone.keyed hk))

theorem changeCrew_gentle (z : ShopZone) (hk : w.Keyed) (n : Option ℤ) (edit : VisitEdit) :
    w.Gentle (changeCrew z w n edit).2 := by
  unfold changeCrew
  split
  · exact .refl w
  · exact (foldl_removeTech_gentle z n _ (edit.crewBefore, w) hk).trans (foldl_addTech_gentle z n _ _ _ _ _ _
      ((foldl_removeTech_gentle z n _ (edit.crewBefore, w) hk).keyed hk))

/-! ### The date -/

theorem book_gentle {z : ShopZone} {crew : List Text} {target : ℤ} {fields : VisitFields} {edit : VisitEdit}
    {reopen : Bool} (hk : w.Keyed) (h : book z w crew target fields edit reopen = .ok w') : w.Gentle w' := by
  unfold book at h
  simp only at h
  generalize (if crew = [] then [none] else crew.map some) = slots at h
  generalize slots.filter (fun t => (w.on z (z.day target) (some t) none).any isLive) = closedHere at h
  by_cases hask : reopen = true ∧ closedHere ≠ [] ∧ edit.rebookClosedDay = none
  · rw [if_pos hask] at h
    cases h
  rw [if_neg hask] at h
  cases h
  clear hask
  induction slots generalizing w with
  | nil => exact .refl w
  | cons tech slots ih =>
    rw [List.foldl_cons]
    split_ifs
    · exact ih hk
    · have hone := insert_gentle hk tech target (target + minutes edit.durationMinutes) fields "date_set"
      exact hone.trans (ih (hone.keyed hk))

theorem nameFirstDay_gentle (z : ShopZone) (hk : w.Keyed) (mins : Option ℤ) : w.Gentle (nameFirstDay z w mins) := by
  unfold nameFirstDay
  split
  · unfold setFirstDayLength
    split
    · exact .refl w
    refine gentle_foldl (fun w v hv => ?_) hk (nodup_on hk.nodup) fun v hv => (mem_on.mp hv).1
    split_ifs
    · exact .inr (openEdit_move (open_of_on hv).2 w _ _ _)
    · exact .inl rfl
  · exact .refl w

theorem moveDate_gentle {z : ShopZone} (hk : w.Keyed) {n : Option ℤ} {crew : List Text} {edit : VisitEdit}
    {target : Option ℤ} (h : moveDate z w n crew edit target = .ok w') : w.Gentle w' := by
  unfold moveDate at h
  split at h
  · cases h
    refine retireAll_gentle _ hk ((nodup_liveRows hk.nodup).sublist (List.filter_sublist.map _)) fun v hv => ?_
    obtain ⟨hv, hopen⟩ := List.mem_filter.mp hv
    exact ⟨mem_liveRows.mp hv, by simpa using hopen⟩
  · split at h
    · rw [except_bind_ok] at h
      obtain ⟨-, -, h⟩ := h
      cases h
      exact gentle_foldl (fun w v hv => .inr (openEdit_move (open_of_on hv).2 w _ _ _)) hk (nodup_on hk.nodup)
        fun v hv => (mem_on.mp hv).1
    · rw [except_bind_ok] at h
      obtain ⟨booked, hbook, h⟩ := h
      rw [except_bind_ok] at h
      obtain ⟨-, -, h⟩ := h
      cases h
      exact book_gentle hk hbook

/-- First-day length and fields, the last two rules of a live job's edit. -/
theorem dress_gentle (z : ShopZone) (hk : w.Keyed) (mins : Option ℤ) (fields : VisitFields) :
    w.Gentle (copyFields (nameFirstDay z w mins) fields) := by
  have hfirst := nameFirstDay_gentle z hk mins
  exact hfirst.trans (copyFields_gentle (hfirst.keyed hk) fields)

theorem editDate_gentle {z : ShopZone} (hk : w.Keyed) {edit : VisitEdit} {target : Option ℤ}
    (h : editDate z w edit target = .ok w') : w.Gentle w' := by
  unfold editDate at h
  rw [except_bind_ok] at h
  obtain ⟨-, -, h⟩ := h
  rw [except_bind_ok] at h
  obtain ⟨moved, hmove, h⟩ := h
  cases h
  have hcrew := changeCrew_gentle z hk (currentDay z w.liveRows) edit
  have hboth := hcrew.trans (moveDate_gentle (hcrew.keyed hk) hmove)
  exact hboth.trans (dress_gentle z (hboth.keyed hk) _ _)

theorem editCrew_gentle {z : ShopZone} (hk : w.Keyed) (edit : VisitEdit) : w.Gentle (editCrew z w edit) := by
  have hcrew := changeCrew_gentle z hk (currentDay z w.liveRows) edit
  exact hcrew.trans (dress_gentle z (hcrew.keyed hk) _ _)

/-! ### The finish and the cancel -/

theorem finish_steps (z : ShopZone) (hk : w.Keyed) (day : Option ℤ) (reason : String) :
    w.Steps (finish z w day reason) := by
  refine steps_foldl (fun w v hv => ?_) (fun w v u hu hne => ?_) _ (nodup_liveRows hk.nodup)
    fun v hv => mem_liveRows.mp hv
  · unfold finishRow
    split
    · exact .single (.close hv _ reason)
    · split_ifs
      · exact .single (.retire hv reason)
      · exact .single (.close hv _ reason)
    · exact .refl
  · unfold finishRow
    split
    · exact mem_setRow_of_ne hu hne
    · split_ifs
      · exact retire_keeps v reason u hu hne
      · exact mem_setRow_of_ne hu hne
    · exact hu

theorem cancel_steps (hk : w.Keyed) {reason : String} (h : cancel w reason = .ok w') : w.Steps w' := by
  unfold cancel at h
  simp only at h
  split_ifs at h
  cases h
  refine steps_foldl (fun w v hv => ?_) (fun w v u hu hne => ?_) _ (nodup_liveRows hk.nodup)
    fun v hv => mem_liveRows.mp hv
  · unfold cancelRow
    split
    · exact .single (.retire hv reason)
    · exact .single (.close hv _ reason)
    · exact .refl
  · unfold cancelRow
    split
    · exact retire_keeps v reason u hu hne
    · exact mem_setRow_of_ne hu hne
    · exact hu

theorem settleReopened_steps {z : ShopZone} (hk : w.Keyed) {edit : VisitEdit} (h : settleReopened z w edit = .ok w') :
    w.Steps w' := by
  unfold settleReopened at h
  split_ifs at h
  · exact cancel_steps hk h
  · cases h
    exact finish_steps z hk _ _

theorem reopenJob_steps {z : ShopZone} (hk : w.Keyed) {edit : VisitEdit} {at' : Option (Option ℤ)}
    (h : reopenJob z w edit at' = .ok w') : w.Steps w' := by
  unfold reopenJob at h
  rw [except_bind_ok] at h
  obtain ⟨settled, hsettle, h⟩ := h
  have hfirst := settleReopened_steps hk hsettle
  simp only [changeCrew_none] at h
  split at h
  · exact hfirst.trans (book_gentle (hfirst.keyed hk) h).steps
  · cases h
    exact hfirst

/-- Every branch of the planner is a run of edits. -/
theorem planEdit_steps {z : ShopZone} (hk : w.Keyed) {edit : VisitEdit} {at' : Option (Option ℤ)}
    (h : planEdit z w edit = .ok (w', at')) : w.Steps w' := by
  unfold planEdit at h
  simp only at h
  split_ifs at h
  · cases h
    have hfin := finish_steps z hk edit.finishDay "job_completed"
    exact hfin.trans (copyFields_gentle (hfin.keyed hk) _).steps
  · rw [except_bind_ok] at h
    obtain ⟨r, hr, h⟩ := h
    cases h
    exact reopenJob_steps hk hr
  · rw [except_bind_ok] at h
    obtain ⟨r, hr, h⟩ := h
    cases h
    have hcan := cancel_steps hk hr
    exact hcan.trans (copyFields_gentle (hcan.keyed hk) _).steps
  · cases h
    exact (copyFields_gentle hk _).steps
  · unfold editLive at h
    split at h
    · rw [except_bind_ok] at h
      obtain ⟨r, hr, h⟩ := h
      cases h
      exact (editDate_gentle hk hr).steps
    · cases h
      exact (editCrew_gentle hk edit).steps

/-! ### The office's own visits -/

theorem addDay_gentle {z : ShopZone} {time : ClockTime} {mins : ℤ} {slots : List (Option Text)} {fields : VisitFields}
    {day : ℤ} (hk : w.Keyed) (h : addDay z time mins slots fields w day = .ok w') : w.Gentle w' := by
  unfold addDay at h
  simp only at h
  split_ifs at h
  cases h
  clear * - hk
  induction slots generalizing w with
  | nil => exact .refl w
  | cons tech slots ih =>
    have hone := insert_gentle hk tech (z.shopInstant day time) (z.shopInstant day time + minutes mins) fields "visits_booked"
    exact hone.trans (ih (hone.keyed hk))

theorem addDays_gentle {z : ShopZone} {time : ClockTime} {mins : ℤ} {slots : List (Option Text)} {fields : VisitFields}
    {days seen : List ℤ} (hk : w.Keyed) (h : addDays z time mins slots fields w seen days = .ok w') : w.Gentle w' := by
  induction days generalizing seen w with
  | nil =>
    cases h
    exact .refl _
  | cons day days ih =>
    rw [addDays] at h
    split_ifs at h
    rw [except_bind_ok] at h
    obtain ⟨m, hm, h⟩ := h
    have hone := addDay_gentle hk hm
    exact hone.trans (ih (hone.keyed hk) h)

theorem findOpen_open {id : VisitId} {v : VisitRow} (h : findOpen w id = .ok v) : visitState v = .open := by
  unfold findOpen at h
  split at h
  · cases h
  · split_ifs at h with hopen
    cases h
    exact not_not.mp hopen

/-- The tech is written first, and the times onto the row that leaves. -/
theorem moveVisit_gentle {v : VisitRow} (hk : w.Keyed) (hv : v ∈ w.rows) (hopen : visitState v = .open)
    (tech : Option Text) (start stop : ℤ) : w.Gentle (moveVisit w v tech start stop) := by
  unfold moveVisit
  simp only
  by_cases ht : tech ≠ v.techId
  · rw [if_pos ht]
    have hone := (openEdit_reassign hopen w tech "visit_edited").gentle hk hv
    have hopen' : visitState { v with techId := tech } = .open := hopen
    split_ifs
    · exact hone.trans ((openEdit_move hopen' _ start stop _).gentle (hone.keyed hk) (mem_setRow_self _))
    · exact hone
  · rw [if_neg ht]
    rw [ne_eq, not_not] at ht
    subst ht
    split_ifs
    · exact (openEdit_move hopen w start stop _).gentle hk hv
    · exact .refl w

theorem runPlan_ok {visits : List VisitRow} {run : Except Refusal Work} (h : (runPlan visits run).refusal = none) :
    ∃ w, run = .ok w ∧ (runPlan visits run).actions = w.actions ∧ (runPlan visits run).visits = w.liveRows := by
  cases run with
  | error e => cases h
  | ok w => exact ⟨w, rfl, rfl, rfl⟩

/-- A plan that is not refused is a run of edits from the job's visits. -/
theorem plan_steps {z : ShopZone} {visits : List VisitRow} {request : VisitRequest} (hk : (Work.ofVisits visits).Keyed)
    (h : (request.plan z visits).refusal = none) : ∃ w, (Work.ofVisits visits).Steps w ∧
      (request.plan z visits).actions = w.actions ∧ (request.plan z visits).visits = w.liveRows := by
  cases request with
  | sync edit =>
    simp only [VisitRequest.plan, planVisitSync] at h ⊢
    cases hp : planEdit z (.ofVisits visits) edit with
    | error e => rw [hp] at h; cases h
    | ok r => exact ⟨r.1, planEdit_steps hk hp, rfl, rfl⟩
  | add today jobState days startTime mins techs fields =>
    obtain ⟨w, hw, ha, hv⟩ := runPlan_ok h
    simp only [except_bind_ok] at hw
    obtain ⟨-, -, -, -, -, -, -, -, hw⟩ := hw
    exact ⟨w, (addDays_gentle hk hw).steps, ha, hv⟩
  | move today jobState visitId startAt endAt techId =>
    obtain ⟨w, hw, ha, hv⟩ := runPlan_ok h
    simp only [except_bind_ok] at hw
    obtain ⟨-, -, v, hfind, -, -, -, -, -, -, hw⟩ := hw
    cases hw
    exact ⟨_, (moveVisit_gentle hk (findOpen_ok hfind) (findOpen_open hfind) _ _ _).steps, ha, hv⟩
  | remove jobState visitId =>
    obtain ⟨w, hw, ha, hv⟩ := runPlan_ok h
    simp only [except_bind_ok] at hw
    obtain ⟨-, -, v, hfind, -, -, hw⟩ := hw
    cases hw
    exact ⟨_, .single (.retire (findOpen_ok hfind) _), ha, hv⟩

end Steps

/-! ### The log replayed -/

section Realises
variable {job : ScheduledJob} {userId : Option Text} {now : ℤ} {planned : List VisitRow} {s₀ : Session} {w w' : Work}

theorem applyActions_snoc (action : VisitAction) : ∀ (actions : List VisitAction) (s : Session),
    applyActions job userId now planned s (actions ++ [action]) =
      applyActions job userId now planned s actions >>= fun s => applyAction job userId now planned s action
  | [], s => by
    rw [List.nil_append, applyActions, applyActions]
    show (applyAction job userId now planned s action >>= fun s => .ok s) = applyAction job userId now planned s action
    cases applyAction job userId now planned s action <;> rfl
  | a :: actions, s => by
    rw [List.cons_append, applyActions, applyActions]
    cases applyAction job userId now planned s a with
    | error e => rfl
    | ok s' => exact applyActions_snoc action actions s'

/-- The stored rows after the log are the rows of the map. -/
structure Realised (s : Session) (w : Work) : Prop where
  rows : s.live.map storedView = w.rows.map (·.view)
  keys : (s.rows.map (·.1)).Nodup
  fresh : ∀ r ∈ s.rows, ∀ n, r.1 = .new n → n ≤ w.new

theorem Realised.held {s : Session} (h : Realised s w) {v : VisitRow} (hv : v ∈ w.rows) :
    s.rows.any (·.1 == v.id) = true := by
  have hmem : v.view ∈ s.live.map storedView := h.rows ▸ List.mem_map_of_mem hv
  obtain ⟨r, hr, hview⟩ := List.mem_map.mp hmem
  exact List.any_eq_true.mpr ⟨r, List.mem_of_mem_filter hr, beq_iff_eq.mpr (congrArg VisitView.id hview)⟩

theorem keys_edit (rows : List (VisitId × Appointment)) (key : VisitId) (f : Appointment → Appointment) :
    (rows.map fun r => if r.1 = key then (r.1, f r.2) else r).map (·.1) = rows.map (·.1) := by
  rw [List.map_map]
  refine List.map_congr_left fun r _ => ?_
  simp only [Function.comp_apply]
  split_ifs <;> rfl

/-- An edit of one row on both sides: `g` is what it does to the view. -/
theorem Realised.edit {s : Session} {actions : List VisitAction} {v : VisitRow} {f : Appointment → Appointment}
    {g : VisitView → VisitView} (row : VisitRow) (h : Realised s w) (hk : w.Keyed) (hv : v ∈ w.rows)
    (hdel : ∀ a, (f a).deletedAt = a.deletedAt) (hf : ∀ r, storedView (r.1, f r.2) = g (storedView r))
    (hid : row.id = v.id) (hrow : row.view = g v.view) :
    ∃ s', s.edit v.id f = .ok s' ∧ Realised s' ⟨setRow w.rows row, actions, w.new⟩ := by
  refine ⟨_, by rw [Session.edit, if_pos (h.held hv)], ?_, ?_, ?_⟩
  · have hin : row.id ∈ w.rows.map (·.id) := hid ▸ List.mem_map_of_mem hv
    have hleft : ∀ rows : List (VisitId × Appointment),
        ((rows.map fun r => if r.1 = v.id then (r.1, f r.2) else r).filter (·.2.deletedAt.isNone)).map storedView =
          ((rows.filter (·.2.deletedAt.isNone)).map storedView).map fun x => if x.id = v.id then g x else x := by
      intro rows
      rw [List.filter_map, List.map_map, List.map_map]
      have hsame : rows.filter ((fun r => r.2.deletedAt.isNone) ∘ fun r => if r.1 = v.id then (r.1, f r.2) else r) =
          rows.filter (·.2.deletedAt.isNone) := by
        refine List.filter_congr fun r _ => ?_
        simp only [Function.comp_apply]
        split_ifs
        · rw [hdel]
        · rfl
      rw [hsame]
      refine List.map_congr_left fun r _ => ?_
      simp only [Function.comp_apply]
      by_cases hr : r.1 = v.id
      · rw [if_pos hr, if_pos (show (storedView r).id = v.id from hr), hf]
      · rw [if_neg hr, if_neg (show ¬ (storedView r).id = v.id from hr)]
    show ((s.rows.map fun r => if r.1 = v.id then (r.1, f r.2) else r).filter (·.2.deletedAt.isNone)).map storedView =
      (setRow w.rows row).map (·.view)
    rw [hleft, show (s.rows.filter (·.2.deletedAt.isNone)).map storedView = w.rows.map (·.view) from h.rows,
      setRow_held hk.nodup hin, List.map_map, List.map_map]
    refine List.map_congr_left fun u hu => ?_
    simp only [Function.comp_apply]
    by_cases huv : u.id = v.id
    · rw [if_pos (show u.view.id = v.id from huv), if_pos (huv.trans hid.symm), hrow,
        List.inj_on_of_nodup_map hk.nodup hu hv huv]
    · rw [if_neg (show ¬ u.view.id = v.id from huv), if_neg fun heq => huv (heq.trans hid)]
  · exact (congrArg List.Nodup (keys_edit s.rows v.id _)).mpr h.keys
  · intro r hr n hn
    obtain ⟨r₀, hr₀, rfl⟩ := List.mem_map.mp hr
    refine h.fresh r₀ hr₀ n ?_
    split_ifs at hn <;> exact hn

/-- A retired row is deleted, so it is not among the rows that are left. -/
theorem Realised.retire {s : Session} {actions : List VisitAction} {v : VisitRow} (h : Realised s w) (hv : v ∈ w.rows) :
    ∃ s', s.edit v.id (fun a => { a with deletedAt := some now, updatedAt := now }) = .ok s' ∧
      Realised s' ⟨w.rows.filter (·.id ≠ v.id), actions, w.new⟩ := by
  refine ⟨_, by rw [Session.edit, if_pos (h.held hv)], ?_, ?_, ?_⟩
  · have hleft : ∀ rows : List (VisitId × Appointment),
        ((rows.map fun r => if r.1 = v.id then (r.1, { r.2 with deletedAt := some now, updatedAt := now }) else
          r).filter (·.2.deletedAt.isNone)).map storedView =
          ((rows.filter (·.2.deletedAt.isNone)).map storedView).filter (·.id ≠ v.id) := by
      intro rows
      induction rows with
      | nil => rfl
      | cons r rows ih =>
        rw [List.map_cons]
        by_cases hr : r.1 = v.id
        · rw [if_pos hr, List.filter_cons_of_neg (by simp), ih, List.filter_cons]
          split_ifs
          · rw [List.map_cons, List.filter_cons_of_neg]
            simpa using show (storedView r).id = v.id from hr
          · rfl
        · rw [if_neg hr, List.filter_cons, List.filter_cons]
          split_ifs
          · rw [List.map_cons, List.map_cons, ih, List.filter_cons_of_pos]
            simpa using show ¬ (storedView r).id = v.id from hr
          · exact ih
    show ((s.rows.map fun r => if r.1 = v.id then (r.1, { r.2 with deletedAt := some now, updatedAt := now }) else
      r).filter (·.2.deletedAt.isNone)).map storedView = (w.rows.filter (·.id ≠ v.id)).map (·.view)
    rw [hleft, show (s.rows.filter (·.2.deletedAt.isNone)).map storedView = w.rows.map (·.view) from h.rows,
      List.filter_map]
    rfl
  · exact (congrArg List.Nodup (keys_edit s.rows v.id fun a =>
      { a with deletedAt := some now, updatedAt := now })).mpr h.keys
  · intro r hr n hn
    obtain ⟨r₀, hr₀, rfl⟩ := List.mem_map.mp hr
    refine h.fresh r₀ hr₀ n ?_
    split_ifs at hn <;> exact hn

theorem setKey_new (key : VisitId) (a : Appointment) : ∀ (rows : List (VisitId × Appointment)),
    key ∉ rows.map (·.1) → setKey rows key a = rows ++ [(key, a)]
  | [], _ => rfl
  | r :: rows, h => by
    rw [List.map_cons, List.mem_cons, not_or] at h
    rw [setKey, if_neg fun heq => h.1 heq.symm, setKey_new key a rows h.2]
    rfl

theorem Realised.insert {s : Session} (h : Realised s w) (hk : w.Keyed) (tech : Option Text) (start stop : ℤ)
    (fields : VisitFields) (reason : String) :
    ∃ s', applyAction job userId now planned s (.insert (.new (w.new + 1)) tech start stop reason) = .ok s' ∧
      Realised s' (w.insert tech start stop fields reason) := by
  have hnew : VisitId.new (w.new + 1) ∉ s.rows.map (·.1) := by
    intro hmem
    obtain ⟨r, hr, hkey⟩ := List.mem_map.mp hmem
    exact absurd (h.fresh r hr _ hkey) (by omega)
  have hnew' : (newRow (w.new + 1) tech start stop fields).id ∉ w.rows.map (·.id) := by
    intro hmem
    obtain ⟨r, hr, hkey⟩ := List.mem_map.mp hmem
    exact absurd (hk.fresh r hr _ hkey) (by omega)
  refine ⟨_, rfl, ?_⟩
  rw [setKey_new _ _ _ hnew]
  refine ⟨?_, ?_, ?_⟩
  · rw [Session.live, List.filter_append, List.map_append, Work.insert, setRow_new hnew', List.map_append]
    congr 1
    exact h.rows
  · rw [List.map_append, List.nodup_append]
    refine ⟨h.keys, List.nodup_singleton _, fun a ha b hb hab => hnew ?_⟩
    have hb' : b = .new (w.new + 1) := List.mem_singleton.mp hb
    rw [← hb', ← hab]
    exact ha
  · intro r hr n hn
    rcases List.mem_append.mp hr with hr | hr
    · exact (h.fresh r hr n hn).trans (Nat.le_succ _)
    · rw [List.mem_singleton.mp hr] at hn
      cases hn
      exact le_refl _

/-- One edit of the map and the action it logs move the two alike. -/
theorem Realised.step {s : Session} (h : Realised s w) (hk : w.Keyed) (hstep : w.Step w') :
    ∃ action s', w'.actions = w.actions ++ [action] ∧ applyAction job userId now planned s action = .ok s' ∧
      Realised s' w' := by
  cases hstep with
  | retire hv reason =>
    obtain ⟨s', hs, hr⟩ := h.retire hv
    exact ⟨_, s', rfl, hs, hr⟩
  | @close v hv status reason =>
    obtain ⟨s', hs, hr⟩ := h.edit { v with status := some status }
      (f := fun a => { a with
        status := some status
        completedAt := if status = "completed".toList ∧ a.completedAt = none then some now else a.completedAt
        updatedAt := now })
      (g := fun x => { x with status := some status }) hk hv (fun _ => rfl) (fun _ => rfl) rfl rfl
    exact ⟨_, s', rfl, hs, hr⟩
  | @reassign v hv tech reason =>
    obtain ⟨s', hs, hr⟩ := h.edit { v with techId := tech }
      (f := fun a => { a with techId := tech, updatedAt := now }) (g := fun x => { x with techId := tech }) hk hv
      (fun _ => rfl) (fun _ => rfl) rfl rfl
    exact ⟨_, s', rfl, hs, hr⟩
  | @move v hv start stop reason =>
    obtain ⟨s', hs, hr⟩ := h.edit { v with startAt := start, endAt := some stop }
      (f := fun a => { a with
        startAt := start
        endAt := some stop
        durationMinutes := some (minutesBetween start stop)
        updatedAt := now })
      (g := fun x => { x with startAt := start, endAt := some stop }) hk hv (fun _ => rfl) (fun _ => rfl) rfl rfl
    exact ⟨_, s', rfl, hs, hr⟩
  | insert tech start stop fields reason =>
    obtain ⟨s', hs, hr⟩ := h.insert hk tech start stop fields reason
    exact ⟨_, s', rfl, hs, hr⟩
  | @copyFields v hv title customerName customerId changes =>
    obtain ⟨s', hs, hr⟩ := h.edit
      { v with title := title, customerId := customerId, customerName := customerName }
      (f := fun a => { a with
        title := changes.title.getD a.title
        customerId := changes.customerId.getD a.customerId
        customerName := changes.customerName.getD a.customerName
        updatedAt := now })
      (g := fun x => x) hk hv (fun _ => rfl) (fun _ => rfl) rfl rfl
    exact ⟨_, s', rfl, hs, hr⟩

/-- The whole log, replayed from the rows the planner started on. -/
theorem Realised.steps (h₀ : Realised s₀ w) (hk : w.Keyed) (hnone : w.actions = []) (hsteps : w.Steps w') :
    ∃ s, applyActions job userId now planned s₀ w'.actions = .ok s ∧ Realised s w' := by
  induction hsteps with
  | refl => exact ⟨s₀, by rw [hnone]; rfl, h₀⟩
  | @tail m m' hm hstep ih =>
    obtain ⟨s, hs, hr⟩ := ih
    obtain ⟨action, s', ha, hs', hr'⟩ := hr.step (Work.Steps.keyed hm hk) hstep
    exact ⟨s', by rw [ha, applyActions_snoc, hs]; exact hs', hr'⟩

end Realises

theorem foldl_setRow_nodup : ∀ (visits rows : List VisitRow), ((rows ++ visits).map (·.id)).Nodup →
    visits.foldl setRow rows = rows ++ visits
  | [], rows, _ => (List.append_nil rows).symm
  | v :: visits, rows, h => by
    have hnew : v.id ∉ rows.map (·.id) := by
      rw [List.map_append, List.nodup_append] at h
      exact fun hmem => h.2.2 _ hmem _ (by simp) rfl
    rw [List.foldl_cons, setRow_new hnew, foldl_setRow_nodup visits (rows ++ [v]) (by simpa using h)]
    simp

theorem ofVisits_stored {appts : List Appointment} (h : (appts.map (·.id)).Nodup) :
    (Work.ofVisits (appts.map asValue)).rows = appts.map asValue ∧ (Work.ofVisits (appts.map asValue)).Keyed := by
  have hnd : ((appts.map asValue).map (·.id)).Nodup := by
    rw [List.map_map]
    exact (List.nodup_map_iff_inj_on h.of_map).mpr fun a ha b hb hab => List.inj_on_of_nodup_map h ha hb (by
      simpa [asValue] using hab)
  have hrows : (Work.ofVisits (appts.map asValue)).rows = appts.map asValue :=
    foldl_setRow_nodup (appts.map asValue) [] hnd
  refine ⟨hrows, ?_, ?_⟩
  · rw [hrows]; exact hnd
  · intro v hv n hn
    rw [hrows] at hv
    obtain ⟨a, -, rfl⟩ := List.mem_map.mp hv
    cases hn

/-- The applier realises the plan: run on the rows the plan was made from, its actions name no row
    that is missing, and the rows left are those of the plan. -/
theorem applier_realises_plan (z : ShopZone) (appts : List Appointment) (hids : (appts.map (·.id)).Nodup)
    (hlive : ∀ a ∈ appts, a.deletedAt = none) (request : VisitRequest)
    (hok : (request.plan z (appts.map asValue)).refusal = none) (job : ScheduledJob) (userId : Option Text) (now : ℤ)
    (nextId : ℕ) :
    ∃ s, applyVisitPlan job userId now appts nextId (request.plan z (appts.map asValue)) = .ok s ∧
      (s.live.map storedView).Perm ((request.plan z (appts.map asValue)).visits.map (·.view)) := by
  obtain ⟨hrows, hk⟩ := ofVisits_stored hids
  obtain ⟨w, hsteps, hactions, hvisits⟩ := plan_steps hk hok
  have h₀ : Realised ⟨appts.map fun a => (.stored a.id, a), nextId⟩ (Work.ofVisits (appts.map asValue)) := by
    refine ⟨?_, ?_, ?_⟩
    · rw [hrows, Session.live, List.filter_eq_self.mpr, List.map_map, List.map_map]
      · rfl
      · intro r hr
        obtain ⟨a, ha, rfl⟩ := List.mem_map.mp hr
        simp [hlive a ha]
    · have hnd := hk.nodup
      rw [hrows] at hnd
      rw [List.map_map] at hnd ⊢
      exact hnd
    · intro r hr n hn
      obtain ⟨a, -, rfl⟩ := List.mem_map.mp hr
      cases hn
  obtain ⟨s, hs, hr⟩ := h₀.steps hk rfl hsteps
  refine ⟨s, by rw [applyVisitPlan, hactions]; exact hs, ?_⟩
  rw [hr.rows, hvisits]
  exact ((List.perm_insertionSort visitLe w.rows).map _).symm

/-- The stored rows of the job of `twoDayVisits`. -/
def twoDayAppointments : List Appointment :=
  [⟨1, some "ann".toList, 3 * DAY, some (3 * DAY + minutes 60), some 60, some "scheduled".toList, none, none,
      some "Job".toList, some 7, none, none, 0, none⟩,
    ⟨2, none, 3 * DAY, none, none, some "scheduled".toList, none, none, some "Job".toList, some 7, none, none, 0, none⟩,
    ⟨3, some "ann".toList, 5 * DAY, none, none, some "scheduled".toList, none, none, some "Job".toList, some 7, none,
      none, 0, none⟩]

/-- A tech joins and the date moves: the row inserted for the tech is then moved under its key. -/
theorem applier_realises_join :
    ∃ s, applyVisitPlan ⟨some "Job".toList, some 7, none, some "scheduled".toList, some (3 * DAY)⟩ none (2 * DAY)
        twoDayAppointments 4 (joinAndMove.plan utcZone (twoDayAppointments.map asValue)) = .ok s ∧
      (s.live.map storedView).Perm
        ((joinAndMove.plan utcZone (twoDayAppointments.map asValue)).visits.map (·.view)) :=
  applier_realises_plan utcZone twoDayAppointments (by decide) (by decide) joinAndMove (by decide +kernel) _ none
    (2 * DAY) 4

end Gdx
