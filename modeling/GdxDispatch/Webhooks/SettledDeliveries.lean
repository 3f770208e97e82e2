import Mathlib.Data.List.Count
import GdxDispatch.Webhooks.Deliveries

/-! A settled delivery stays settled, as long as no task comes late.

    A worker posts on what it read: it looks at the receiver, not at the status of the row, and nothing tells it that
    another worker has the row. So a second task for a row that the sweep took for stranded posts again, and writes over
    what the first one left. Along runs in which every worker finds its row free and open, it does not. -/

namespace Gdx
open Lib

variable {s s' : Courier} {ev : CourierEvent} {id id' worker worker' : ℕ} {delivery new : WebhookDelivery}
  {target : Option WebhookTarget} {status : DeliveryStatus}

/-- The row that a worker has read and not written back yet. -/
def DeliveryWorker.holds : DeliveryWorker → Option ℕ
  | .idle => none
  | .loaded id _ _ => some id
  | .posting id _ => some id

namespace Courier

/-- The status of a row, if there is one. -/
def statusOf (s : Courier) (id : ℕ) : Option DeliveryStatus := (s.rows id).map (·.status)

/-- A worker has the row between its read and its write. -/
def Held (s : Courier) (id : ℕ) : Prop := ∃ worker, (s.workers worker).holds = some id

/-- A worker that reads a row finds it held by nobody else, and pending; or failed, when it will only fail it again. -/
def Open (s : Courier) : CourierEvent → Prop
  | .take _ id target => ¬ s.Held id ∧
      ∀ status ∈ s.statusOf id, status = .pending ∨ status = .failed ∧ sendable target = false
  | _ => True

def OpenRun : Courier → List CourierEvent → Prop
  | _, [] => True
  | s, ev :: events => s.Open ev ∧ OpenRun (s.step ev) events

/-! ### Steps -/

/-- What an event does to the statuses, the workers and the posts. -/
inductive Does (s : Courier) : CourierEvent → Courier → Prop
  | quiet (ev : CourierEvent) (s' : Courier) (hworkers : s'.workers = s.workers) (hposts : s'.posts = s.posts)
      (hstatus : ∀ id, s'.statusOf id = s.statusOf id ∨ s.statusOf id = none) : Does s ev s'
  | take (worker id : ℕ) (target : Option WebhookTarget) (delivery : WebhookDelivery) (s' : Courier)
      (hidle : s.workers worker = .idle) (hrow : s.rows id = some delivery)
      (hworkers : s'.workers = Function.update s.workers worker (.loaded id delivery target))
      (hposts : s'.posts = s.posts) (hrows : s'.rows = s.rows) : Does s (.take worker id target) s'
  | send (worker id : ℕ) (target : Option WebhookTarget) (delivery : WebhookDelivery) (s' : Courier)
      (hloaded : s.workers worker = .loaded id delivery target) (hsend : sendable target = true)
      (hworkers : s'.workers = Function.update s.workers worker (.posting id delivery))
      (hposts : s'.posts = id :: s.posts) (hrows : s'.rows = s.rows) : Does s (.workOn worker) s'
  | fail (worker id : ℕ) (target : Option WebhookTarget) (delivery : WebhookDelivery)
      (hloaded : s.workers worker = .loaded id delivery target) (hno : sendable target = false) :
      Does s (.workOn worker) ((s.setWorker worker .idle).store id delivery { delivery with status := .failed })
  | answer (worker id : ℕ) (status : Option ℕ) (delivery : WebhookDelivery)
      (hposting : s.workers worker = .posting id delivery) :
      Does s (.answer worker status) ((s.setWorker worker .idle).store id delivery (afterPost s.now delivery status))

theorem statusOf_claim (s : Courier) (now : ℕ) (due : List ℕ) (id : ℕ) :
    (s.claim now due).statusOf id = s.statusOf id := by
  show Option.map _ (if id ∈ due then _ else _) = _
  split
  · rw [Option.map_map]
    rfl
  · rfl

theorem step_does (s : Courier) (ev : CourierEvent) : s.Does ev (s.step ev) := by
  have hstay : s.Does ev s := .quiet ev s rfl rfl fun _ => .inl rfl
  cases ev with
  | commit id =>
    simp only [step]
    split
    · rename_i hnone
      refine .quiet _ _ rfl rfl fun id' => ?_
      by_cases heq : id' = id
      · rw [heq]
        exact .inr (by rw [statusOf, hnone]; rfl)
      · left
        show Option.map _ (Function.update s.rows id _ id') = _
        rw [Function.update_of_ne heq]
        rfl
    · exact hstay
  | dispatch id broker =>
    simp only [step]
    split
    · exact .quiet _ _ rfl rfl fun _ => .inl rfl
    · exact hstay
  | sweep sweeper =>
    simp only [step]
    split
    · exact .quiet _ _ rfl rfl fun _ => .inl rfl
    · exact hstay
  | sweepOn sweeper =>
    show s.Does _ (s.sweepOn sweeper (s.sweeps sweeper))
    match s.sweeps sweeper with
    | .idle => exact hstay
    | .selected now due => exact .quiet _ _ rfl rfl fun id => .inl (statusOf_claim s now due id)
    | .claimed [] => exact .quiet _ _ rfl rfl fun _ => .inl rfl
    | .claimed (id :: due) => exact .quiet _ _ rfl rfl fun _ => .inl rfl
  | take worker id target =>
    simp only [step]
    split
    · rename_i h
      split
      · exact .quiet _ _ rfl rfl fun _ => .inl rfl
      · rename_i delivery hrow
        exact .take worker id target delivery _ h.1 hrow rfl rfl rfl
    · exact hstay
  | workOn worker =>
    show s.Does _ (s.workOn worker (s.workers worker))
    cases hw : s.workers worker with
    | loaded id delivery target =>
      simp only [workOn]
      split
      · exact .send worker id target delivery _ hw ‹_› rfl rfl rfl
      · exact .fail worker id target delivery hw (Bool.eq_false_iff.mpr ‹_›)
    | idle => exact hstay
    | posting id delivery => exact hstay
  | answer worker status =>
    show s.Does _ (s.answer worker status (s.workers worker))
    cases hw : s.workers worker with
    | posting id delivery => exact .answer worker id status delivery hw
    | idle => exact hstay
    | loaded id delivery target => exact hstay
  | wait time => exact .quiet _ _ rfl rfl fun _ => .inl rfl

theorem workers_store (s : Courier) (worker id : ℕ) (delivery new : WebhookDelivery) :
    ((s.setWorker worker .idle).store id delivery new).workers = Function.update s.workers worker .idle := rfl

theorem statusOf_store (s : Courier) (worker id id' : ℕ) (delivery new : WebhookDelivery) :
    ((s.setWorker worker .idle).store id delivery new).statusOf id' =
      if id' = id then (s.statusOf id).map (writeColumn delivery.status new.status) else s.statusOf id' := by
  show Option.map _ (Function.update s.rows id _ id') = _
  by_cases heq : id' = id
  · rw [if_pos heq, heq, Function.update_self, statusOf, Option.map_map, Option.map_map]
    rfl
  · rw [if_neg heq, Function.update_of_ne heq]
    rfl

/-! ### Each worker alone with its row -/

/-- Each worker is alone with its row, and what it read of the status still stands. -/
structure Owned (s : Courier) : Prop where
  alone : ∀ worker worker' id, (s.workers worker).holds = some id → (s.workers worker').holds = some id →
    worker = worker'
  loaded : ∀ worker id delivery target, s.workers worker = .loaded id delivery target →
    s.statusOf id = some delivery.status ∧
      (delivery.status = .pending ∨ delivery.status = .failed ∧ sendable target = false)
  posting : ∀ worker id delivery, s.workers worker = .posting id delivery →
    s.statusOf id = some delivery.status ∧ delivery.status = .pending

theorem owned_fresh (now : ℕ) : (fresh now).Owned :=
  ⟨fun _ _ _ h => (nomatch h), fun _ _ _ _ h => (nomatch h), fun _ _ _ h => (nomatch h)⟩

/-- A settled row keeps its status in a step, and nothing is posted for it. -/
theorem Owned.settled (ho : s.Owned) (h : s.Does ev s') (hs : s.statusOf id = some status) (hne : status ≠ .pending) :
    s'.statusOf id = some status ∧ s'.posts.count id = s.posts.count id := by
  cases h with
  | quiet _ _ hworkers hposts hstatus =>
    refine ⟨?_, by rw [hposts]⟩
    obtain hsame | hnone := hstatus id
    · rw [hsame, hs]
    · rw [hnone] at hs
      cases hs
  | take worker id₀ target delivery _ hidle hrow hworkers hposts hrows =>
    exact ⟨by rw [statusOf, hrows]; exact hs, by rw [hposts]⟩
  | send worker id₀ target delivery _ hloaded hsend hworkers hposts hrows =>
    refine ⟨by rw [statusOf, hrows]; exact hs, ?_⟩
    obtain ⟨hst, hpending | ⟨-, hno⟩⟩ := ho.loaded worker id₀ delivery target hloaded
    · have hdiff : id₀ ≠ id := by
        rintro rfl
        rw [hst, hpending] at hs
        exact hne (Option.some.inj hs).symm
      rw [hposts, List.count_cons_of_ne hdiff]
    · rw [hsend] at hno
      cases hno
  | fail worker id₀ target delivery hloaded hno =>
    refine ⟨?_, rfl⟩
    rw [statusOf_store]
    split
    · rename_i heq
      obtain ⟨hst, hcase⟩ := ho.loaded worker id₀ delivery target hloaded
      rw [← heq, hs] at hst
      have hdel : delivery.status = .failed := by
        obtain hpending | ⟨hfailed, -⟩ := hcase
        · exact absurd (Option.some.inj hst ▸ hpending) hne
        · exact hfailed
      rw [← heq, hs]
      simp [writeColumn, hdel]
    · exact hs
  | answer worker id₀ code delivery hposting =>
    refine ⟨?_, rfl⟩
    rw [statusOf_store, if_neg]
    · exact hs
    · rintro rfl
      obtain ⟨hst, hpending⟩ := ho.posting worker id delivery hposting
      rw [hs] at hst
      exact hne (Option.some.inj hst ▸ hpending)

/-- A worker that writes back is done with its row, and the others have other rows. -/
theorem Owned.store (ho : s.Owned) (hheld : (s.workers worker).holds = some id) :
    ((s.setWorker worker .idle).store id delivery new).Owned := by
  have hother : ∀ w stage, ((s.setWorker worker .idle).store id delivery new).workers w = stage →
      stage ≠ .idle → w ≠ worker ∧ s.workers w = stage := by
    intro w stage hw hbusy
    rw [workers_store, Function.update_apply] at hw
    split at hw
    · exact absurd hw.symm hbusy
    · exact ⟨‹_›, hw⟩
  have hkeep : ∀ w id', (s.workers w).holds = some id' → w ≠ worker →
      ((s.setWorker worker .idle).store id delivery new).statusOf id' = s.statusOf id' := by
    intro w id' hw hne
    rw [statusOf_store, if_neg]
    rintro rfl
    exact hne (ho.alone w worker id' hw hheld)
  refine ⟨fun w w' id' hw hw' => ?_, fun w id' delivery' target hw => ?_, fun w id' delivery' hw => ?_⟩
  · obtain ⟨-, h⟩ := hother w _ rfl fun h => by rw [h] at hw; cases hw
    obtain ⟨-, h'⟩ := hother w' _ rfl fun h => by rw [h] at hw'; cases hw'
    rw [← h] at hw
    rw [← h'] at hw'
    exact ho.alone w w' id' hw hw'
  · obtain ⟨hne, h⟩ := hother w _ hw nofun
    rw [hkeep w id' (by rw [h]; rfl) hne]
    exact ho.loaded w id' delivery' target h
  · obtain ⟨hne, h⟩ := hother w _ hw nofun
    rw [hkeep w id' (by rw [h]; rfl) hne]
    exact ho.posting w id' delivery' h

theorem Owned.step (ho : s.Owned) (h : s.Does ev s') (hopen : s.Open ev) : s'.Owned := by
  cases h with
  | quiet _ _ hworkers hposts hstatus =>
    have hkeep : ∀ id status, s.statusOf id = some status → s'.statusOf id = some status := by
      intro id status hs
      obtain hsame | hnone := hstatus id
      · rw [hsame, hs]
      · rw [hnone] at hs
        cases hs
    refine ⟨?_, fun w id delivery target hw => ?_, fun w id delivery hw => ?_⟩
    · rw [hworkers]
      exact ho.alone
    · rw [hworkers] at hw
      exact (ho.loaded w id delivery target hw).imp_left (hkeep id _)
    · rw [hworkers] at hw
      exact (ho.posting w id delivery hw).imp_left (hkeep id _)
  | take worker id target delivery _ hidle hrow hworkers hposts hrows =>
    obtain ⟨hfree, hopen⟩ := hopen
    have hstatus : s.statusOf id = some delivery.status := by rw [statusOf, hrow]; rfl
    have hsame : s'.statusOf = s.statusOf := by
      funext id'
      rw [statusOf, hrows]
      rfl
    refine ⟨fun w w' id' hw hw' => ?_, fun w id' delivery' target' hw => ?_, fun w id' delivery' hw => ?_⟩
    · rw [hworkers, Function.update_apply] at hw hw'
      split at hw <;> split at hw'
      · rw [‹w = worker›, ‹w' = worker›]
      · cases hw
        exact absurd ⟨w', hw'⟩ hfree
      · cases hw'
        exact absurd ⟨w, hw⟩ hfree
      · exact ho.alone w w' id' hw hw'
    · rw [hworkers, Function.update_apply] at hw
      rw [hsame]
      split at hw
      · cases hw
        exact ⟨hstatus, hopen _ hstatus⟩
      · exact ho.loaded w id' delivery' target' hw
    · rw [hworkers, Function.update_apply] at hw
      rw [hsame]
      split at hw
      · cases hw
      · exact ho.posting w id' delivery' hw
  | send worker id target delivery _ hloaded hsend hworkers hposts hrows =>
    have hsame : s'.statusOf = s.statusOf := by
      funext id'
      rw [statusOf, hrows]
      rfl
    have hholds : ∀ w, (s'.workers w).holds = (s.workers w).holds := by
      intro w
      rw [hworkers, Function.update_apply]
      split
      · rw [‹w = worker›, hloaded]
        rfl
      · rfl
    refine ⟨fun w w' id' hw hw' => ?_, fun w id' delivery' target' hw => ?_, fun w id' delivery' hw => ?_⟩
    · rw [hholds] at hw hw'
      exact ho.alone w w' id' hw hw'
    · rw [hworkers, Function.update_apply] at hw
      rw [hsame]
      split at hw
      · cases hw
      · exact ho.loaded w id' delivery' target' hw
    · rw [hworkers, Function.update_apply] at hw
      rw [hsame]
      split at hw
      · cases hw
        obtain ⟨hst, hpending | ⟨-, hno⟩⟩ := ho.loaded worker id delivery target hloaded
        · exact ⟨hst, hpending⟩
        · rw [hsend] at hno
          cases hno
      · exact ho.posting w id' delivery' hw
  | fail worker id target delivery hloaded hno => exact ho.store (by rw [hloaded]; rfl)
  | answer worker id code delivery hposting => exact ho.store (by rw [hposting]; rfl)

/-! ### Runs -/

theorem OpenRun.owned {events : List CourierEvent} (ho : s.Owned) (hopen : OpenRun s events) : (s.run events).Owned := by
  induction events generalizing s with
  | nil => exact ho
  | cons ev events ih => exact ih (ho.step (step_does s ev) hopen.1) hopen.2

theorem OpenRun.settled {events : List CourierEvent} (ho : s.Owned) (hopen : OpenRun s events)
    (hs : s.statusOf id = some status) (hne : status ≠ .pending) :
    (s.run events).statusOf id = some status ∧ (s.run events).posts.count id = s.posts.count id := by
  induction events generalizing s with
  | nil => exact ⟨hs, rfl⟩
  | cons ev events ih =>
    obtain ⟨hstatus, hposts⟩ := ho.settled (step_does s ev) hs hne
    obtain ⟨hlast, hcount⟩ := ih (ho.step (step_does s ev) hopen.1) hopen.2 hstatus
    exact ⟨hlast, hcount.trans hposts⟩

theorem openRun_append {before after : List CourierEvent} (h : OpenRun s (before ++ after)) :
    OpenRun s before ∧ OpenRun (s.run before) after := by
  induction before generalizing s with
  | nil => exact ⟨trivial, h⟩
  | cons ev events ih =>
    obtain ⟨hevents, hafter⟩ := ih h.2
    exact ⟨⟨h.1, hevents⟩, hafter⟩

end Courier

/-- In every run whose workers find their rows open: a row that is delivered, failed or abandoned at some point keeps
    that status and is posted no more, and no two workers ever post one row at a time. -/
theorem settled_delivery_stays_settled (now : ℕ) (before after : List CourierEvent)
    (hopen : Courier.OpenRun (.fresh now) (before ++ after)) :
    (∀ id status, ((Courier.fresh now).run before).statusOf id = some status → status ≠ .pending →
      ((Courier.fresh now).run (before ++ after)).statusOf id = some status ∧
        ((Courier.fresh now).run (before ++ after)).posts.count id =
          ((Courier.fresh now).run before).posts.count id) ∧
    ∀ worker worker' id delivery delivery', ((Courier.fresh now).run before).workers worker = .posting id delivery →
      ((Courier.fresh now).run before).workers worker' = .posting id delivery' → worker = worker' := by
  obtain ⟨hbefore, hafter⟩ := Courier.openRun_append hopen
  have ho := hbefore.owned (Courier.owned_fresh now)
  refine ⟨fun id status hs hne => ?_, fun w w' id delivery delivery' hw hw' => ?_⟩
  · have hrun : (Courier.fresh now).run (before ++ after) = ((Courier.fresh now).run before).run after :=
      List.foldl_append
    rw [hrun]
    exact hafter.settled ho hs hne
  · exact ho.alone w w' id (by rw [hw]; rfl) (by rw [hw']; rfl)

/-- A receiver that can be posted to. -/
def receiver : Option WebhookTarget := some ⟨true, some "key"⟩

/-- One worker has the row while a sweep takes it for stranded and queues a second task. -/
def slowPost : List CourierEvent :=
  [.commit 7, .dispatch 7 true, .take 1 7 receiver, .workOn 1, .wait 40, .sweep 0, .sweepOn 0, .sweepOn 0]

/-- The post of the first worker is answered. -/
def deliveredPost : List CourierEvent := slowPost ++ [.answer 1 (some 200)]

theorem slowPost_open : Courier.OpenRun (.fresh 0) (deliveredPost ++ [.wait 300, .sweep 0]) := by
  have hfree : ¬ (((Courier.fresh 0).step (.commit 7)).step (.dispatch 7 true)).Held 7 := by
    rintro ⟨worker, h⟩
    cases h
  refine ⟨trivial, trivial, ⟨hfree, fun status hs => .inl ?_⟩, trivial, trivial, trivial, trivial, trivial, trivial,
    trivial, trivial, trivial⟩
  exact (Option.some.inj hs).symm

theorem settled_delivery_stays_settled_after_sweep :
    ((Courier.fresh 0).run deliveredPost).statusOf 7 = some .delivered ∧
      ((Courier.fresh 0).run (deliveredPost ++ [.wait 300, .sweep 0])).statusOf 7 = some .delivered := by
  have hbefore : ((Courier.fresh 0).run deliveredPost).statusOf 7 = some .delivered := by decide +kernel
  have h := settled_delivery_stays_settled 0 deliveredPost [.wait 300, .sweep 0] slowPost_open
  exact ⟨hbefore, (h.1 7 .delivered hbefore (by decide)).1⟩

/-- The second task is taken, posted and refused. -/
def lateTask : List CourierEvent := [.take 2 7 receiver, .workOn 2, .answer 2 (some 500)]

/-- The second task runs beside the first. -/
def besideFirst : List CourierEvent := slowPost ++ [.take 2 7 receiver, .workOn 2]

theorem settled_delivery_posted_again :
    ¬ (∀ id status, ((Courier.fresh 0).run deliveredPost).statusOf id = some status → status ≠ .pending →
      ((Courier.fresh 0).run (deliveredPost ++ lateTask)).statusOf id = some status ∧
      ((Courier.fresh 0).run (deliveredPost ++ lateTask)).posts.count id =
        ((Courier.fresh 0).run deliveredPost).posts.count id) ∧
    ¬ ∀ worker worker' id delivery delivery',
      ((Courier.fresh 0).run besideFirst).workers worker = .posting id delivery →
      ((Courier.fresh 0).run besideFirst).workers worker' = .posting id delivery' → worker = worker' := by
  constructor
  · intro h
    have hbefore : ((Courier.fresh 0).run deliveredPost).statusOf 7 = some .delivered := by decide +kernel
    have hafter : ((Courier.fresh 0).run (deliveredPost ++ lateTask)).statusOf 7 = some .pending := by decide +kernel
    have hlast := (h 7 .delivered hbefore (by decide)).1
    rw [hafter] at hlast
    cases hlast
  · intro h
    have hfirst : ((Courier.fresh 0).run besideFirst).workers 1 = .posting 7 ⟨.pending, 0, none, 0, none, none⟩ := by
      decide +kernel
    have hsecond : ((Courier.fresh 0).run besideFirst).workers 2 =
        .posting 7 ⟨.pending, 0, some 340, 0, none, none⟩ := by
      decide +kernel
    have heq := h 1 2 7 _ _ hfirst hsecond
    cases heq

end Gdx
