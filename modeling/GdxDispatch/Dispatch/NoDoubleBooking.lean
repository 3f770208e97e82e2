import GdxDispatch.Lib.Effect
import GdxDispatch.Lib.Keyed
import GdxDispatch.Dispatch.VisitSync

/-! No planner double-books.

    A slot is a tech (or nobody) on a shop day. If every slot of a job's visits holds at most one
    Current visit before a request, it does so after every request that is not refused. Two relations
    carry the proof. `Thins` covers the steps that only close, retire or relabel: every Current row
    left stands for a Current row that was there, in the same slot. `OnlyNear` says what a crew change
    may do: every row it leaves was there or is an OPEN one on the day it works on. -/

namespace Gdx
open Lib

/-- The tech (or nobody) and the shop day a visit occupies. -/
def slotOf (z : ShopZone) (v : VisitRow) : Option Text × ℤ := (v.techId, z.day v.startAt)

/-- Each slot holds at most one Current visit. -/
def AtMostOneCurrent (z : ShopZone) (visits : List VisitRow) : Prop :=
  ∀ slot, (visits.filter fun v => isCurrent v && slotOf z v == slot).length ≤ 1

/-- The same on rows that have distinct keys. -/
structure Booked (z : ShopZone) (rows : List VisitRow) : Prop where
  nodup : (rows.map (·.id)).Nodup
  single : ∀ v ∈ rows, ∀ u ∈ rows, isCurrent v = true → isCurrent u = true →
    slotOf z v = slotOf z u → v.id = u.id

/-! ### The row dictionary -/

theorem mem_setRow {row u : VisitRow} : ∀ {rows : List VisitRow}, (rows.map (·.id)).Nodup →
    u ∈ setRow rows row → u = row ∨ (u ∈ rows ∧ u.id ≠ row.id)
  | [], _, h => Or.inl (by simpa [setRow] using h)
  | v :: rows, hnd, h => by
    rw [List.map_cons, List.nodup_cons] at hnd
    rw [setRow] at h
    split_ifs at h with hid
    · rcases List.mem_cons.mp h with rfl | h
      · exact Or.inl rfl
      · refine Or.inr ⟨List.mem_cons_of_mem _ h, fun heq => hnd.1 ?_⟩
        rw [hid, ← heq]
        exact List.mem_map_of_mem h
    · rcases List.mem_cons.mp h with rfl | h
      · exact Or.inr ⟨List.mem_cons_self .., hid⟩
      · rcases mem_setRow hnd.2 h with h | ⟨h, hne⟩
        · exact Or.inl h
        · exact Or.inr ⟨List.mem_cons_of_mem _ h, hne⟩

theorem ids_setRow (row : VisitRow) : ∀ (rows : List VisitRow),
    (setRow rows row).map (·.id) = rows.map (·.id) ∨
      (setRow rows row).map (·.id) = rows.map (·.id) ++ [row.id] ∧ row.id ∉ rows.map (·.id)
  | [] => Or.inr ⟨rfl, by simp⟩
  | v :: rows => by
    rw [setRow]
    split_ifs with hid
    · exact Or.inl (by simp [hid])
    · rcases ids_setRow row rows with h | ⟨h, hnot⟩
      · exact Or.inl (by simp [h])
      · refine Or.inr ⟨by simp [h], ?_⟩
        rw [List.map_cons, List.mem_cons, not_or]
        exact ⟨fun heq => hid heq.symm, hnot⟩

theorem nodup_setRow {rows : List VisitRow} (h : (rows.map (·.id)).Nodup) (row : VisitRow) :
    ((setRow rows row).map (·.id)).Nodup := by
  rcases ids_setRow row rows with heq | ⟨heq, hnot⟩
  · rw [heq]; exact h
  · rw [heq]
    refine List.nodup_append.mpr ⟨h, List.nodup_singleton _, ?_⟩
    intro a ha b hb hab
    rw [List.mem_singleton.mp hb] at hab
    exact hnot (hab ▸ ha)

theorem nodup_filter_ids {rows : List VisitRow} (h : (rows.map (·.id)).Nodup) (p : VisitRow → Bool) :
    ((rows.filter p).map (·.id)).Nodup :=
  h.sublist (List.filter_sublist.map _)

theorem mem_foldl_setRow : ∀ (visits rows : List VisitRow), (rows.map (·.id)).Nodup →
    ((visits.foldl setRow rows).map (·.id)).Nodup ∧
      ∀ u ∈ visits.foldl setRow rows, u ∈ visits ∨ u ∈ rows
  | [], rows, h => ⟨h, fun u hu => Or.inr hu⟩
  | v :: visits, rows, h => by
    obtain ⟨hnd, hmem⟩ := mem_foldl_setRow visits (setRow rows v) (nodup_setRow h v)
    refine ⟨hnd, fun u hu => ?_⟩
    rcases hmem u hu with hu | hu
    · exact Or.inl (List.mem_cons_of_mem _ hu)
    · rcases mem_setRow h hu with rfl | ⟨hu, -⟩
      · exact Or.inl (List.mem_cons_self ..)
      · exact Or.inr hu

@[simp] theorem mem_liveRows {w : Work} {v : VisitRow} : v ∈ w.liveRows ↔ v ∈ w.rows := by
  simp [Work.liveRows]

/-- What a row of `on` is. -/
theorem mem_on {z : ShopZone} {w : Work} {day : ℤ} {tech : Option (Option Text)}
    {states : Option (List VisitState)} {v : VisitRow} :
    v ∈ w.on z day tech states ↔ v ∈ w.rows ∧ z.day v.startAt = day ∧
      (∀ t, tech = some t → v.techId = t) ∧ ∀ ss, states = some ss → visitState v ∈ ss := by
  cases tech <;> cases states <;>
    simp [Work.on, List.mem_filter, Option.all, and_assoc]

/-! ### Steps that keep each Current row in its slot -/

/-- Every Current row left stands for a Current row that was there, in the same slot. -/
structure Thins (z : ShopZone) (rows rows' : List VisitRow) : Prop where
  nodup : (rows'.map (·.id)).Nodup
  from_old : ∀ r ∈ rows', isCurrent r = true →
    ∃ v ∈ rows, isCurrent v = true ∧ v.id = r.id ∧ slotOf z v = slotOf z r

theorem Thins.refl {z : ShopZone} {rows : List VisitRow} (h : (rows.map (·.id)).Nodup) :
    Thins z rows rows :=
  ⟨h, fun r hr hc => ⟨r, hr, hc, rfl, rfl⟩⟩

theorem Thins.booked {z : ShopZone} {rows rows' : List VisitRow} (ht : Thins z rows rows')
    (h : Booked z rows) : Booked z rows' := by
  refine ⟨ht.nodup, fun v hv u hu hcv hcu hslot => ?_⟩
  obtain ⟨v₀, hv₀, hcv₀, hid, hs⟩ := ht.from_old v hv hcv
  obtain ⟨u₀, hu₀, hcu₀, hid', hs'⟩ := ht.from_old u hu hcu
  rw [← hid, ← hid']
  exact h.single v₀ hv₀ u₀ hu₀ hcv₀ hcu₀ (by rw [hs, hs', hslot])

theorem Thins.retire {z : ShopZone} {rows : List VisitRow} {w : Work} (h : Thins z rows w.rows)
    (v : VisitRow) (reason : String) : Thins z rows (w.retire v reason).rows :=
  ⟨nodup_filter_ids h.nodup _, fun r hr hc => h.from_old r (List.mem_of_mem_filter hr) hc⟩

theorem Thins.setRow {z : ShopZone} {rows rows' : List VisitRow} (h : Thins z rows rows') {row : VisitRow}
    (hrow : isCurrent row = true → ∃ v ∈ rows, isCurrent v = true ∧ v.id = row.id ∧
      slotOf z v = slotOf z row) : Thins z rows (setRow rows' row) := by
  refine ⟨nodup_setRow h.nodup row, fun r hr hc => ?_⟩
  rcases mem_setRow h.nodup hr with rfl | ⟨hr, -⟩
  · exact hrow hc
  · exact h.from_old r hr hc

/-- A loop over rows read before it starts, each pass of which thins. -/
theorem Thins.foldl {z : ShopZone} {rows : List VisitRow} {f : Work → VisitRow → Work} :
    ∀ {vs : List VisitRow}, (∀ v ∈ vs, v ∈ rows) →
    (∀ w v, v ∈ rows → Thins z rows w.rows → Thins z rows (f w v).rows) →
    ∀ {w : Work}, Thins z rows w.rows → Thins z rows (vs.foldl f w).rows
  | [], _, _, _, h => h
  | v :: _, hin, hf, w, h =>
    Thins.foldl (fun u hu => hin u (List.mem_cons_of_mem _ hu)) hf
      (hf w v (hin v (List.mem_cons_self ..)) h)

theorem not_current_of_status {v : VisitRow} {s : Text}
    (hs : s = "completed".toList ∨ s = "cancelled".toList) :
    isCurrent { v with status := some s } = false := by
  unfold isCurrent visitState
  rcases hs with rfl | rfl
  · have hl : lowerStatus { v with status := some "completed".toList } = "completed".toList := rfl
    rw [if_pos hl]
    rfl
  · have hl : lowerStatus { v with status := some "cancelled".toList } = "cancelled".toList := rfl
    rw [hl, if_neg (by decide), if_pos rfl]
    split_ifs <;> rfl

theorem Thins.close {z : ShopZone} {rows : List VisitRow} {w : Work} (h : Thins z rows w.rows)
    (v : VisitRow) {s : Text} (hs : s = "completed".toList ∨ s = "cancelled".toList) (reason : String) :
    Thins z rows (w.close v s reason).rows :=
  h.setRow fun hc => absurd hc (by rw [not_current_of_status hs]; decide)

theorem finishRow_thins {z : ShopZone} {rows : List VisitRow} (day : Option ℤ) (reason : String)
    (w : Work) (v : VisitRow) (h : Thins z rows w.rows) : Thins z rows (finishRow z day reason w v).rows := by
  unfold finishRow
  split
  · exact h.close v (Or.inl rfl) reason
  · split_ifs
    · exact h.retire v reason
    · exact h.close v (Or.inl rfl) reason
  · exact h

theorem finish_thins {z : ShopZone} {w : Work} (hnd : (w.rows.map (·.id)).Nodup) (day : Option ℤ)
    (reason : String) : Thins z w.rows (finish z w day reason).rows :=
  Thins.foldl (fun _ hv => mem_liveRows.mp hv) (fun w v _ h => finishRow_thins day reason w v h) (.refl hnd)

theorem cancelRow_thins {z : ShopZone} {rows : List VisitRow} (reason : String) (w : Work) (v : VisitRow)
    (h : Thins z rows w.rows) : Thins z rows (cancelRow reason w v).rows := by
  unfold cancelRow
  split
  · exact h.retire v reason
  · exact h.close v (Or.inr rfl) reason
  · exact h

theorem cancel_thins {z : ShopZone} {w w' : Work} (hnd : (w.rows.map (·.id)).Nodup) {reason : String}
    (h : cancel w reason = .ok w') : Thins z w.rows w'.rows := by
  unfold cancel at h
  simp only at h
  split_ifs at h
  cases h
  exact Thins.foldl (fun _ hv => mem_liveRows.mp hv) (fun w v _ h => cancelRow_thins reason w v h) (.refl hnd)

theorem copyFieldsRow_thins {z : ShopZone} {rows : List VisitRow} (fields : VisitFields) (w : Work)
    (v : VisitRow) (hv : v ∈ rows) (h : Thins z rows w.rows) :
    Thins z rows (copyFieldsRow fields w v).rows := by
  unfold copyFieldsRow
  split
  · exact h
  · simp only
    split_ifs
    · exact h
    · exact h
    · exact h.setRow fun hc => ⟨v, hv, hc, rfl, rfl⟩

theorem copyFields_thins {z : ShopZone} {w : Work} (hnd : (w.rows.map (·.id)).Nodup)
    (fields : VisitFields) : Thins z w.rows (copyFields w fields).rows := by
  unfold copyFields
  split_ifs
  · exact .refl hnd
  · exact Thins.foldl (fun _ hv => mem_liveRows.mp hv)
      (fun w v hv h => copyFieldsRow_thins fields w v hv h) (.refl hnd)

theorem setFirstDayLength_thins {z : ShopZone} {w : Work} (hnd : (w.rows.map (·.id)).Nodup) (length : ℤ) :
    Thins z w.rows (setFirstDayLength z w length).rows := by
  unfold setFirstDayLength
  split
  · exact .refl hnd
  · refine Thins.foldl (fun v hv => (mem_on.mp hv).1) (fun w v hv h => ?_) (.refl hnd)
    split_ifs
    · exact h.setRow fun hc => ⟨v, hv, hc, rfl, rfl⟩
    · exact h

/-! ### After F1 and X1 nothing is Current -/

/-- The Current rows are among those a loop has not yet come to. -/
structure Remaining (vs : List VisitRow) (w : Work) : Prop where
  nodup : (w.rows.map (·.id)).Nodup
  ahead : ∀ r ∈ w.rows, isCurrent r = true → r ∈ vs

theorem Remaining.retire {v : VisitRow} {vs : List VisitRow} {w : Work} (h : Remaining (v :: vs) w)
    (reason : String) : Remaining vs (w.retire v reason) := by
  refine ⟨nodup_filter_ids h.nodup _, fun r hr hc => ?_⟩
  simp only [Work.retire, List.mem_filter, decide_eq_true_eq] at hr
  rcases List.mem_cons.mp (h.ahead r hr.1 hc) with rfl | hmem
  · exact absurd rfl hr.2
  · exact hmem

theorem Remaining.close {v : VisitRow} {vs : List VisitRow} {w : Work} (h : Remaining (v :: vs) w)
    {s : Text} (hs : s = "completed".toList ∨ s = "cancelled".toList) (reason : String) :
    Remaining vs (w.close v s reason) := by
  refine ⟨nodup_setRow h.nodup _, fun r hr hc => ?_⟩
  rcases mem_setRow h.nodup hr with rfl | ⟨hr, hne⟩
  · rw [not_current_of_status hs] at hc
    cases hc
  · rcases List.mem_cons.mp (h.ahead r hr hc) with rfl | hmem
    · exact absurd rfl hne
    · exact hmem

theorem Remaining.skip {v : VisitRow} {vs : List VisitRow} {w : Work} (h : Remaining (v :: vs) w)
    (hv : isCurrent v = false) : Remaining vs w := by
  refine ⟨h.nodup, fun r hr hc => ?_⟩
  rcases List.mem_cons.mp (h.ahead r hr hc) with rfl | hmem
  · rw [hv] at hc; cases hc
  · exact hmem

theorem Remaining.foldl {f : Work → VisitRow → Work}
    (hf : ∀ v vs w, Remaining (v :: vs) w → Remaining vs (f w v)) :
    ∀ {vs : List VisitRow} {w : Work}, Remaining vs w → Remaining [] (vs.foldl f w)
  | [], _, h => h
  | v :: vs, w, h => by
    rw [List.foldl_cons]
    exact Remaining.foldl hf (hf v vs w h)

theorem not_current_of_state {v : VisitRow} (h1 : visitState v ≠ .open) (h2 : visitState v ≠ .onSite) :
    isCurrent v = false := by
  simp [isCurrent, h1, h2]

theorem finish_none_current (z : ShopZone) {w : Work} (hnd : (w.rows.map (·.id)).Nodup) (day : Option ℤ)
    (reason : String) : ∀ r ∈ (finish z w day reason).rows, isCurrent r = false := by
  have h : Remaining [] (finish z w day reason) := by
    refine Remaining.foldl (fun v vs w h => ?_) ⟨hnd, fun r hr _ => mem_liveRows.mpr hr⟩
    unfold finishRow
    split
    · exact h.close (Or.inl rfl) reason
    · split_ifs
      · exact h.retire reason
      · exact h.close (Or.inl rfl) reason
    · next h1 h2 => exact h.skip (not_current_of_state h2 h1)
  intro r hr
  by_contra hc
  exact absurd (h.ahead r hr (by simpa using hc)) (by simp)

theorem cancel_none_current {w w' : Work} (hnd : (w.rows.map (·.id)).Nodup) {reason : String}
    (hok : cancel w reason = .ok w') : ∀ r ∈ w'.rows, isCurrent r = false := by
  unfold cancel at hok
  simp only at hok
  split_ifs at hok
  cases hok
  have h : Remaining [] (w.liveRows.foldl (cancelRow reason) w) := by
    refine Remaining.foldl (fun v vs w h => ?_) ⟨hnd, fun r hr _ => mem_liveRows.mpr hr⟩
    unfold cancelRow
    split
    · exact h.retire reason
    · exact h.close (Or.inr rfl) reason
    · next h1 h2 => exact h.skip (not_current_of_state h1 h2)
  intro r hr
  by_contra hc
  exact absurd (h.ahead r hr (by simpa using hc)) (by simp)

/-! ### Writing one row -/

/-- Rows in which one row took the place of those with its key. -/
theorem Booked.replace {z : ShopZone} {rows rows' : List VisitRow} (row : VisitRow) (h : Booked z rows)
    (hnd : (rows'.map (·.id)).Nodup) (hmem : ∀ r ∈ rows', r = row ∨ (r ∈ rows ∧ r.id ≠ row.id))
    (hfree : isCurrent row = true → ∀ u ∈ rows, u.id ≠ row.id → isCurrent u = true →
      slotOf z u ≠ slotOf z row) : Booked z rows' := by
  refine ⟨hnd, fun v hv u hu hcv hcu hslot => ?_⟩
  rcases hmem v hv with hv' | ⟨hv, hnev⟩ <;> rcases hmem u hu with hu' | ⟨hu, hneu⟩
  · rw [hv', hu']
  · rw [hv'] at hcv hslot
    exact absurd hslot.symm (hfree hcv u hu hneu hcu)
  · rw [hu'] at hcu hslot
    exact absurd hslot (hfree hcu v hv hnev hcv)
  · exact h.single v hv u hu hcv hcu hslot

theorem Booked.setRow {z : ShopZone} {rows : List VisitRow} (h : Booked z rows) {row : VisitRow}
    (hfree : ∀ u ∈ rows, isCurrent u = true → slotOf z u ≠ slotOf z row) :
    Booked z (setRow rows row) :=
  h.replace row (nodup_setRow h.nodup row) (fun _ hr => mem_setRow h.nodup hr)
    fun _ u hu _ hcu => hfree u hu hcu

theorem Booked.retire {z : ShopZone} {w : Work} (h : Booked z w.rows) (v : VisitRow) (reason : String) :
    Booked z (w.retire v reason).rows :=
  ((Thins.refl h.nodup).retire v reason).booked h

theorem Booked.retireAll {z : ShopZone} (reason : String) : ∀ (vs : List VisitRow) {w : Work},
    Booked z w.rows → Booked z (vs.foldl (fun w v => w.retire v reason) w).rows
  | [], _, h => h
  | v :: vs, _, h => Booked.retireAll reason vs (h.retire v reason)

theorem isLive_of_isCurrent {v : VisitRow} (h : isCurrent v = true) : isLive v = true := by
  unfold isCurrent at h
  unfold isLive
  cases hs : visitState v <;> simp_all

/-- A tech with no Live visit on a day leaves the slot free. -/
theorem slot_free {z : ShopZone} {w : Work} {day : ℤ} {tech : Option Text}
    (h : (w.on z day (some tech) none).any isLive = false) :
    ∀ u ∈ w.rows, isCurrent u = true → slotOf z u ≠ (tech, day) := by
  intro u hu hcu heq
  have hon : u ∈ w.on z day (some tech) none :=
    mem_on.mpr ⟨hu, congrArg Prod.snd heq, fun t ht => (congrArg Prod.fst heq).trans (Option.some.inj ht), by simp⟩
  have hany : (w.on z day (some tech) none).any isLive = true :=
    List.any_eq_true.mpr ⟨u, hon, isLive_of_isCurrent hcu⟩
  rw [h] at hany
  cases hany

/-! ### Inserting a row for each slot -/

theorem foldl_insert_booked {z : ShopZone} (start stop : ℤ) (fields : VisitFields) (reason : String)
    (wanted : Option Text → Prop) {f : Work → Option Text → Work}
    (hf : ∀ w t, f w t = w ∨ f w t = w.insert t start stop fields reason ∧ wanted t) :
    ∀ (ts : List (Option Text)), ts.Nodup → ∀ (w : Work), Booked z w.rows →
    (∀ t ∈ ts, wanted t → ∀ u ∈ w.rows, isCurrent u = true → slotOf z u ≠ (t, z.day start)) →
    Booked z (ts.foldl f w).rows
  | [], _, w, h, _ => h
  | t :: ts, hnd, w, h, hfree => by
    rw [List.nodup_cons] at hnd
    rw [List.foldl_cons]
    rcases hf w t with hft | ⟨hft, hwant⟩
    · rw [hft]
      exact foldl_insert_booked _ _ _ _ _ hf ts hnd.2 w h fun t' ht' => hfree t' (List.mem_cons_of_mem _ ht')
    · rw [hft]
      refine foldl_insert_booked _ _ _ _ _ hf ts hnd.2 _ ?_ ?_
      · exact h.setRow (hfree t (List.mem_cons_self ..) hwant)
      · intro t' ht' hwant' u hu hcu
        rcases mem_setRow h.nodup hu with rfl | ⟨hu, -⟩
        · -- the row just inserted is in another tech's slot
          intro heq
          have htt : t = t' := congrArg Prod.fst heq
          exact hnd.1 (htt ▸ ht')
        · exact hfree t' (List.mem_cons_of_mem _ ht') hwant' u hu hcu

theorem book_booked {z : ShopZone} {w w' : Work} {crew : List Text} {target : ℤ} {fields : VisitFields}
    {edit : VisitEdit} {reopen : Bool} (h : Booked z w.rows) (hcrew : crew.Nodup)
    (hclear : reopen = true → ∀ r ∈ w.rows, isCurrent r = false)
    (hok : book z w crew target fields edit reopen = .ok w') : Booked z w'.rows := by
  unfold book at hok
  simp only at hok
  generalize hslots : (if crew = [] then [none] else crew.map some) = slots at hok
  have hnd : slots.Nodup := by
    rw [← hslots]
    split_ifs
    · exact List.nodup_singleton _
    · exact hcrew.map (Option.some_injective _)
  split_ifs at hok
  cases hok
  refine foldl_insert_booked target (target + minutes edit.durationMinutes) fields "date_set"
    (fun t => t ∈ slots → (w.on z (z.day target) (some t) none).any isLive = false ∨ reopen = true)
    ?_ slots hnd w h ?_
  · intro w₁ t
    by_cases hskip : t ∈ slots.filter (fun t => (w.on z (z.day target) (some t) none).any isLive) ∧
        ¬ (reopen = true ∧ edit.rebookClosedDay = some true)
    · exact Or.inl (if_pos hskip)
    · refine Or.inr ⟨if_neg hskip, fun ht => ?_⟩
      by_cases hlive : (w.on z (z.day target) (some t) none).any isLive = true
      · refine Or.inr ?_
        by_contra hre
        exact hskip ⟨List.mem_filter.mpr ⟨ht, hlive⟩, fun hr => hre hr.1⟩
      · exact Or.inl (by simpa using hlive)
  · intro t ht hwant
    rcases hwant ht with hfree | hre
    · exact slot_free hfree
    · intro u hu hcu
      rw [hclear hre u hu] at hcu
      cases hcu

/-! ### The crew change -/

/-- Every row left was there or is an OPEN one on day `n`. -/
def OnlyNear (z : ShopZone) (n : ℤ) (rows rows' : List VisitRow) : Prop :=
  ∀ r ∈ rows', r ∈ rows ∨ (visitState r = .open ∧ z.day r.startAt = n)

theorem OnlyNear.refl (z : ShopZone) (n : ℤ) (rows : List VisitRow) : OnlyNear z n rows rows :=
  fun _ hr => Or.inl hr

theorem OnlyNear.trans {z : ShopZone} {n : ℤ} {rows rows' rows'' : List VisitRow}
    (h : OnlyNear z n rows rows') (h' : OnlyNear z n rows' rows'') : OnlyNear z n rows rows'' := by
  intro r hr
  rcases h' r hr with hr | hr
  · exact h r hr
  · exact Or.inr hr

theorem OnlyNear.setRow {z : ShopZone} {n : ℤ} {rows : List VisitRow} {row : VisitRow}
    (hnd : (rows.map (·.id)).Nodup) (hopen : visitState row = .open) (hday : z.day row.startAt = n) :
    OnlyNear z n rows (setRow rows row) := by
  intro r hr
  rcases mem_setRow hnd hr with rfl | ⟨hr, -⟩
  · exact Or.inr ⟨hopen, hday⟩
  · exact Or.inl hr

/-- One pass of the crew change: it keeps the slots single and works on day `n` only. -/
structure CrewStep (z : ShopZone) (n : ℤ) (w w' : Work) : Prop where
  nodup : (w.rows.map (·.id)).Nodup → (w'.rows.map (·.id)).Nodup
  booked : Booked z w.rows → Booked z w'.rows
  near : (w.rows.map (·.id)).Nodup → OnlyNear z n w.rows w'.rows

theorem CrewStep.refl (z : ShopZone) (n : ℤ) (w : Work) : CrewStep z n w w :=
  ⟨id, id, fun _ => .refl z n w.rows⟩

theorem CrewStep.trans {z : ShopZone} {n : ℤ} {w w' w'' : Work} (h : CrewStep z n w w')
    (h' : CrewStep z n w' w'') : CrewStep z n w w'' :=
  ⟨fun hn => h'.nodup (h.nodup hn), fun hb => h'.booked (h.booked hb),
    fun hn => (h.near hn).trans (h'.near (h.nodup hn))⟩

/-- A free slot of day `n` taken by an OPEN row. -/
theorem crewStep_set {z : ShopZone} {n : ℤ} {w w' : Work} {row : VisitRow}
    (hrows : w'.rows = setRow w.rows row) (hopen : visitState row = .open) (hday : z.day row.startAt = n)
    (hfree : ∀ u ∈ w.rows, isCurrent u = true → slotOf z u ≠ (row.techId, n)) : CrewStep z n w w' := by
  subst hday
  exact ⟨fun hnd => hrows ▸ nodup_setRow hnd row, fun hb => hrows ▸ hb.setRow hfree,
    fun hnd => hrows ▸ .setRow hnd hopen rfl⟩

theorem crewStep_retire (z : ShopZone) (n : ℤ) (v : VisitRow) (reason : String) (w : Work) :
    CrewStep z n w (w.retire v reason) :=
  ⟨fun hnd => nodup_filter_ids hnd _, fun hb => hb.retire v reason,
    fun _ _ hr => Or.inl (List.mem_of_mem_filter hr)⟩

theorem crewStep_retireAll (z : ShopZone) (n : ℤ) (reason : String) : ∀ (vs : List VisitRow) (w : Work),
    CrewStep z n w (vs.foldl (fun w v => w.retire v reason) w)
  | [], w => .refl z n w
  | v :: vs, w => (crewStep_retire z n v reason w).trans (crewStep_retireAll z n reason vs _)

theorem crewRemove_step (z : ShopZone) (n : ℤ) (crew : List Text) (w : Work) (tech : Text) :
    CrewStep z n w (crewRemove z n crew w tech) := by
  unfold crewRemove
  split
  · exact .refl z n w
  · next first rest hon =>
    have hfirst : first ∈ w.on z n (some (some tech)) (some [.open]) := by rw [hon]; simp
    obtain ⟨-, hday, -, hstate⟩ := mem_on.mp hfirst
    have hopen : visitState first = .open := by simpa using hstate _ rfl
    by_cases hcrew : crew ≠ []
    · rw [if_pos hcrew]
      exact crewStep_retireAll z n "crew_removed" (first :: rest) w
    · rw [if_neg hcrew]
      refine CrewStep.trans ?_ (crewStep_retireAll z n "crew_removed" rest _)
      split_ifs with hlive
      · exact crewStep_retire z n first "crew_removed" w
      · refine crewStep_set rfl hopen hday (slot_free ?_)
        rw [ne_eq, not_not, List.filter_eq_nil_iff] at hlive
        rw [List.any_eq_false]
        exact hlive

/-- The OPEN row without a tech that a new tech takes over. -/
theorem slot_on {z : ShopZone} {w : Work} {n : ℤ} {wasEmpty : Bool} {slot : VisitRow} {rest : List VisitRow}
    (h : (if wasEmpty = true then w.on z n (some none) (some [.open]) else []) = slot :: rest) :
    slot ∈ w.on z n (some none) (some [.open]) := by
  split_ifs at h
  rw [h]
  exact List.mem_cons_self

theorem crewAdd_step (z : ShopZone) {n : ℤ} {nStart : Option ℤ} (hstart : ∀ s, nStart = some s → z.day s = n)
    (nLength : Option ℤ) (fields : VisitFields) (mins : ℤ) (wasEmpty : Bool) (w : Work) (tech : Text) :
    CrewStep z n w (crewAdd z n nStart nLength fields mins wasEmpty w tech) := by
  unfold crewAdd
  by_cases hlive : (w.on z n (some (some tech)) none).any isLive = true
  · rw [if_pos hlive]
    exact .refl z n w
  rw [if_neg hlive]
  have hfree := slot_free (by simpa using hlive : (w.on z n (some (some tech)) none).any isLive = false)
  generalize hslots : (if wasEmpty = true then w.on z n (some none) (some [.open]) else []) = slots
  cases slots with
  | cons slot rest =>
    obtain ⟨-, hday, -, hstate⟩ := mem_on.mp (slot_on hslots)
    have hopen : visitState slot = .open := by simpa using hstate _ rfl
    exact crewStep_set rfl hopen hday hfree
  | nil =>
    cases nStart with
    | none => exact .refl z n w
    | some s => exact crewStep_set rfl rfl (hstart s rfl) hfree

theorem foldl_removeTech_step (z : ShopZone) (n : ℤ) : ∀ (ts : List Text) (s : List Text × Work),
    CrewStep z n s.2 (ts.foldl (removeTech z (some n)) s).2
  | [], s => .refl z n s.2
  | t :: ts, s => (crewRemove_step z n (s.1.erase t) s.2 t).trans
      (foldl_removeTech_step z n ts (removeTech z (some n) s t))

theorem foldl_addTech_step (z : ShopZone) {n : ℤ} {nStart : Option ℤ}
    (hstart : ∀ s, nStart = some s → z.day s = n) (nLength : Option ℤ) (fields : VisitFields) (mins : ℤ) :
    ∀ (ts : List Text) (s : List Text × Work),
    CrewStep z n s.2 (ts.foldl (addTech z (some n) nStart nLength fields mins) s).2
  | [], s => .refl z n s.2
  | t :: ts, s => (crewAdd_step z hstart nLength fields mins s.1.isEmpty s.2 t).trans
      (foldl_addTech_step z hstart nLength fields mins ts (addTech z (some n) nStart nLength fields mins s t))

/-- The crew change on day `n`. -/
theorem crewChange_step (z : ShopZone) (w : Work) (n : ℤ) (before after : List Text) (fields : VisitFields)
    (mins : ℤ) : CrewStep z n w (crewChange z w (some n) before after fields mins).2 := by
  refine (foldl_removeTech_step z n (before.filter (· ∉ after)) (before, w)).trans
    (foldl_addTech_step z ?_ _ fields mins (after.filter (· ∉ before)) _)
  intro s hs
  -- the start a new tech joins at is the start of a row of that day
  have hmem := List.min?_mem hs
  obtain ⟨v, hv, rfl⟩ := List.mem_map.mp hmem
  exact (mem_on.mp (List.mem_of_mem_filter hv)).2.1

/-- Without a day to work on, the crew change writes no row. -/
theorem crewChange_none (z : ShopZone) (w : Work) (before after : List Text) (fields : VisitFields)
    (mins : ℤ) : (crewChange z w none before after fields mins).2 = w := by
  have hrem : ∀ (ts : List Text) (s : List Text × Work), (ts.foldl (removeTech z none) s).2 = s.2 := by
    intro ts
    induction ts with
    | nil => exact fun s => rfl
    | cons t ts ih => exact fun s => ih _
  have hadd : ∀ (nl : Option ℤ) (ns : Option ℤ) (ts : List Text) (s : List Text × Work),
      (ts.foldl (addTech z none ns nl fields mins) s).2 = s.2 := by
    intro nl ns ts
    induction ts with
    | nil => exact fun s => rfl
    | cons t ts ih => exact fun s => ih _
  exact (hadd _ _ _ _).trans (hrem _ _)

theorem fst_foldl_removeTech (z : ShopZone) (n : Option ℤ) : ∀ (ts : List Text) (s : List Text × Work),
    List.Sublist (ts.foldl (removeTech z n) s).1 s.1
  | [], _ => List.Sublist.refl _
  | t :: ts, s => (fst_foldl_removeTech z n ts (removeTech z n s t)).trans List.erase_sublist

theorem fst_foldl_addTech (z : ShopZone) (n ns nl : Option ℤ) (fields : VisitFields) (mins : ℤ) :
    ∀ (ts : List Text) (s : List Text × Work), (ts.foldl (addTech z n ns nl fields mins) s).1 = s.1 ++ ts
  | [], s => (List.append_nil _).symm
  | t :: ts, s => by
    rw [List.foldl_cons, fst_foldl_addTech z n ns nl fields mins ts]
    simp [addTech]

/-- A crew without repeats stays one. -/
theorem crewChange_crew_nodup (z : ShopZone) (w : Work) (n : Option ℤ) {before after : List Text}
    (hb : before.Nodup) (ha : after.Nodup) (fields : VisitFields) (mins : ℤ) :
    (crewChange z w n before after fields mins).1.Nodup := by
  have hsub := fst_foldl_removeTech z n (before.filter (· ∉ after)) (before, w)
  rw [crewChange, fst_foldl_addTech]
  refine List.nodup_append.mpr ⟨hb.sublist hsub, ha.filter _, ?_⟩
  intro a hma b hmb hab
  have hnot := (List.mem_filter.mp hmb).2
  rw [decide_eq_true_eq] at hnot
  exact hnot (hab ▸ hsub.subset hma)

/-! ### The date -/

theorem checkRefusals_ok {z : ShopZone} {w : Work} {n : ℤ} {target : Option ℤ}
    (h : checkRefusals z w n target = .ok ()) :
    (∀ r ∈ w.rows, visitState r ≠ .onSite) ∧
      ∀ t, target = some t → ∀ r ∈ w.rows, isCurrent r = true → z.day r.startAt ≠ n →
        z.day t < z.day r.startAt := by
  unfold checkRefusals at h
  simp only at h
  by_cases hon : (w.liveRows.filter isCurrent).filter (fun v => visitState v == .onSite) ≠ []
  · rw [if_pos hon] at h
    cases h
  rw [if_neg hon] at h
  rw [ne_eq, not_not] at hon
  refine ⟨fun r hr hs => ?_, ?_⟩
  · have hmem : r ∈ (w.liveRows.filter isCurrent).filter fun v => visitState v == .onSite := by
      rw [List.filter_filter, List.mem_filter]
      exact ⟨mem_liveRows.mpr hr, by simp [hs, isCurrent]⟩
    rw [hon] at hmem
    cases hmem
  · intro t ht r hr hc hne
    subst ht
    simp only at h
    by_contra hle
    have hmem : z.day r.startAt ∈
        ((w.liveRows.filter isCurrent).map fun v => z.day v.startAt).filter (· ≠ n) := by
      rw [List.mem_filter]
      exact ⟨List.mem_map.mpr ⟨r, List.mem_filter.mpr ⟨mem_liveRows.mpr hr, hc⟩, rfl⟩, by simpa using hne⟩
    cases hmin : (((w.liveRows.filter isCurrent).map fun v => z.day v.startAt).filter (· ≠ n)).min? with
    | none =>
      rw [List.min?_eq_none_iff] at hmin
      rw [hmin] at hmem
      cases hmem
    | some first =>
      have hfirst : first ≤ z.day r.startAt := (List.min?_eq_some_iff.mp hmin).2 _ hmem
      rw [hmin, Option.filter_some, if_pos (by simpa using le_trans hfirst (not_lt.mp hle))] at h
      cases h

/-- What a loop of row writes, each under the key of the row it read, leaves. -/
theorem mem_foldl_move {f : Work → VisitRow → Work} {g : VisitRow → VisitRow}
    (hf : ∀ w v, (f w v).rows = setRow w.rows (g v)) (hid : ∀ v, (g v).id = v.id) :
    ∀ (vs : List VisitRow) (w : Work), (w.rows.map (·.id)).Nodup →
    ((vs.foldl f w).rows.map (·.id)).Nodup ∧ ∀ r ∈ (vs.foldl f w).rows,
      (∃ v ∈ vs, r = g v) ∨ (r ∈ w.rows ∧ r.id ∉ vs.map (·.id))
  | [], w, hnd => ⟨hnd, fun r hr => Or.inr ⟨hr, by simp⟩⟩
  | v :: vs, w, hnd => by
    have hnd' : ((f w v).rows.map (·.id)).Nodup := by rw [hf]; exact nodup_setRow hnd _
    obtain ⟨h1, h2⟩ := mem_foldl_move hf hid vs (f w v) hnd'
    refine ⟨h1, fun r hr => ?_⟩
    rcases h2 r hr with ⟨u, hu, rfl⟩ | ⟨hr, hnot⟩
    · exact Or.inl ⟨u, List.mem_cons_of_mem _ hu, rfl⟩
    · rw [hf] at hr
      rcases mem_setRow hnd hr with rfl | ⟨hr, hne⟩
      · exact Or.inl ⟨v, List.mem_cons_self .., rfl⟩
      · refine Or.inr ⟨hr, ?_⟩
        rw [List.map_cons, List.mem_cons, not_or]
        exact ⟨fun heq => hne (heq.trans (hid v).symm), hnot⟩

/-- E2: moving the OPEN visits of day `n` to a day before every other booked one. -/
theorem moveOpen_booked {z : ShopZone} {w : Work} {n target : ℤ} (hb : Booked z w.rows)
    (hsite : ∀ r ∈ w.rows, visitState r ≠ .onSite)
    (hlater : ∀ r ∈ w.rows, isCurrent r = true → z.day r.startAt ≠ n → z.day target < z.day r.startAt)
    (mins : ℤ) (reason : String) :
    Booked z ((w.on z n none (some [.open])).foldl (fun w v =>
      w.move v target (target + visitLength v mins) reason) w).rows := by
  obtain ⟨hnd, hmem⟩ := mem_foldl_move
    (g := fun v => { v with startAt := target, endAt := some (target + visitLength v mins) })
    (f := fun w v => w.move v target (target + visitLength v mins) reason) (fun _ _ => rfl) (fun _ => rfl)
    (w.on z n none (some [.open])) w hb.nodup
  -- a row that was not moved is either not Current or on a later day
  have hstay : ∀ r ∈ w.rows, r.id ∉ (w.on z n none (some [.open])).map (·.id) → isCurrent r = true →
      z.day target < z.day r.startAt := by
    intro r hr hnot hc
    refine hlater r hr hc fun hday => hnot (List.mem_map_of_mem (mem_on.mpr ⟨hr, hday, by simp, ?_⟩))
    intro ss hss
    cases hss
    have hopen : visitState r = .open := by
      simp only [isCurrent, Bool.or_eq_true, beq_iff_eq] at hc
      exact hc.resolve_right (hsite r hr)
    simp [hopen]
  have hopen : ∀ v ∈ w.on z n none (some [.open]), isCurrent v = true := by
    intro v hv
    have hs : visitState v = .open := by simpa using (mem_on.mp hv).2.2.2 _ rfl
    simp [isCurrent, hs]
  refine ⟨hnd, fun v hv u hu hcv hcu hslot => ?_⟩
  rcases hmem v hv with ⟨v₀, hv₀, rfl⟩ | ⟨hv, hnv⟩ <;> rcases hmem u hu with ⟨u₀, hu₀, rfl⟩ | ⟨hu, hnu⟩
  · refine hb.single v₀ (mem_on.mp hv₀).1 u₀ (mem_on.mp hu₀).1 (hopen v₀ hv₀) (hopen u₀ hu₀) ?_
    have htech : v₀.techId = u₀.techId := congrArg Prod.fst hslot
    rw [slotOf, slotOf, htech, (mem_on.mp hv₀).2.1, (mem_on.mp hu₀).2.1]
  · have hday : z.day target = z.day u.startAt := congrArg Prod.snd hslot
    exact absurd (hstay u hu hnu hcu) (by omega)
  · have hday : z.day v.startAt = z.day target := congrArg Prod.snd hslot
    exact absurd (hstay v hv hnv hcv) (by omega)
  · exact hb.single v hv u hu hcv hcu hslot

theorem moveDate_booked {z : ShopZone} {w w' : Work} {n : Option ℤ} {crew : List Text} {target : Option ℤ}
    {edit : VisitEdit} (hb : Booked z w.rows) (hcrew : crew.Nodup)
    (hsite : n.isSome → ∀ r ∈ w.rows, visitState r ≠ .onSite)
    (hlater : ∀ m, n = some m → ∀ t, target = some t → ∀ r ∈ w.rows, isCurrent r = true →
      z.day r.startAt ≠ m → z.day t < z.day r.startAt)
    (hok : moveDate z w n crew edit target = .ok w') : Booked z w'.rows := by
  unfold moveDate at hok
  cases target with
  | none =>
    cases hok
    exact hb.retireAll "date_cleared" _
  | some target =>
    simp only at hok
    cases hn : n.filter fun n => (w.on z n none none).any isCurrent with
    | some m =>
      simp only [hn, except_bind_ok] at hok
      obtain ⟨-, -, hok⟩ := hok
      cases hok
      have hnm : n = some m := (Option.filter_eq_some_iff.mp hn).1
      exact moveOpen_booked hb (hsite (by simp [hnm])) (hlater m hnm target rfl) _ _
    | none =>
      simp only [hn, except_bind_ok] at hok
      obtain ⟨booked, hbook, -, -, hok⟩ := hok
      cases hok
      exact book_booked hb hcrew (by simp) hbook

theorem changeCrew_nodup {z : ShopZone} {w : Work} {n : Option ℤ} {edit : VisitEdit}
    (hbefore : edit.crewBefore.Nodup) (hafter : ∀ after ∈ edit.crewAfter, after.Nodup) :
    (changeCrew z w n edit).1.Nodup := by
  unfold changeCrew
  cases ha : edit.crewAfter with
  | none => exact hbefore
  | some after => exact crewChange_crew_nodup z w n hbefore (hafter after ha) _ _

theorem changeCrew_none (z : ShopZone) (w : Work) (edit : VisitEdit) : (changeCrew z w none edit).2 = w := by
  unfold changeCrew
  cases edit.crewAfter with
  | none => rfl
  | some after => exact crewChange_none z w _ _ _ _

theorem changeCrew_step (z : ShopZone) (w : Work) (n : ℤ) (edit : VisitEdit) :
    CrewStep z n w (changeCrew z w (some n) edit).2 := by
  unfold changeCrew
  cases edit.crewAfter with
  | none => exact .refl z n w
  | some after => exact crewChange_step z w n _ _ _ _

theorem changeCrew_booked {z : ShopZone} {w : Work} (hb : Booked z w.rows) (n : Option ℤ) (edit : VisitEdit) :
    Booked z (changeCrew z w n edit).2.rows := by
  cases n with
  | none => rw [changeCrew_none]; exact hb
  | some n => exact (changeCrew_step z w n edit).booked hb

theorem reopenJob_booked {z : ShopZone} {w w' : Work} {edit : VisitEdit} {at' : Option (Option ℤ)}
    (hb : Booked z w.rows) (hbefore : edit.crewBefore.Nodup)
    (hafter : ∀ after ∈ edit.crewAfter, after.Nodup)
    (hok : reopenJob z w edit at' = .ok w') : Booked z w'.rows := by
  rw [reopenJob, except_bind_ok] at hok
  obtain ⟨w₁, hw₁, hok⟩ := hok
  -- whichever of X1 and F1 ran, no Current row is left
  have hclear : Booked z w₁.rows ∧ ∀ r ∈ w₁.rows, isCurrent r = false := by
    unfold settleReopened at hw₁
    split_ifs at hw₁
    · exact ⟨(cancel_thins hb.nodup hw₁).booked hb, cancel_none_current hb.nodup hw₁⟩
    · cases hw₁
      exact ⟨(finish_thins hb.nodup _ _).booked hb, finish_none_current z hb.nodup _ _⟩
  simp only [changeCrew_none] at hok
  split at hok
  · exact book_booked hclear.1 (changeCrew_nodup hbefore hafter) (fun _ => hclear.2) hok
  · cases hok
    exact hclear.1

theorem dress_booked {z : ShopZone} {w : Work} (hb : Booked z w.rows) (mins : Option ℤ) (fields : VisitFields) :
    Booked z (copyFields (nameFirstDay z w mins) fields).rows := by
  have hfirst : Booked z (nameFirstDay z w mins).rows := by
    unfold nameFirstDay
    split
    · exact (setFirstDayLength_thins hb.nodup _).booked hb
    · exact hb
  exact (copyFields_thins hfirst.nodup fields).booked hfirst

theorem editDate_booked {z : ShopZone} {w w' : Work} {edit : VisitEdit} {target : Option ℤ}
    (hb : Booked z w.rows) (hbefore : edit.crewBefore.Nodup) (hafter : ∀ after ∈ edit.crewAfter, after.Nodup)
    (hok : editDate z w edit target = .ok w') : Booked z w'.rows := by
  unfold editDate at hok
  simp only [except_bind_ok] at hok
  obtain ⟨⟨⟩, hcheck, w₁, hmove, hok⟩ := hok
  cases hok
  refine dress_booked (moveDate_booked (changeCrew_booked hb _ edit) (changeCrew_nodup hbefore hafter)
    ?_ ?_ hmove) _ _
  · intro hsome r hr hstate
    obtain ⟨n, hn⟩ := Option.isSome_iff_exists.mp hsome
    rw [hn] at hcheck hr
    rcases (changeCrew_step z w n edit).near hb.nodup r hr with hr | ⟨hopen, -⟩
    · exact (checkRefusals_ok hcheck).1 r hr hstate
    · rw [hopen] at hstate
      cases hstate
  · intro n hn t ht r hr hc hne
    rw [hn] at hcheck hr
    rcases (changeCrew_step z w n edit).near hb.nodup r hr with hr | ⟨-, hday⟩
    · exact (checkRefusals_ok hcheck).2 t ht r hr hc hne
    · exact absurd hday hne

theorem planEdit_booked {z : ShopZone} {w w' : Work} {edit : VisitEdit} {at' : Option (Option ℤ)}
    (hb : Booked z w.rows) (hbefore : edit.crewBefore.Nodup) (hafter : ∀ after ∈ edit.crewAfter, after.Nodup)
    (hok : planEdit z w edit = .ok (w', at')) : Booked z w'.rows := by
  have hcopy : ∀ {v : Work}, Booked z v.rows → Booked z (copyFields v edit.fields).rows := fun hv =>
    (copyFields_thins hv.nodup edit.fields).booked hv
  unfold planEdit at hok
  simp only at hok
  split_ifs at hok
  · cases hok
    exact hcopy ((finish_thins hb.nodup _ _).booked hb)
  · obtain ⟨w₁, hw₁, hok⟩ := except_bind_ok.mp hok
    cases hok
    exact reopenJob_booked hb hbefore hafter hw₁
  · obtain ⟨w₁, hw₁, hok⟩ := except_bind_ok.mp hok
    cases hok
    exact hcopy ((cancel_thins hb.nodup hw₁).booked hb)
  · cases hok
    exact hcopy hb
  · unfold editLive at hok
    split at hok
    · obtain ⟨w₁, hw₁, hok⟩ := except_bind_ok.mp hok
      cases hok
      exact editDate_booked hb hbefore hafter hw₁
    · cases hok
      exact dress_booked (changeCrew_booked hb _ edit) _ _

/-! ### The office's own visits -/

theorem techsHolding_nil {z : ShopZone} {w : Work} {day : ℤ} {techs : List (Option Text)}
    {skip : Option VisitId} (h : techsHolding z w day techs skip = []) :
    ∀ t ∈ techs, ∀ u ∈ w.rows, some u.id ≠ skip → isCurrent u = true → slotOf z u ≠ (t, day) := by
  intro t ht u hu hid hc heq
  rw [techsHolding, List.filter_eq_nil_iff] at h
  refine h t ht (List.any_eq_true.mpr ⟨u, mem_on.mpr ⟨hu, congrArg Prod.snd heq, ?_, by simp⟩, ?_⟩)
  · intro t' ht'
    exact (congrArg Prod.fst heq).trans (Option.some.inj ht')
  · simp [isLive_of_isCurrent hc, hid]

theorem addDay_booked {z : ShopZone} (hz : z.RoundTrips) {time : ClockTime} {mins : ℤ}
    {slots : List (Option Text)} (hslots : slots.Nodup) {fields : VisitFields} {w w' : Work} {day : ℤ}
    (hb : Booked z w.rows) (hok : addDay z time mins slots fields w day = .ok w') : Booked z w'.rows := by
  unfold addDay at hok
  simp only at hok
  split_ifs at hok with hhold
  cases hok
  rw [ne_eq, not_not] at hhold
  refine foldl_insert_booked _ _ _ _ (fun _ => True) (fun w t => Or.inr ⟨rfl, trivial⟩) slots hslots w hb ?_
  intro t ht _ u hu hc
  rw [hz day time]
  exact techsHolding_nil hhold t ht u hu (by simp) hc

theorem addDays_booked {z : ShopZone} (hz : z.RoundTrips) {time : ClockTime} {mins : ℤ}
    {slots : List (Option Text)} (hslots : slots.Nodup) {fields : VisitFields} :
    ∀ (days seen : List ℤ) {w w' : Work}, Booked z w.rows →
    addDays z time mins slots fields w seen days = .ok w' → Booked z w'.rows
  | [], _, _, _, hb, hok => by
    cases hok
    exact hb
  | day :: days, seen, w, w', hb, hok => by
    rw [addDays] at hok
    split_ifs at hok
    obtain ⟨w₁, hw₁, hok⟩ := except_bind_ok.mp hok
    exact addDays_booked hz hslots days (day :: seen) (addDay_booked hz hslots hb hw₁) hok

/-- Moving one visit: its row takes a slot no other visit holds. -/
theorem moveVisit_booked {z : ShopZone} {w : Work} {v : VisitRow} {tech : Option Text} {start stop : ℤ}
    (hb : Booked z w.rows) (hv : v ∈ w.rows)
    (hfree : ∀ u ∈ w.rows, u.id ≠ v.id → isCurrent u = true → slotOf z u ≠ (tech, z.day start))
    (hminute : start = toMinute v.startAt → z.day v.startAt = z.day start) :
    Booked z (moveVisit w v tech start stop).rows := by
  -- the rows after the reassignment, when there is one
  have hre : ∃ w₁ : Work, (if tech ≠ v.techId then w.reassign v tech "visit_edited" else w) = w₁ ∧
      (w₁.rows.map (·.id)).Nodup ∧
      ∀ r ∈ w₁.rows, r = { v with techId := tech } ∨ (r ∈ w.rows ∧ r.id ≠ v.id) := by
    refine ⟨_, rfl, ?_, ?_⟩
    · split_ifs
      · exact nodup_setRow hb.nodup _
      · exact hb.nodup
    · intro r hr
      split_ifs at hr with hne
      · exact mem_setRow hb.nodup hr
      · rw [ne_eq, not_not] at hne
        by_cases hid : r.id = v.id
        · have hrv := List.inj_on_of_nodup_map hb.nodup hr hv hid
          exact Or.inl (by rw [hrv, hne])
        · exact Or.inr ⟨hr, hid⟩
  obtain ⟨w₁, hw₁, hnd, hmem⟩ := hre
  unfold moveVisit
  simp only [hw₁]
  split_ifs with hmove
  · refine hb.replace { v with techId := tech, startAt := start, endAt := some stop }
      (nodup_setRow hnd _) (fun r hr => ?_) fun _ => hfree
    rcases mem_setRow hnd hr with hr | ⟨hr, hne⟩
    · exact Or.inl hr
    · rcases hmem r hr with hr | hr
      · exact absurd (by rw [hr]) hne
      · exact Or.inr hr
  · rw [not_or, not_not] at hmove
    refine hb.replace { v with techId := tech } hnd hmem fun _ u hu hne hc heq => ?_
    refine hfree u hu hne hc (heq.trans ?_)
    rw [slotOf, hminute hmove.1]

theorem findOpen_ok {w : Work} {id : VisitId} {v : VisitRow} (h : findOpen w id = .ok v) : v ∈ w.rows := by
  unfold findOpen at h
  split at h
  · cases h
  · next u hu =>
    split_ifs at h
    cases h
    exact List.mem_of_find?_eq_some hu

/-! ### Every request -/

/-- A request to one of the four planners. -/
inductive VisitRequest where
  | sync (edit : VisitEdit)
  | add (today : ℤ) (jobState : JobState) (days : List ℤ) (startTime : ClockTime) (durationMinutes : ℤ)
      (techIds : List (Option Text)) (fields : VisitFields)
  | move (today : ℤ) (jobState : JobState) (visitId : VisitId) (startAt endAt : ℤ)
      (techId : Option (Option Text))
  | remove (jobState : JobState) (visitId : VisitId)

def VisitRequest.plan (z : ShopZone) (visits : List VisitRow) : VisitRequest → VisitPlan
  | .sync edit => planVisitSync z visits edit
  | .add today jobState days time mins techs fields =>
    planAddVisits z visits today jobState days time mins techs fields
  | .move today jobState id start stop tech => planMoveVisit z visits today jobState id start stop tech
  | .remove jobState id => planRemoveVisit visits jobState id

/-- The crew lists of the request hold no tech twice. -/
def VisitRequest.CrewsDistinct : VisitRequest → Prop
  | .sync edit => edit.crewBefore.Nodup ∧ ∀ after ∈ edit.crewAfter, after.Nodup
  | _ => True

theorem ofVisits_booked {z : ShopZone} {visits : List VisitRow} (h : AtMostOneCurrent z visits) :
    Booked z (Work.ofVisits visits).rows := by
  obtain ⟨hnd, hmem⟩ := mem_foldl_setRow visits [] (by simp)
  refine ⟨hnd, fun v hv u hu hcv hcu hslot => ?_⟩
  have hin : ∀ r ∈ (Work.ofVisits visits).rows, r ∈ visits := fun r hr =>
    (hmem r hr).resolve_right (by simp)
  have hv' : v ∈ visits.filter fun r => isCurrent r && slotOf z r == slotOf z u :=
    List.mem_filter.mpr ⟨hin v hv, by simp [hcv, hslot]⟩
  have hu' : u ∈ visits.filter fun r => isCurrent r && slotOf z r == slotOf z u :=
    List.mem_filter.mpr ⟨hin u hu, by simp [hcu]⟩
  have hlen := h (slotOf z u)
  generalize (visits.filter fun r => isCurrent r && slotOf z r == slotOf z u) = l at hv' hu' hlen
  match l, hlen with
  | [], _ => cases hv'
  | [x], _ => rw [List.mem_singleton.mp hv', List.mem_singleton.mp hu']
  | _ :: _ :: _, hlen => simp at hlen

theorem Booked.atMostOne {z : ShopZone} {w : Work} (h : Booked z w.rows) : AtMostOneCurrent z w.liveRows := by
  intro slot
  have hnd : (w.liveRows.map (·.id)).Nodup :=
    ((List.perm_insertionSort visitLe w.rows).map (·.id)).nodup_iff.mpr h.nodup
  have hfil := nodup_filter_ids hnd fun v => isCurrent v && slotOf z v == slot
  have hall : ∀ v ∈ w.liveRows.filter fun v => isCurrent v && slotOf z v == slot,
      v ∈ w.rows ∧ isCurrent v = true ∧ slotOf z v = slot := by
    intro v hv
    have hv' := List.mem_filter.mp hv
    simp only [Bool.and_eq_true, beq_iff_eq] at hv'
    exact ⟨mem_liveRows.mp hv'.1, hv'.2.1, hv'.2.2⟩
  generalize w.liveRows.filter (fun v => isCurrent v && slotOf z v == slot) = l at hfil hall
  match l with
  | [] => simp
  | [x] => simp
  | x :: y :: l =>
    obtain ⟨hx, hcx, hsx⟩ := hall x (by simp)
    obtain ⟨hy, hcy, hsy⟩ := hall y (by simp)
    have hid := h.single x hx y hy hcx hcy (hsx.trans hsy.symm)
    simp [hid] at hfil

theorem runPlan_booked {z : ShopZone} {visits : List VisitRow} {run : Except Refusal Work}
    (hrun : ∀ w, run = .ok w → Booked z w.rows) (hok : (runPlan visits run).refusal = none) :
    AtMostOneCurrent z (runPlan visits run).visits := by
  unfold runPlan at hok ⊢
  cases run with
  | error e => cases hok
  | ok w => exact (hrun w rfl).atMostOne

/-- A request that is not refused never leaves two Current visits in one slot. -/
theorem no_double_booking (z : ShopZone) (hz : z.RoundTrips) (visits : List VisitRow)
    (h : AtMostOneCurrent z visits) (req : VisitRequest) (hcrew : req.CrewsDistinct)
    (hok : (req.plan z visits).refusal = none) : AtMostOneCurrent z (req.plan z visits).visits := by
  have hb := ofVisits_booked h
  cases req with
  | sync edit =>
    simp only [VisitRequest.plan, planVisitSync] at hok ⊢
    cases hp : planEdit z (.ofVisits visits) edit with
    | error e => rw [hp] at hok; cases hok
    | ok res =>
      obtain ⟨w, at'⟩ := res
      exact (planEdit_booked hb hcrew.1 hcrew.2 hp).atMostOne
  | add today jobState days time mins techs fields =>
    refine runPlan_booked (fun w hw => ?_) hok
    simp only [except_bind_ok] at hw
    obtain ⟨-, -, -, -, -, -, -, -, hw⟩ := hw
    refine addDays_booked hz ?_ _ _ hb hw
    split_ifs
    · exact List.nodup_singleton _
    · exact eraseDups_nodup techs
  | move today jobState id start stop tech =>
    refine runPlan_booked (fun w hw => ?_) hok
    simp only [except_bind_ok] at hw
    obtain ⟨-, -, v, hv, -, -, -, -, ⟨⟩, hhold, hw⟩ := hw
    cases hw
    have hnil := not_not.mp (refuseIf_ok hhold)
    refine moveVisit_booked hb (findOpen_ok hv) (fun u hu hne hc => ?_) fun hstart => ?_
    · exact techsHolding_nil hnil _ (by simp) u hu (by simpa using hne) hc
    · rw [hstart, day_toMinute]
  | remove jobState id =>
    refine runPlan_booked (fun w hw => ?_) hok
    simp only [except_bind_ok] at hw
    obtain ⟨-, -, v, -, -, -, hw⟩ := hw
    cases hw
    exact hb.retire v "visit_removed"

/-- One tech and an unassigned slot on day 3, and the tech again on day 5. -/
def twoDayVisits : List VisitRow :=
  [⟨.stored 1, some "ann".toList, 3 * DAY, none, some "scheduled".toList, none, none, none, none⟩,
    ⟨.stored 2, none, 3 * DAY, none, none, none, none, none, none⟩,
    ⟨.stored 3, some "ann".toList, 5 * DAY, none, some "Scheduled".toList, none, none, none, none⟩]

/-- The date moves to day 4 while a second tech joins. -/
def joinAndMove : VisitRequest :=
  .sync { scheduledAt := some (some (4 * DAY)), storedScheduledAt := some (3 * DAY)
          crewBefore := ["ann".toList], crewAfter := some ["ann".toList, "bob".toList] }

theorem atMostOneCurrent_twoDayVisits : AtMostOneCurrent utcZone twoDayVisits := by
  intro slot
  by_contra hlen
  have hsub : ∀ v ∈ twoDayVisits.filter fun v => isCurrent v && slotOf utcZone v == slot,
      slotOf utcZone v = slot := fun v hv => by
    have h := (List.mem_filter.mp hv).2
    simp only [Bool.and_eq_true, beq_iff_eq] at h
    exact h.2
  have hnd : (twoDayVisits.map (slotOf utcZone)).Nodup := by decide +kernel
  have hnd' := hnd.sublist ((List.filter_sublist (p := fun v => isCurrent v && slotOf utcZone v == slot)).map _)
  generalize twoDayVisits.filter (fun v => isCurrent v && slotOf utcZone v == slot) = l at hlen hsub hnd'
  match l with
  | [] => simp at hlen
  | [_] => simp at hlen
  | x :: y :: _ => simp [hsub x (by simp), hsub y (by simp)] at hnd'

theorem no_double_booking_join :
    ((joinAndMove.plan utcZone twoDayVisits).visits.map fun v => (v.techId, utcZone.day v.startAt)) =
        [(some "bob".toList, 4), (some "ann".toList, 4), (none, 4), (some "ann".toList, 5)] ∧
      AtMostOneCurrent utcZone (joinAndMove.plan utcZone twoDayVisits).visits :=
  ⟨by decide +kernel, no_double_booking utcZone utcZone_roundTrips twoDayVisits
    atMostOneCurrent_twoDayVisits joinAndMove ⟨by decide, by decide⟩ (by decide +kernel)⟩

end Gdx
