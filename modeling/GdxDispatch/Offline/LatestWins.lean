import Mathlib.Data.List.Nodup
import Mathlib.Data.List.Pairwise
import GdxDispatch.Offline.Queue

/-! Latest wins on one phone.

    A row is decided once its write is on the server or was answered as landed. As long as a decided row is in
    the store its flags make the claim of an older one of its kind wait or retire it; it may leave the store
    only when every older one is finished. So no older row is on the wire when a newer one is decided, and
    none gets there later. What breaks this is a retry that writes from a stale reading: it can put a row back
    in line while the row is on the wire. -/

namespace Gdx

open Lib

/-! ### Rows that block, rows that are finished -/

/-- An older row of its kind is not claimed while this one is in the store. -/
def QueueRow.blocking (r : QueueRow) : Prop :=
  r.status ≠ .failed ∨ r.superseded = true ∨ (r.uncertain = true ∧ r.acknowledged = false)

/-- Landed or retired: the row is never sent again. -/
def QueueRow.finished (r : QueueRow) : Prop :=
  r.status = .synced ∨ (r.status = .failed ∧ r.acknowledged = true ∧ r.superseded = true)

/-- Refused, or put back in line by the tech and not sent since. -/
def QueueRow.idle (r : QueueRow) : Prop :=
  r.status = .failed ∨ (r.status = .pending ∧ r.firstMaybeRanAt = none)

/-- A newer row of the kind is among these. -/
def QueueRow.behind (r : QueueRow) (decided : QueueRow → Prop) : Prop :=
  ∃ b, decided b ∧ r.id < b.id ∧ r.kind = b.kind ∧ r.kind ≠ none

/-- The flags of a row go with its status; `decided` are the rows the server has decided. -/
def QueueRow.flagged (r : QueueRow) (decided : QueueRow → Prop) : Prop :=
  r.superseded = true → (r.status = .failed ∧ r.acknowledged = true) ∨
    (r.status = .pending ∧ r.firstMaybeRanAt = none ∧ r.behind decided)

/-- What one write of the queue may do to a row. -/
structure Evolves (now : ℕ) (x y : QueueRow) : Prop where
  id : y.id = x.id
  kind : y.kind = x.kind
  finished : x.finished → y.finished
  last : y.lastAttemptedAt = x.lastAttemptedAt ∨ y.lastAttemptedAt = some now
  sent : y.status = .syncing → y = x ∨ (x.status = .pending ∧ y.lastAttemptedAt = some now)
  idle : x.idle → y.idle ∨ y.status = .syncing

theorem Evolves.refl (now : ℕ) (x : QueueRow) : Evolves now x x :=
  ⟨rfl, rfl, fun h => h, Or.inl rfl, fun _ => Or.inl rfl, Or.inl⟩

/-! ### The store and the wire -/

/-- The store beside what is on the wire, what the server has decided and what was answered as landed. -/
structure QueueOk (nextId : ℕ) (rows wire : List QueueRow) (decided landed : QueueRow → Prop) : Prop where
  nodup : (rows.map (·.id)).Nodup
  lt : ∀ r ∈ rows, r.id < nextId
  mutex : ∀ x ∈ rows, ∀ y ∈ rows, x.status = .syncing → y.status = .syncing → x.kind = y.kind → x.kind ≠ none →
    x.id = y.id
  wired : ∀ w ∈ wire, w ∈ rows ∧ w.status = .syncing
  wireOnce : (wire.map (·.id)).Nodup
  attempted : ∀ r ∈ rows, r.status = .syncing → r.lastAttemptedAt.isSome
  decidedLt : ∀ b, decided b → b.id < nextId
  decidedHere : ∀ b, decided b → ∀ r ∈ rows, r.id = b.id →
    r.kind = b.kind ∧ r.blocking ∧ r.lastAttemptedAt.isSome
  quiet : ∀ a ∈ rows, a.behind decided → a.status ≠ .syncing
  kept : ∀ b, decided b → ∀ a ∈ rows, a.id < b.id → a.kind = b.kind → a.kind ≠ none →
    (∃ r ∈ rows, r.id = b.id) ∨ a.finished
  landedHere : ∀ b, landed b → decided b ∧ ∀ r ∈ rows, r.id = b.id → r.status = .synced
  flagged : ∀ r ∈ rows, r.flagged decided

section Store
variable {now nextId id : ℕ} {rows rows' wire wire' : List QueueRow} {decided decided' landed landed' : QueueRow → Prop}

/-- Two rows of the store with one id are one row. -/
theorem QueueOk.eq_of_id (h : QueueOk nextId rows wire decided landed) {x y : QueueRow} (hx : x ∈ rows) (hy : y ∈ rows)
    (hid : x.id = y.id) : x = y :=
  List.inj_on_of_nodup_map h.nodup hx hy hid

theorem QueueOk.congr (h : QueueOk nextId rows wire decided landed) (hd : ∀ b, decided' b ↔ decided b)
    (hl : ∀ b, landed' b ↔ landed b) : QueueOk nextId rows wire decided' landed' := by
  obtain rfl : decided' = decided := funext fun b => propext (hd b)
  obtain rfl : landed' = landed := funext fun b => propext (hl b)
  exact h

/-- A row `x` of the store may be written over by `y`: what is decided about it still blocks, and it comes on the
    wire only when no other of its kind is there and no newer one is decided. -/
structure Writes (now : ℕ) (rows : List QueueRow) (decided landed : QueueRow → Prop) (x y : QueueRow) : Prop where
  evolves : Evolves now x y
  blocks : ∀ b, decided b → b.id = x.id → y.blocking ∧ y.lastAttemptedAt.isSome
  clear : y.status = .syncing → y ≠ x → ¬ x.behind decided ∧
    ∀ o ∈ rows, o.id ≠ x.id → o.status = .syncing → o.kind = x.kind → x.kind = none
  landed : ∀ b, landed b → b.id = x.id → y.status = .synced
  flagged : y.flagged decided

theorem QueueOk.writes_refl (h : QueueOk nextId rows wire decided landed) {x : QueueRow} (hx : x ∈ rows) :
    Writes now rows decided landed x x where
  evolves := .refl now x
  blocks := fun b hb hid => (h.decidedHere b hb x hx hid.symm).2
  clear := fun _ hne => absurd rfl hne
  landed := fun b hb hid => (h.landedHere b hb).2 x hx hid.symm
  flagged := h.flagged x hx

/-- A step on the rows: each row that remains was written over one before, and a decided row that is gone leaves only
    finished older ones. -/
theorem QueueOk.evolve (h : QueueOk nextId rows wire decided landed) (hnodup : (rows'.map (·.id)).Nodup)
    (hfrom : ∀ y ∈ rows', ∃ x ∈ rows, Writes now rows decided landed x y)
    (honly : ∀ y ∈ rows', ∀ z ∈ rows', y ∉ rows → z ∉ rows → y.id = z.id)
    (hgone : ∀ b, decided b → ∀ x ∈ rows, x.id = b.id → (∃ y ∈ rows', y.id = b.id) ∨
      ∀ a ∈ rows, a.id < b.id → a.kind = b.kind → a.kind ≠ none → a.finished)
    (hwired : ∀ w ∈ wire', w ∈ rows' ∧ w.status = .syncing) (hwire : (wire'.map (·.id)).Nodup) :
    QueueOk nextId rows' wire' decided landed where
  nodup := hnodup
  lt := by
    intro y hy
    obtain ⟨x, hx, hev, -⟩ := hfrom y hy
    rw [hev.id]
    exact h.lt x hx
  mutex := by
    intro y hy z hz hys hzs hkind hnone
    obtain ⟨x, hx, hev, -, hclear, -⟩ := hfrom y hy
    obtain ⟨x', hx', hev', -, hclear', -⟩ := hfrom z hz
    by_cases hyx : y = x
    · subst hyx
      by_cases hzx : z = x'
      · subst hzx
        exact h.mutex y hx z hx' hys hzs hkind hnone
      · by_contra hne
        rw [hev'.id] at hne
        have := (hclear' hzs hzx).2 y hx hne hys (hkind.trans hev'.kind)
        exact hnone (hkind.trans (hev'.kind.trans this))
    · by_cases hzx : z = x'
      · subst hzx
        by_contra hne
        rw [hev.id] at hne
        have := (hclear hys hyx).2 z hx' (fun he => hne he.symm) hzs (hkind.symm.trans hev.kind)
        exact hnone (hev.kind.trans this)
      · refine honly y hy z hz ?_ ?_
        · intro hmem
          exact hyx (h.eq_of_id hmem hx hev.id)
        · intro hmem
          exact hzx (h.eq_of_id hmem hx' hev'.id)
  wired := hwired
  wireOnce := hwire
  attempted := by
    intro y hy hsync
    obtain ⟨x, hx, hev, -⟩ := hfrom y hy
    rcases hev.sent hsync with rfl | ⟨-, hlast⟩
    · exact h.attempted y hx hsync
    · rw [hlast]
      rfl
  decidedLt := h.decidedLt
  decidedHere := by
    intro b hb y hy hid
    obtain ⟨x, hx, hev, hblock, -⟩ := hfrom y hy
    have hxb : x.id = b.id := hev.id.symm.trans hid
    exact ⟨hev.kind.trans (h.decidedHere b hb x hx hxb).1, hblock b hb hxb.symm⟩
  quiet := by
    rintro y hy ⟨b, hb, hlt, hkind, hnone⟩ hsync
    obtain ⟨x, hx, hev, -, hclear, -⟩ := hfrom y hy
    have hbehind : x.behind decided := ⟨b, hb, hev.id ▸ hlt, hev.kind.symm.trans hkind, hev.kind ▸ hnone⟩
    by_cases hyx : y = x
    · exact h.quiet x hx hbehind (hyx ▸ hsync)
    · exact (hclear hsync hyx).1 hbehind
  kept := by
    intro b hb y hy hlt hkind hnone
    obtain ⟨x, hx, hev, -⟩ := hfrom y hy
    have hlt' : x.id < b.id := hev.id ▸ hlt
    have hkind' : x.kind = b.kind := hev.kind.symm.trans hkind
    have hnone' : x.kind ≠ none := hev.kind ▸ hnone
    rcases h.kept b hb x hx hlt' hkind' hnone' with ⟨r, hr, hrb⟩ | hdone
    · rcases hgone b hb r hr hrb with hpresent | hall
      · exact Or.inl hpresent
      · exact Or.inr (hev.finished (hall x hx hlt' hkind' hnone'))
    · exact Or.inr (hev.finished hdone)
  landedHere := by
    intro b hb
    refine ⟨(h.landedHere b hb).1, ?_⟩
    intro y hy hid
    obtain ⟨x, hx, hev, -, -, hland, -⟩ := hfrom y hy
    exact hland b hb (hid.symm.trans hev.id)
  flagged := by
    intro y hy
    obtain ⟨x, hx, hw⟩ := hfrom y hy
    exact hw.flagged

/-! ### One row written -/

theorem mem_patch {f : QueueRow → QueueRow} {y : QueueRow} :
    y ∈ patch rows id f ↔ ∃ x ∈ rows, (if x.id = id then f x else x) = y := by
  simp [patch]

theorem patch_ids {f : QueueRow → QueueRow} (hf : ∀ x ∈ rows, x.id = id → (f x).id = x.id) :
    (patch rows id f).map (·.id) = rows.map (·.id) := by
  unfold patch
  rw [List.map_map]
  refine List.map_congr_left ?_
  intro x hx
  simp only [Function.comp]
  split
  · rename_i hid
    exact hf x hx hid
  · rfl

/-- A row that is not the written one stays. -/
theorem mem_patch_of_ne {f : QueueRow → QueueRow} {x : QueueRow} (hx : x ∈ rows) (hne : x.id ≠ id) :
    x ∈ patch rows id f :=
  mem_patch.mpr ⟨x, hx, if_neg hne⟩

/-- Every row afterwards comes from one before, written or as it was. -/
theorem patch_from {P : QueueRow → QueueRow → Prop} {f : QueueRow → QueueRow}
    (hf : ∀ x ∈ rows, x.id = id → P x (f x)) (hrest : ∀ x ∈ rows, P x x) : ∀ y ∈ patch rows id f, ∃ x ∈ rows, P x y := by
  intro y hy
  obtain ⟨x, hx, rfl⟩ := mem_patch.mp hy
  refine ⟨x, hx, ?_⟩
  split
  · rename_i hid
    exact hf x hx hid
  · exact hrest x hx

theorem QueueOk.patch (h : QueueOk nextId rows wire decided landed) {f : QueueRow → QueueRow}
    (hf : ∀ x ∈ rows, x.id = id → Writes now rows decided landed x (f x))
    (hwired : ∀ w ∈ wire', w ∈ Gdx.patch rows id f ∧ w.status = .syncing) (hwire : (wire'.map (·.id)).Nodup) :
    QueueOk nextId (Gdx.patch rows id f) wire' decided landed := by
  have hids : (Gdx.patch rows id f).map (·.id) = rows.map (·.id) :=
    patch_ids fun x hx hid => (hf x hx hid).evolves.id
  have hfrom : ∀ y ∈ Gdx.patch rows id f, ∃ x ∈ rows, Writes now rows decided landed x y :=
    patch_from hf fun x hx => h.writes_refl hx
  refine h.evolve (by rw [hids]; exact h.nodup) hfrom ?_ ?_ hwired hwire
  · intro y hy z hz hny hnz
    obtain ⟨x, hx, rfl⟩ := mem_patch.mp hy
    obtain ⟨x', hx', rfl⟩ := mem_patch.mp hz
    split at hny
    · rename_i hid
      split at hnz
      · rename_i hid'
        rw [if_pos hid, if_pos hid', (hf x hx hid).evolves.id, (hf x' hx' hid').evolves.id, hid, hid']
      · exact absurd hx' hnz
    · exact absurd hx hny
  · intro b hb x hx hid
    have hmem : b.id ∈ (Gdx.patch rows id f).map (·.id) := by
      rw [hids]
      exact List.mem_map.mpr ⟨x, hx, hid⟩
    obtain ⟨y, hy, hyid⟩ := List.mem_map.mp hmem
    exact Or.inl ⟨y, hy, hyid⟩

theorem patch_evolves {f : QueueRow → QueueRow} (hf : ∀ x ∈ rows, x.id = id → Evolves now x (f x)) :
    ∀ y ∈ patch rows id f, ∃ x ∈ rows, Evolves now x y := patch_from hf fun x _ => .refl now x

/-- A write that puts a row on the wire. -/
theorem QueueOk.patch_take (h : QueueOk nextId rows wire decided landed) {x : QueueRow} (hx : x ∈ rows)
    (hoff : ∀ w ∈ wire, w.id ≠ x.id)
    (hf : ∀ r ∈ rows, r.id = x.id →
      Writes now rows decided landed r { r with status := .syncing, lastAttemptedAt := some now }) :
    QueueOk nextId (Gdx.patch rows x.id fun r => { r with status := .syncing, lastAttemptedAt := some now })
      (wire ++ [{ x with status := .syncing, lastAttemptedAt := some now }]) decided landed := by
  refine h.patch hf ?_ ?_
  · intro w hw
    rcases List.mem_append.mp hw with hw | hw
    · exact ⟨mem_patch_of_ne (h.wired w hw).1 (hoff w hw), (h.wired w hw).2⟩
    · rw [List.mem_singleton] at hw
      subst hw
      exact ⟨mem_patch.mpr ⟨x, hx, if_pos rfl⟩, rfl⟩
  · rw [List.map_append, List.nodup_append]
    refine ⟨h.wireOnce, by simp, ?_⟩
    rintro a ha b hb rfl
    obtain ⟨w, hw, rfl⟩ := List.mem_map.mp ha
    simp only [List.map_cons, List.map_nil, List.mem_singleton] at hb
    exact hoff w hw hb

/-- A write on a row that is not on the wire. -/
theorem QueueOk.patch_off_wire (h : QueueOk nextId rows wire decided landed) {f : QueueRow → QueueRow}
    (hf : ∀ x ∈ rows, x.id = id → Writes now rows decided landed x (f x)) (hoff : ∀ w ∈ wire, w.id ≠ id) :
    QueueOk nextId (Gdx.patch rows id f) wire decided landed := by
  refine h.patch hf ?_ h.wireOnce
  intro w hw
  exact ⟨mem_patch_of_ne (h.wired w hw).1 (hoff w hw), (h.wired w hw).2⟩

/-- A row that is not syncing is not on the wire. -/
theorem QueueOk.off_wire (h : QueueOk nextId rows wire decided landed) {x : QueueRow} (hx : x ∈ rows)
    (hs : x.status ≠ .syncing) : ∀ w ∈ wire, w.id ≠ x.id := by
  intro w hw hid
  obtain rfl := h.eq_of_id (h.wired w hw).1 hx hid
  exact hs (h.wired w hw).2

end Store

/-! ### The writes of the queue -/

section Writing
variable {now nextId : ℕ} {rows wire : List QueueRow} {decided landed : QueueRow → Prop} {x : QueueRow}

/-- A row with a landed copy is not open. -/
theorem QueueOk.not_landed (h : QueueOk nextId rows wire decided landed) (hx : x ∈ rows) (hs : x.status ≠ .synced)
    {b : QueueRow} (hb : landed b) : b.id ≠ x.id :=
  fun hid => hs ((h.landedHere b hb).2 x hx hid.symm)

/-- A row on the wire was not retired. -/
theorem QueueOk.not_superseded (h : QueueOk nextId rows wire decided landed) (hx : x ∈ rows)
    (hs : x.status = .syncing) : x.superseded = false := by
  by_contra hsup
  rcases h.flagged x hx (by simpa using hsup) with ⟨hf, -⟩ | ⟨hp, -⟩
  · rw [hs] at hf
    cases hf
  · rw [hs] at hp
    cases hp

theorem QueueOk.writes_markUncertain (h : QueueOk nextId rows wire decided landed) (hx : x ∈ rows)
    (hs : x.status = .syncing ∨ (x.status = .pending ∧ x.firstMaybeRanAt ≠ none)) :
    Writes now rows decided landed x x.markUncertain where
  evolves := {
    id := rfl
    kind := rfl
    finished := by rintro (hd | ⟨hd, -⟩) <;> rcases hs with hs | ⟨hs, -⟩ <;> rw [hs] at hd <;> cases hd
    last := Or.inl rfl
    sent := by intro hsync; cases hsync
    idle := fun _ => Or.inl (Or.inl rfl) }
  blocks := fun b hb hid => ⟨Or.inr (Or.inr ⟨rfl, rfl⟩), (h.decidedHere b hb x hx hid.symm).2.2⟩
  clear := by intro hsync; cases hsync
  landed := by
    intro b hb hid
    refine absurd hid (h.not_landed hx ?_ hb)
    rcases hs with hs | ⟨hs, -⟩ <;> rw [hs] <;> decide
  flagged := by
    intro hsup
    have hsup : x.superseded = true := hsup
    rcases hs with hs | ⟨hs, hmaybe⟩
    · rw [h.not_superseded hx hs] at hsup
      cases hsup
    · rcases h.flagged x hx hsup with ⟨hf, -⟩ | ⟨-, hnone, -⟩
      · rw [hs] at hf
        cases hf
      · exact absurd hnone hmaybe

/-- The claim retires a row in line. -/
theorem QueueOk.writes_supersede (h : QueueOk nextId rows wire decided landed) (hx : x ∈ rows)
    (hs : x.status = .pending) : Writes now rows decided landed x { x.retire with status := .failed } where
  evolves := {
    id := rfl
    kind := rfl
    finished := fun _ => Or.inr ⟨rfl, rfl, rfl⟩
    last := Or.inl rfl
    sent := by intro hsync; cases hsync
    idle := fun _ => Or.inl (Or.inl rfl) }
  blocks := fun b hb hid => ⟨Or.inr (Or.inl rfl), (h.decidedHere b hb x hx hid.symm).2.2⟩
  clear := by intro hsync; cases hsync
  landed := fun b hb hid => absurd hid (h.not_landed hx (by rw [hs]; decide) hb)
  flagged := fun _ => Or.inl ⟨rfl, rfl⟩

/-- The claim puts a row on the wire. -/
theorem QueueOk.writes_take (h : QueueOk nextId rows wire decided landed) (hx : x ∈ rows)
    (hs : x.status = .pending) (hbehind : ¬ x.behind decided)
    (hclear : ∀ o ∈ rows, o.id ≠ x.id → o.status = .syncing → o.kind = x.kind → x.kind = none) :
    Writes now rows decided landed x { x with status := .syncing, lastAttemptedAt := some now } where
  evolves := {
    id := rfl
    kind := rfl
    finished := by rintro (hd | ⟨hd, -⟩) <;> rw [hs] at hd <;> cases hd
    last := Or.inr rfl
    sent := fun _ => Or.inr ⟨hs, rfl⟩
    idle := fun _ => Or.inr rfl }
  blocks := fun _ _ _ => ⟨Or.inl (by simp), rfl⟩
  clear := fun _ _ => ⟨hbehind, hclear⟩
  landed := fun b hb hid => absurd hid (h.not_landed hx (by rw [hs]; decide) hb)
  flagged := by
    intro hsup
    rcases h.flagged x hx hsup with ⟨hf, -⟩ | ⟨-, -, hb⟩
    · rw [hs] at hf
      cases hf
    · exact absurd hb hbehind

/-- The row of a transmission is filed. -/
theorem QueueOk.writes_settle (h : QueueOk nextId rows wire decided landed) (hx : x ∈ rows)
    (hs : x.status = .syncing) (f : Flight) (verdict : SendVerdict)
    (href : verdict = .refused → ∀ b, decided b → b.id ≠ x.id) :
    Writes now rows decided landed x (f.settle verdict x) where
  evolves := {
    id := by cases verdict <;> rfl
    kind := by cases verdict <;> rfl
    finished := by rintro (hd | ⟨hd, -⟩) <;> rw [hs] at hd <;> cases hd
    last := by cases verdict <;> exact Or.inl rfl
    sent := by cases verdict <;> intro hsync <;> cases hsync
    idle := by rintro (hd | ⟨hd, -⟩) <;> rw [hs] at hd <;> cases hd }
  blocks := by
    intro b hb hid
    have hlast := (h.decidedHere b hb x hx hid.symm).2.2
    cases verdict with
    | synced => exact ⟨Or.inl (by simp [Flight.settle]), hlast⟩
    | unauthorized => exact ⟨Or.inl (by simp [Flight.settle]), hlast⟩
    | refused => exact absurd hid (href rfl b hb)
    | unclear => exact ⟨Or.inl (by simp [Flight.settle]), hlast⟩
  clear := by cases verdict <;> intro hsync <;> cases hsync
  landed := fun b hb hid => absurd hid (h.not_landed hx (by rw [hs]; decide) hb)
  flagged := by
    intro hsup
    have hno := h.not_superseded hx hs
    have hkeep : (f.settle verdict x).superseded = x.superseded := by cases verdict <;> rfl
    rw [hkeep, hno] at hsup
    cases hsup

/-- A row a dead page left is put back in line. -/
theorem QueueOk.writes_recover (h : QueueOk nextId rows wire decided landed) (hx : x ∈ rows)
    (hs : x.status = .syncing) (read : QueueRow) : Writes now rows decided landed x (recover now read x) := by
  unfold recover
  dsimp only
  split
  · exact {
      evolves := {
        id := rfl
        kind := rfl
        finished := by rintro (hd | ⟨hd, -⟩) <;> rw [hs] at hd <;> cases hd
        last := Or.inl rfl
        sent := by intro hsync; cases hsync
        idle := by rintro (hd | ⟨hd, -⟩) <;> rw [hs] at hd <;> cases hd }
      blocks := fun b hb hid => ⟨Or.inl (by simp), (h.decidedHere b hb x hx hid.symm).2.2⟩
      clear := by intro hsync; cases hsync
      landed := fun b hb hid => absurd hid (h.not_landed hx (by rw [hs]; decide) hb)
      flagged := by
        intro hsup
        have hsup : x.superseded = true := hsup
        rw [h.not_superseded hx hs] at hsup
        cases hsup }
  · exact h.writes_markUncertain hx (Or.inl hs)

/-- A refused row, or one put back in line behind a decided one, is retired. -/
theorem QueueOk.writes_retire (h : QueueOk nextId rows wire decided landed) (hx : x ∈ rows)
    (hs : x.status = .failed ∨ (x.idle ∧ x.behind decided)) : Writes now rows decided landed x x.retire := by
  have hidle : x.idle := by
    rcases hs with hs | ⟨hs, -⟩
    · exact Or.inl hs
    · exact hs
  have hopen : x.status ≠ .synced ∧ x.status ≠ .syncing := by
    rcases hidle with hf | ⟨hp, -⟩
    · rw [hf]; decide
    · rw [hp]; decide
  exact {
    evolves := {
      id := rfl
      kind := rfl
      finished := by
        rintro (hd | ⟨hd, -⟩)
        · exact absurd hd hopen.1
        · exact Or.inr ⟨hd, rfl, rfl⟩
      last := Or.inl rfl
      sent := fun hsync => absurd hsync hopen.2
      idle := fun hx => Or.inl hx }
    blocks := fun b hb hid => ⟨Or.inr (Or.inl rfl), (h.decidedHere b hb x hx hid.symm).2.2⟩
    clear := fun hsync => absurd hsync hopen.2
    landed := fun b hb hid => absurd hid (h.not_landed hx hopen.1 hb)
    flagged := by
      intro _
      rcases hs with hf | ⟨hf | ⟨hp, hnone⟩, hb⟩
      · exact Or.inl ⟨hf, rfl⟩
      · exact Or.inl ⟨hf, rfl⟩
      · exact Or.inr ⟨hp, hnone, hb⟩ }

/-- The tech puts a refused row back in line. -/
theorem QueueOk.writes_requeue (h : QueueOk nextId rows wire decided landed) (hx : x ∈ rows)
    (hs : x.status = .failed) (hack : x.acknowledged = false) : Writes now rows decided landed x x.requeue where
  evolves := {
    id := rfl
    kind := rfl
    finished := by
      rintro (hd | ⟨-, hd, -⟩)
      · rw [hs] at hd
        cases hd
      · rw [hack] at hd
        cases hd
    last := Or.inl rfl
    sent := by intro hsync; cases hsync
    idle := fun _ => Or.inl (Or.inr ⟨rfl, rfl⟩) }
  blocks := fun b hb hid => ⟨Or.inl (by simp [QueueRow.requeue]), (h.decidedHere b hb x hx hid.symm).2.2⟩
  clear := by intro hsync; cases hsync
  landed := fun b hb hid => absurd hid (h.not_landed hx (by rw [hs]; decide) hb)
  flagged := by
    intro hsup
    rcases h.flagged x hx hsup with ⟨-, ha⟩ | ⟨hp, -⟩
    · rw [hack] at ha
      cases ha
    · rw [hs] at hp
      cases hp

end Writing

/-! ### The claim -/

/-- What `claim` can do. -/
inductive ClaimOutcome (now : ℕ) (rows : List QueueRow) (id : ℕ) : List QueueRow → ClaimResult → Prop where
  | untouched (result : ClaimResult) (hnot : ∀ row, result ≠ .claimed row ∧ result ≠ .superseded row) :
    ClaimOutcome now rows id rows result
  | uncertain (row : QueueRow) (hrow : row ∈ rows) (hid : row.id = id) (hpending : row.status = .pending)
    (since : ℕ) (hmaybe : row.firstMaybeRanAt = some since) :
    ClaimOutcome now rows id (patch rows id .markUncertain) .uncertain
  | superseded (row : QueueRow) (hrow : row ∈ rows) (hid : row.id = id) (hpending : row.status = .pending)
    (hlanded : newerLanded row rows = true) :
    ClaimOutcome now rows id (patch rows id fun r => { r.retire with status := .failed }) (.superseded row)
  | claimed (row : QueueRow) (hrow : row ∈ rows) (hid : row.id = id) (hpending : row.status = .pending)
    (hsafe : row.firstMaybeRanAt.any (pastReplayWindow now) = false) (hlanded : newerLanded row rows = false)
    (hwire : onTheWire row rows = false) (hundecided : newerUndecided row rows = false) :
    ClaimOutcome now rows id (patch rows id fun r => { r with status := .syncing, lastAttemptedAt := some now })
      (.claimed { row with status := .syncing, lastAttemptedAt := some now })

theorem claim_spec (now : ℕ) (rows : List QueueRow) (id : ℕ) :
    ClaimOutcome now rows id (claim now rows id).1 (claim now rows id).2 := by
  unfold claim
  split
  · exact .untouched _ (by simp)
  · rename_i row hfind
    have hrow : row ∈ rows := List.mem_of_find?_eq_some hfind
    have hid : row.id = id := by simpa using List.find?_some hfind
    by_cases hpending : row.status = .pending
    · rw [if_neg (by simpa using hpending)]
      by_cases hsafe : row.firstMaybeRanAt.any (pastReplayWindow now) = true
      · rw [if_pos hsafe]
        cases hmaybe : row.firstMaybeRanAt with
        | none => rw [hmaybe] at hsafe; cases hsafe
        | some since => exact .uncertain row hrow hid hpending since hmaybe
      · rw [if_neg hsafe]
        by_cases hlanded : newerLanded row rows = true
        · rw [if_pos hlanded]
          exact .superseded row hrow hid hpending hlanded
        · rw [if_neg hlanded]
          by_cases hwire : onTheWire row rows = true
          · rw [if_pos hwire]
            exact .untouched _ (by simp)
          · rw [if_neg hwire]
            by_cases hundecided : newerUndecided row rows = true
            · rw [if_pos hundecided]
              exact .untouched _ (by simp)
            · rw [if_neg hundecided]
              exact .claimed row hrow hid hpending (by simpa using hsafe) (by simpa using hlanded)
                (by simpa using hwire) (by simpa using hundecided)
    · rw [if_pos hpending]
      exact .untouched _ (by simp)

section Claiming
variable {now nextId : ℕ} {rows wire : List QueueRow} {decided landed : QueueRow → Prop} {x : QueueRow}

theorem sameKind_iff {r o : QueueRow} : r.sameKind o = true ↔ r.kind = o.kind ∧ r.kind ≠ none := by
  simp [QueueRow.sameKind]

/-- A newer row that blocks stops the claim. -/
theorem claim_stopped {o : QueueRow} (ho : o ∈ rows) (hlt : x.id < o.id) (hkind : x.kind = o.kind) (hnone : x.kind ≠ none)
    (hblock : o.blocking) :
    newerLanded x rows = true ∨ onTheWire x rows = true ∨ newerUndecided x rows = true := by
  have hsame : x.sameKind o = true := sameKind_iff.mpr ⟨hkind, hnone⟩
  cases hs : o.status with
  | pending =>
    refine Or.inr (Or.inr (List.any_eq_true.mpr ⟨o, ho, ?_⟩))
    simp [hlt, hs, hsame]
  | syncing =>
    refine Or.inr (Or.inl (List.any_eq_true.mpr ⟨o, ho, ?_⟩))
    simp [hs, hsame, Nat.ne_of_gt hlt]
  | synced =>
    refine Or.inl (List.any_eq_true.mpr ⟨o, ho, ?_⟩)
    simp [hlt, hs, hsame]
  | failed =>
    rcases hblock with hf | hsup | ⟨hun, hack⟩
    · exact absurd hs hf
    · refine Or.inl (List.any_eq_true.mpr ⟨o, ho, ?_⟩)
      simp [hlt, hsup, hsame]
    · refine Or.inr (Or.inr (List.any_eq_true.mpr ⟨o, ho, ?_⟩))
      simp [hlt, hs, hun, hack, hsame]

/-- A row the claim took has no decided newer one. -/
theorem QueueOk.not_behind (h : QueueOk nextId rows wire decided landed) (hx : x ∈ rows) (hs : x.status = .pending)
    (hlanded : newerLanded x rows = false) (hwire : onTheWire x rows = false)
    (hundecided : newerUndecided x rows = false) : ¬ x.behind decided := by
  rintro ⟨b, hb, hlt, hkind, hnone⟩
  rcases h.kept b hb x hx hlt hkind hnone with ⟨o, ho, hob⟩ | hdone
  · have hhere := h.decidedHere b hb o ho hob
    have hstop := claim_stopped ho (hob ▸ hlt) (hkind.trans hhere.1.symm) hnone hhere.2.1
    simp [hlanded, hwire, hundecided] at hstop
  · rcases hdone with hd | ⟨hd, -⟩ <;> rw [hs] at hd <;> cases hd

theorem alone_of_onTheWire (hwire : onTheWire x rows = false) :
    ∀ o ∈ rows, o.id ≠ x.id → o.status = .syncing → o.kind = x.kind → x.kind = none := by
  intro o ho hne hs hkind
  by_contra hnone
  have hsame : x.sameKind o = true := sameKind_iff.mpr ⟨hkind.symm, hnone⟩
  have hyes : onTheWire x rows = true := List.any_eq_true.mpr ⟨o, ho, by simp [hne, hs, hsame]⟩
  rw [hwire] at hyes
  cases hyes

end Claiming

/-! ### The tasks of a page -/

/-- The rows the drain is still to put back in line. -/
def Page.stuck (p : Page) : List QueueRow :=
  match p.drain with
  | some (.recovering stuck) => stuck
  | _ => []

/-- What the tasks of a page have read still holds. -/
structure PageOk (now : ℕ) (rows : List QueueRow) (decided landed : QueueRow → Prop) (p : Page) : Prop where
  started : p.startedAt ≤ now
  recent : ∀ f ∈ p.flights, ∃ since, f.row.lastAttemptedAt = some since ∧ p.startedAt ≤ since
  stuckOnce : (p.stuck.map (·.id)).Nodup
  stuck : ∀ r ∈ p.stuck, r ∈ rows ∧ r.status = .syncing ∧ r.lastAttemptedAt.all (· < p.startedAt)
  retiring : ∀ task ∈ p.retiring, landed task.entry ∧ ∀ x ∈ task.older.getD [], x.id < task.entry.id ∧
    ∀ r ∈ rows, r.id = x.id → r.kind = task.entry.kind ∧ r.kind ≠ none ∧ r.idle
  purging : ∀ task ∈ p.purges, task.cutoff ≤ now ∧ ∀ a ∈ rows, ∀ b ∈ rows, a.id < b.id → a.kind = b.kind →
    a.kind ≠ none → (b.status = .syncing ∨ ∃ d, decided d ∧ d.id = b.id) →
    b.lastAttemptedAt.any (· < task.cutoff) = true →
    (∃ u ∈ task.all, u.id = a.id ∧ u.kind = a.kind ∧ u.unsent = true) ∨ a.finished

/-- A page that holds no task another does not. -/
structure Page.Within (p p' : Page) : Prop where
  started : p'.startedAt = p.startedAt
  flights : ∀ f ∈ p'.flights, f ∈ p.flights
  stuck : p'.stuck.Sublist p.stuck
  retiring : ∀ task ∈ p'.retiring, ∃ old ∈ p.retiring, task.entry = old.entry ∧
    ∀ x ∈ task.older.getD [], x ∈ old.older.getD []
  purges : ∀ task ∈ p'.purges, ∃ old ∈ p.purges, task.cutoff = old.cutoff ∧ task.all = old.all

theorem Page.Within.refl (p : Page) : p.Within p where
  started := rfl
  flights := fun _ h => h
  stuck := List.Sublist.refl _
  retiring := fun task h => ⟨task, h, rfl, fun _ h => h⟩
  purges := fun task h => ⟨task, h, rfl, rfl⟩

theorem Page.Within.trans {p q r : Page} (h : p.Within q) (h' : q.Within r) : p.Within r where
  started := h'.started.trans h.started
  flights := fun f hf => h.flights f (h'.flights f hf)
  stuck := h'.stuck.trans h.stuck
  retiring := by
    intro task htask
    obtain ⟨mid, hmid, hentry, holder⟩ := h'.retiring task htask
    obtain ⟨old, hold, hentry', holder'⟩ := h.retiring mid hmid
    exact ⟨old, hold, hentry.trans hentry', fun x hx => holder' x (holder x hx)⟩
  purges := by
    intro task htask
    obtain ⟨mid, hmid, hcut, hall⟩ := h'.purges task htask
    obtain ⟨old, hold, hcut', hall'⟩ := h.purges mid hmid
    exact ⟨old, hold, hcut.trans hcut', hall.trans hall'⟩

/-- A page whose tasks differ only in the drain. -/
theorem Page.Within.of_drain {p p' : Page} (hs : p'.startedAt = p.startedAt) (hf : p'.flights = p.flights)
    (hr : p'.retiring = p.retiring) (hu : p'.purges = p.purges) (hk : p'.stuck.Sublist p.stuck) : p.Within p' where
  started := hs
  flights := fun _ hm => hf ▸ hm
  stuck := hk
  retiring := fun task hm => ⟨task, hr ▸ hm, rfl, fun _ h => h⟩
  purges := fun task hm => ⟨task, hu ▸ hm, rfl, rfl⟩

section Pages
variable {now now' nextId : ℕ} {rows rows' wire wire' : List QueueRow} {decided decided' landed landed' : QueueRow → Prop}
  {p p' : Page}

/-- The tasks survive a step on the rows that leaves the rows still to put back as they are. -/
theorem PageOk.evolve (h : PageOk now rows decided landed p) (hq : QueueOk nextId rows' wire' decided landed)
    (hw : p.Within p') (hfrom : ∀ y ∈ rows', ∃ x ∈ rows, Evolves now x y) (hstuck : ∀ r ∈ p'.stuck, r ∈ rows') :
    PageOk now rows' decided landed p' where
  started := hw.started ▸ h.started
  recent := fun f hf => hw.started ▸ h.recent f (hw.flights f hf)
  stuckOnce := h.stuckOnce.sublist (hw.stuck.map _)
  stuck := fun r hr => ⟨hstuck r hr, hw.started ▸ (h.stuck r (hw.stuck.subset hr)).2⟩
  retiring := by
    intro task htask
    obtain ⟨old, hold, hentry, holder⟩ := hw.retiring task htask
    obtain ⟨hland, hx⟩ := h.retiring old hold
    rw [hentry]
    refine ⟨hland, ?_⟩
    intro x hxmem
    obtain ⟨hlt, hrows⟩ := hx x (holder x hxmem)
    refine ⟨hlt, ?_⟩
    intro y hy hid
    obtain ⟨r, hr, hev⟩ := hfrom y hy
    obtain ⟨hkind, hnone, hidle⟩ := hrows r hr (hev.id.symm.trans hid)
    rw [← hev.kind] at hkind hnone
    refine ⟨hkind, hnone, ?_⟩
    rcases hev.idle hidle with hyes | hsync
    · exact hyes
    · exact absurd hsync (hq.quiet y hy ⟨old.entry, (hq.landedHere _ hland).1, hid ▸ hlt, hkind, hnone⟩)
  purging := by
    intro task htask
    obtain ⟨old, hold, hcut, hall⟩ := hw.purges task htask
    obtain ⟨hnow, hpairs⟩ := h.purging old hold
    rw [hcut, hall]
    refine ⟨hnow, ?_⟩
    intro a ha b hb hlt hkind hnone hdec hpast
    obtain ⟨xa, hxa, heva⟩ := hfrom a ha
    obtain ⟨xb, hxb, hevb⟩ := hfrom b hb
    have hnew : b.lastAttemptedAt ≠ some now := by
      intro he
      rw [he] at hpast
      simp only [Option.any_some, decide_eq_true_eq] at hpast
      omega
    have hlast : b.lastAttemptedAt = xb.lastAttemptedAt := hevb.last.resolve_right hnew
    have hdec' : xb.status = .syncing ∨ ∃ d, decided d ∧ d.id = xb.id := by
      rcases hdec with hsync | ⟨d, hd, hid⟩
      · rcases hevb.sent hsync with rfl | ⟨-, he⟩
        · exact Or.inl hsync
        · exact absurd he hnew
      · exact Or.inr ⟨d, hd, hid.trans hevb.id⟩
    rcases hpairs xa hxa xb hxb (heva.id ▸ hevb.id ▸ hlt) (heva.kind.symm.trans (hkind.trans hevb.kind))
        (heva.kind ▸ hnone) hdec' (hlast ▸ hpast) with ⟨u, hu, huid, hukind, hunsent⟩ | hdone
    · exact Or.inl ⟨u, hu, huid.trans heva.id.symm, hukind.trans heva.kind.symm, hunsent⟩
    · exact Or.inr (heva.finished hdone)

/-- A page with fewer tasks, over the same store. -/
theorem PageOk.within (h : PageOk now rows decided landed p) (hq : QueueOk nextId rows wire decided landed)
    (hw : p.Within p') : PageOk now rows decided landed p' :=
  h.evolve hq hw (fun y hy => ⟨y, hy, .refl now y⟩) fun r hr => (h.stuck r (hw.stuck.subset hr)).1

/-- A row just claimed is in flight. -/
theorem PageOk.fly (h : PageOk now rows decided landed p) {row : QueueRow} (hrow : row.lastAttemptedAt = some now)
    (caller : Bool) : PageOk now rows decided landed { p with flights := p.flights ++ [⟨row, caller⟩] } where
  started := h.started
  recent := by
    intro f hf
    rcases List.mem_append.mp hf with hf | hf
    · exact h.recent f hf
    · rw [List.mem_singleton] at hf
      subst hf
      exact ⟨now, hrow, h.started⟩
  stuckOnce := h.stuckOnce
  stuck := h.stuck
  retiring := h.retiring
  purging := h.purging

/-- A landed row is about to retire older refusals. -/
theorem PageOk.note (h : PageOk now rows decided landed p) {entry : QueueRow} (he : landed entry) :
    PageOk now rows decided landed { p with retiring := p.retiring ++ [⟨entry, none⟩] } where
  started := h.started
  recent := h.recent
  stuckOnce := h.stuckOnce
  stuck := h.stuck
  retiring := by
    intro task htask
    rcases List.mem_append.mp htask with htask | htask
    · exact h.retiring task htask
    · rw [List.mem_singleton] at htask
      subst htask
      exact ⟨he, by simp⟩
  purging := h.purging

theorem PageOk.congr (h : PageOk now rows decided landed p) (hd : ∀ b, decided' b ↔ decided b)
    (hl : ∀ b, landed' b ↔ landed b) : PageOk now rows decided' landed' p := by
  obtain rfl : decided' = decided := funext fun b => propext (hd b)
  obtain rfl : landed' = landed := funext fun b => propext (hl b)
  exact h

/-- Time passes. -/
theorem PageOk.later (h : PageOk now rows decided landed p) (hle : now ≤ now') : PageOk now' rows decided landed p where
  started := le_trans h.started hle
  recent := h.recent
  stuckOnce := h.stuckOnce
  stuck := h.stuck
  retiring := h.retiring
  purging := fun task htask => ⟨le_trans (h.purging task htask).1 hle, (h.purging task htask).2⟩

end Pages

/-! ### The server decides -/

section Deciding
variable {now nextId : ℕ} {rows wire : List QueueRow} {decided landed landed' : QueueRow → Prop} {w : QueueRow} {p : Page}

theorem QueueRow.flagged.mono {r : QueueRow} {decided' : QueueRow → Prop} (h : r.flagged decided)
    (hsub : ∀ b, decided b → decided' b) : r.flagged decided' := by
  intro hsup
  rcases h hsup with hf | ⟨hp, hnone, b, hb, hrest⟩
  · exact Or.inl hf
  · exact Or.inr ⟨hp, hnone, b, hsub b hb, hrest⟩

/-- What is on the wire may be decided: no older row of its kind is there with it. -/
theorem QueueOk.decide (h : QueueOk nextId rows wire decided landed) (hw : w ∈ wire) :
    QueueOk nextId rows wire (fun b => decided b ∨ b = w) landed where
  nodup := h.nodup
  lt := h.lt
  mutex := h.mutex
  wired := h.wired
  wireOnce := h.wireOnce
  attempted := h.attempted
  decidedLt := by
    rintro b (hb | rfl)
    · exact h.decidedLt b hb
    · exact h.lt b (h.wired b hw).1
  decidedHere := by
    rintro b (hb | rfl) r hr hid
    · exact h.decidedHere b hb r hr hid
    · obtain ⟨hmem, hsync⟩ := h.wired b hw
      obtain rfl := h.eq_of_id hr hmem hid
      exact ⟨rfl, Or.inl (by rw [hsync]; decide), h.attempted r hr hsync⟩
  quiet := by
    rintro a ha ⟨b, hb | rfl, hlt, hkind, hnone⟩
    · exact h.quiet a ha ⟨b, hb, hlt, hkind, hnone⟩
    · intro hsync
      have hid := h.mutex a ha b (h.wired b hw).1 hsync (h.wired b hw).2 hkind hnone
      omega
  kept := by
    rintro b (hb | rfl) a ha hlt hkind hnone
    · exact h.kept b hb a ha hlt hkind hnone
    · exact Or.inl ⟨b, (h.wired b hw).1, rfl⟩
  landedHere := fun b hb => ⟨Or.inl (h.landedHere b hb).1, (h.landedHere b hb).2⟩
  flagged := fun r hr => (h.flagged r hr).mono fun _ hb => Or.inl hb

theorem PageOk.decide (h : PageOk now rows decided landed p) (hq : QueueOk nextId rows wire decided landed)
    (hw : w ∈ wire) : PageOk now rows (fun b => decided b ∨ b = w) landed p where
  started := h.started
  recent := h.recent
  stuckOnce := h.stuckOnce
  stuck := h.stuck
  retiring := h.retiring
  purging := by
    intro task htask
    refine ⟨(h.purging task htask).1, ?_⟩
    intro a ha b hb hlt hkind hnone hdec hpast
    refine (h.purging task htask).2 a ha b hb hlt hkind hnone ?_ hpast
    rcases hdec with hsync | ⟨d, hd | rfl, hid⟩
    · exact Or.inl hsync
    · exact Or.inr ⟨d, hd, hid⟩
    · obtain rfl := hq.eq_of_id (hq.wired d hw).1 hb hid
      exact Or.inl (hq.wired d hw).2

/-- A decided row is filed as landed. -/
theorem QueueOk.land (h : QueueOk nextId rows wire decided landed) (hw : decided w)
    (hs : ∀ r ∈ rows, r.id = w.id → r.status = .synced) :
    QueueOk nextId rows wire decided fun b => landed b ∨ b = w :=
  { h with
    landedHere := by
      rintro b (hb | rfl)
      · exact h.landedHere b hb
      · exact ⟨hw, hs⟩ }

theorem PageOk.land (h : PageOk now rows decided landed p) (hsub : ∀ b, landed b → landed' b) :
    PageOk now rows decided landed' p :=
  { h with retiring := fun task htask => ⟨hsub _ (h.retiring task htask).1, (h.retiring task htask).2⟩ }

end Deciding

/-! ### The phone -/

/-- What is on the wire, from this page or the one before. -/
def Phone.wire (s : Phone) : List QueueRow := (s.page.elim [] (·.flights) ++ s.orphans).map (·.row)

/-- The row took effect on the server or was answered as landed. -/
def Phone.decided (s : Phone) (b : QueueRow) : Prop := b ∈ s.landed ∨ ∃ time, Effect.own b time ∈ s.effects

/-- Own writes of one kind took effect in the order they were queued. -/
def InOrder (effects : List Effect) : Prop :=
  effects.Pairwise fun earlier later => ∀ b time a time', earlier = .own b time → later = .own a time' →
    b.sameKind a = true → b.id < a.id

structure Phone.Ok (s : Phone) : Prop where
  queue : QueueOk s.nextId s.rows s.wire s.decided (· ∈ s.landed)
  page : ∀ p, s.page = some p → PageOk s.now s.rows s.decided (· ∈ s.landed) p
  orphans : s.page.isSome → s.orphans = []
  inOrder : InOrder s.effects

/-- A write of `retryFailedActions` finds its row as it was read: still refused, and not acknowledged when it puts
    the row back in line. -/
def Phone.tidy (s : Phone) : QueueAction → Prop
  | .retryStep (.walking (r :: _) all) _ =>
    match retryMove r all with
    | .retire => ∀ x ∈ s.rows, x.id = r.id → x.status = .failed
    | .requeue => ∀ x ∈ s.rows, x.id = r.id → x.status = .failed ∧ x.acknowledged = false
    | _ => True
  | .retryStep (.asked r true _ _) _ => ∀ x ∈ s.rows, x.id = r.id → x.status = .failed
  | .retryStep (.asked r false _ _) _ => ∀ x ∈ s.rows, x.id = r.id → x.status = .failed ∧ x.acknowledged = false
  | _ => True

/-- Every step of the run is tidy. -/
def Phone.tidyRun (s : Phone) : List QueueAction → Prop
  | [] => True
  | action :: rest => s.tidy action ∧ ∀ s', s.step action = some s' → s'.tidyRun rest

instance (s : Phone) (action : QueueAction) : Decidable (s.tidy action) := by
  unfold Phone.tidy
  split
  · split <;> infer_instance
  all_goals infer_instance

instance Phone.decidableTidyRun : ∀ (s : Phone) (actions : List QueueAction), Decidable (s.tidyRun actions)
  | _, [] => .isTrue trivial
  | s, action :: rest =>
    match h : s.step action with
    | none => decidable_of_iff (s.tidy action) ⟨fun ht => ⟨ht, fun s' hs => by rw [h] at hs; cases hs⟩, And.left⟩
    | some mid =>
      have := Phone.decidableTidyRun mid rest
      decidable_of_iff (s.tidy action ∧ mid.tidyRun rest)
        ⟨fun hall => ⟨hall.1, fun s' hs => by rw [h] at hs; cases hs; exact hall.2⟩, fun hall => ⟨hall.1, hall.2 mid h⟩⟩

/-! ### One step -/

section Step
variable {s s' : Phone} {p p' : Page} {history : List QueueEvent} {thrown : List ℕ} {reports : List (Text × ℕ)}
  {retirements : List Retirement}

theorem Phone.wire_of_page (hp : s.page = some p) (ho : s.orphans = []) : s.wire = p.flights.map (·.row) := by
  simp [Phone.wire, hp, ho]

/-- A step that leaves the server, with the store and the page it leaves behind. -/
theorem Phone.Ok.moved (h : s.Ok) {rows : List QueueRow}
    (hq : QueueOk s.nextId rows (p'.flights.map (·.row)) s.decided (· ∈ s.landed))
    (hpage : PageOk s.now rows s.decided (· ∈ s.landed) p') (ho : s.orphans = []) :
    Phone.Ok { s with
      rows := rows, page := some p', history := history, thrown := thrown, reports := reports
      retirements := retirements } where
  queue := by
    show QueueOk s.nextId rows ((p'.flights ++ s.orphans).map (·.row)) s.decided (· ∈ s.landed)
    rw [ho, List.append_nil]
    exact hq
  page := by
    rintro q ⟨rfl⟩
    exact hpage
  orphans := fun _ => ho
  inOrder := h.inOrder

theorem Phone.Ok.no_orphans (h : s.Ok) (hp : s.page = some p) : s.orphans = [] := h.orphans (by simp [hp])

theorem Phone.Ok.queue_page (h : s.Ok) (hp : s.page = some p) :
    QueueOk s.nextId s.rows (p.flights.map (·.row)) s.decided (· ∈ s.landed) :=
  Phone.wire_of_page hp (h.no_orphans hp) ▸ h.queue

/-- A step that leaves the store and what is on the wire. -/
theorem Phone.Ok.paged (h : s.Ok) (hp : s.page = some p) (hw : p.Within p') (hf : p'.flights = p.flights) :
    Phone.Ok { s with
      page := some p', history := history, thrown := thrown, reports := reports, retirements := retirements } :=
  h.moved (hf ▸ h.queue_page hp) ((h.page p hp).within h.queue hw) (h.no_orphans hp)

/-- A step that writes one row off the wire. -/
theorem Phone.Ok.patched (h : s.Ok) (hp : s.page = some p) (hw : p.Within p') (hf : p'.flights = p.flights)
    {id : ℕ} {f : QueueRow → QueueRow}
    (hwrite : ∀ x ∈ s.rows, x.id = id → Writes s.now s.rows s.decided (· ∈ s.landed) x (f x))
    (hoff : ∀ w ∈ p.flights.map (·.row), w.id ≠ id) (hstuck : ∀ r ∈ p'.stuck, r.id ≠ id) :
    Phone.Ok { s with
      rows := patch s.rows id f, page := some p', history := history, thrown := thrown, reports := reports
      retirements := retirements } := by
  have hq := (h.queue_page hp).patch_off_wire hwrite hoff
  have hpage : PageOk s.now (patch s.rows id f) s.decided (· ∈ s.landed) p' := by
    refine (h.page p hp).evolve hq hw (patch_evolves fun x hx hid => (hwrite x hx hid).evolves) ?_
    intro r hr
    exact mem_patch_of_ne ((h.page p hp).stuck r (hw.stuck.subset hr)).1 (hstuck r hr)
  exact h.moved (hf ▸ hq) hpage (h.no_orphans hp)

/-- A row that is not syncing is neither on the wire nor about to be put back. -/
theorem Phone.Ok.off (h : s.Ok) (hp : s.page = some p) (hw : p.Within p') {x : QueueRow} (hx : x ∈ s.rows)
    (hs : x.status ≠ .syncing) : (∀ w ∈ p.flights.map (·.row), w.id ≠ x.id) ∧ ∀ r ∈ p'.stuck, r.id ≠ x.id := by
  refine ⟨(h.queue_page hp).off_wire hx hs, ?_⟩
  intro r hr hid
  obtain ⟨hmem, hsync, -⟩ := (h.page p hp).stuck r (hw.stuck.subset hr)
  obtain rfl := h.queue.eq_of_id hmem hx hid
  exact hs hsync

/-- A claim, and the page that goes on from it. -/
theorem Phone.Ok.claimFor (h : s.Ok) (hp : s.page = some p) {q : Page} (hw : p.Within q) (hf : q.flights = p.flights)
    (id : ℕ) (caller : Bool) (hgo : (s.claimFor q id caller).2.Within p')
    (hfl : p'.flights = (s.claimFor q id caller).2.flights) : ((s.claimFor q id caller).1.withPage p').Ok := by
  have hspec := claim_spec s.now s.rows id
  unfold Phone.claimFor at hgo hfl ⊢
  generalize claim s.now s.rows id = outcome at hspec hgo hfl ⊢
  obtain ⟨rows, result⟩ := outcome
  dsimp only at hspec hgo hfl ⊢
  cases hspec with
  | untouched result hnot =>
    cases result with
    | claimed row => exact absurd rfl (hnot row).1
    | superseded row => exact absurd rfl (hnot row).2
    | _ => exact h.paged hp (hw.trans hgo) (hfl.trans hf)
  | uncertain row hrow hid hpending since hmaybe =>
    subst hid
    obtain ⟨hoff, hstuck⟩ := h.off hp (hw.trans hgo) hrow (by rw [hpending]; decide)
    refine h.patched hp (hw.trans hgo) (hfl.trans hf) ?_ hoff hstuck
    intro x hx hid
    obtain rfl := h.queue.eq_of_id hx hrow hid
    exact h.queue.writes_markUncertain hx (Or.inr ⟨hpending, by rw [hmaybe]; simp⟩)
  | superseded row hrow hid hpending hlanded =>
    subst hid
    obtain ⟨hoff, hstuck⟩ := h.off hp (hw.trans hgo) hrow (by rw [hpending]; decide)
    refine h.patched hp (hw.trans hgo) (hfl.trans hf) ?_ hoff hstuck
    intro x hx hid
    obtain rfl := h.queue.eq_of_id hx hrow hid
    exact h.queue.writes_supersede hx hpending
  | claimed row hrow hid hpending hsafe hlanded hwire hundecided =>
    subst hid
    obtain ⟨hoff, hstuck⟩ := h.off hp hw hrow (by rw [hpending]; decide)
    have hwrite : ∀ x ∈ s.rows, x.id = row.id → Writes s.now s.rows s.decided (· ∈ s.landed) x
        { x with status := .syncing, lastAttemptedAt := some s.now } := by
      intro x hx hid
      obtain rfl := h.queue.eq_of_id hx hrow hid
      exact h.queue.writes_take hx hpending (h.queue.not_behind hx hpending hlanded hwire hundecided)
        (alone_of_onTheWire hwire)
    have hq := (h.queue_page hp).patch_take hrow hoff hwrite
    rw [← hf] at hq
    have hpage := (h.page p hp).evolve hq hw (patch_evolves fun x hx hid => (hwrite x hx hid).evolves)
      fun r hr => mem_patch_of_ne ((h.page p hp).stuck r (hw.stuck.subset hr)).1 (hstuck r hr)
    refine h.moved ?_ ((hpage.fly rfl caller).within hq hgo) (h.no_orphans hp)
    rw [hfl, List.map_append]
    exact hq

/-! An answer comes back. -/

theorem Page.stuck_of_not_recovering {p : Page} (h : ∀ l, p.drain ≠ some (.recovering l)) : p.stuck = [] := by
  unfold Page.stuck
  split
  · rename_i l hl
    exact absurd hl (h l)
  · rfl

theorem Page.endDrain_stuck (p : Page) : p.endDrain.stuck = [] := by
  refine Page.stuck_of_not_recovering ?_
  intro l
  unfold Page.endDrain
  split <;> simp

theorem Page.endDrain_within (p : Page) : p.Within p.endDrain :=
  .of_drain rfl rfl rfl rfl (by rw [Page.endDrain_stuck]; exact List.nil_sublist _)

theorem Page.resumeDrain_within (p : Page) (id : ℕ) (answer : Answer) : p.Within (p.resumeDrain id answer) := by
  unfold Page.resumeDrain Drain.afterSend
  split
  · split
    · dsimp only
      split
      · rename_i drain hdrain
        have hnot : ∀ l, drain ≠ .recovering l := by
          intro l hl
          subst hl
          split at hdrain
          · cases hdrain
          · split at hdrain <;> cases hdrain
        refine .of_drain rfl rfl rfl rfl ?_
        rw [Page.stuck_of_not_recovering (by simpa using hnot)]
        exact List.nil_sublist _
      · exact p.endDrain_within
    · exact .refl p
  · exact .refl p

theorem Page.resumeDrain_flights (p : Page) (id : ℕ) (answer : Answer) :
    (p.resumeDrain id answer).flights = p.flights := by
  unfold Page.resumeDrain Drain.afterSend Page.endDrain
  split
  · split
    · dsimp only
      split <;> rfl
    · rfl
  · rfl

theorem Phone.answered_wire (ho : s.orphans = []) (f : Flight) (answer : Answer) :
    (s.answered p f answer).wire = (p.flights.erase f).map (·.row) := by
  simp [Phone.wire, Phone.answered, Page.resumeDrain_flights, ho]

/-- The row of an answered transmission leaves the wire. -/
theorem QueueOk.patch_settle {nextId : ℕ} {rows : List QueueRow} {flights : List Flight}
    {decided landed : QueueRow → Prop} (h : QueueOk nextId rows (flights.map (·.row)) decided landed) {f : Flight}
    (hf : f ∈ flights) (verdict : SendVerdict) (href : verdict = .refused → ∀ b, decided b → b.id ≠ f.row.id) :
    QueueOk nextId (Gdx.patch rows f.row.id (f.settle verdict)) ((flights.erase f).map (·.row)) decided landed := by
  obtain ⟨hrow, hsync⟩ := h.wired f.row (List.mem_map_of_mem hf)
  have hwrite : ∀ x ∈ rows, x.id = f.row.id → Writes 0 rows decided landed x (f.settle verdict x) := by
    intro x hx hid
    obtain rfl := h.eq_of_id hx hrow hid
    exact h.writes_settle hrow hsync f verdict href
  have honce : (flights.map (·.row.id)).Nodup := by simpa [Function.comp_def] using h.wireOnce
  refine h.patch hwrite ?_ (h.wireOnce.sublist ((List.erase_sublist.map _).map _))
  intro w hw
  obtain ⟨g, hg, rfl⟩ := List.mem_map.mp hw
  obtain ⟨hne, hmem⟩ := (List.Nodup.of_map _ honce).mem_erase_iff.mp hg
  obtain ⟨hgrow, hgsync⟩ := h.wired g.row (List.mem_map_of_mem hmem)
  refine ⟨mem_patch_of_ne hgrow ?_, hgsync⟩
  intro hid
  exact hne (List.inj_on_of_nodup_map honce hmem hf hid)

/-- A refusal means that the write is not on the server. -/
theorem Phone.Ok.refused_undecided (h : s.Ok) (hp : s.page = some p) {f : Flight} (hf : f ∈ p.flights) {answer : Answer}
    (hmay : s.mayAnswer f answer = true) (hv : answer.verdict f.row = .refused) :
    ∀ b, s.decided b → b.id ≠ f.row.id := by
  obtain ⟨hrow, hsync⟩ := (h.queue_page hp).wired f.row (List.mem_map_of_mem hf)
  rintro b (hb | ⟨time, hb⟩) hid
  · have := (h.queue.landedHere b hb).2 f.row hrow hid.symm
    rw [hsync] at this
    cases this
  · have heff : s.effective f.row.id = true := List.any_eq_true.mpr ⟨_, hb, by simpa using hid⟩
    cases answer with
    | lost => cases hv
    | status code =>
      have hcode : 400 ≤ code ∧ code < 500 := by
        unfold Answer.verdict at hv
        dsimp only at hv
        split at hv
        · cases hv
        · split at hv
          · cases hv
          · split at hv
            · assumption
            · cases hv
      simp [Phone.mayAnswer, heff, hcode] at hmay

theorem Phone.Ok.answered (h : s.Ok) (hp : s.page = some p) {f : Flight} (hf : f ∈ p.flights) {answer : Answer}
    (hmay : s.mayAnswer f answer = true) : (s.answered p f answer).Ok := by
  have hq := h.queue_page hp
  have hpage := h.page p hp
  have hmem : f.row ∈ p.flights.map (·.row) := List.mem_map_of_mem hf
  obtain ⟨hrow, hsync⟩ := hq.wired f.row hmem
  have hevolves : ∀ y ∈ patch s.rows f.row.id (f.settle (answer.verdict f.row)), ∃ x ∈ s.rows, Evolves s.now x y := by
    refine patch_evolves ?_
    intro x hx hid
    obtain rfl := hq.eq_of_id hx hrow hid
    exact (hq.writes_settle hrow hsync f _ fun hv => h.refused_undecided hp hf hmay hv).evolves
  have hstuck : ∀ r ∈ p.stuck, r ∈ patch s.rows f.row.id (f.settle (answer.verdict f.row)) := by
    intro r hr
    obtain ⟨hr, -, hold⟩ := hpage.stuck r hr
    refine mem_patch_of_ne hr ?_
    intro hid
    obtain rfl := hq.eq_of_id hr hrow hid
    obtain ⟨since, hsince, hle⟩ := hpage.recent f hf
    rw [hsince] at hold
    simp only [Option.all_some, decide_eq_true_eq] at hold
    omega
  have hwithin : ∀ throwing, p.Within { p with flights := p.flights.erase f, throwing := throwing } := fun _ =>
    { Page.Within.refl p with flights := fun _ hg => List.mem_of_mem_erase hg }
  by_cases hv : answer.verdict f.row = .synced
  · -- the row is decided as it lands, and the page has older refusals to retire
    have hq' := (hq.decide hmem).patch_settle hf .synced (by intro hv; cases hv)
    have hdone : ∀ r ∈ patch s.rows f.row.id (f.settle .synced), r.id = f.row.id → r.status = .synced := by
      intro r hr hid
      obtain ⟨x, hx, rfl⟩ := mem_patch.mp hr
      split at hid
      · rename_i hxid
        rw [if_pos hxid]
        rfl
      · exact absurd hid ‹_›
    rw [hv] at hevolves hstuck
    have hland := hq'.land (Or.inr rfl) hdone
    have hpage' : PageOk s.now (patch s.rows f.row.id (f.settle .synced)) (fun b => s.decided b ∨ b = f.row)
        (fun b => b ∈ s.landed ∨ b = f.row) { p with flights := p.flights.erase f, throwing := p.throwing } :=
      ((hpage.decide hq hmem).evolve hq' (hwithin p.throwing) hevolves hstuck).land fun b hb => Or.inl hb
    have hdec : ∀ b, (s.answered p f answer).decided b ↔ s.decided b ∨ b = f.row := by
      intro b
      simp only [Phone.decided, Phone.answered, if_pos hv, List.mem_append, List.mem_singleton]
      tauto
    have hlan : ∀ b, b ∈ (s.answered p f answer).landed ↔ b ∈ s.landed ∨ b = f.row := by
      intro b
      simp only [Phone.answered, if_pos hv, List.mem_append, List.mem_singleton]
    refine ⟨?_, ?_, fun _ => h.no_orphans hp, h.inOrder⟩
    · refine QueueOk.congr ?_ hdec hlan
      rw [Phone.answered_wire (h.no_orphans hp)]
      unfold Phone.answered
      rw [hv]
      exact hland
    · unfold Phone.answered at hdec hlan ⊢
      simp only [hv, if_true, reduceCtorEq, false_and, if_false] at hdec hlan ⊢
      rintro q ⟨rfl⟩
      refine PageOk.congr ?_ hdec hlan
      exact (hpage'.note (Or.inr rfl)).within hland (Page.resumeDrain_within ..)
  · have hq' := hq.patch_settle hf (answer.verdict f.row) fun hv => h.refused_undecided hp hf hmay hv
    unfold Phone.answered
    simp only [if_neg hv]
    refine h.moved ?_ ((hpage.evolve hq' (hwithin _) hevolves hstuck).within hq' (Page.resumeDrain_within ..))
      (h.no_orphans hp)
    rw [Page.resumeDrain_flights]
    exact hq'

/-! The server runs a transmission. -/

theorem Phone.Ok.apply (h : s.Ok) {f : Flight} (hf : f.row ∈ s.wire) : (s.apply f).Ok := by
  unfold Phone.apply
  split
  · exact h
  · rename_i hnew
    obtain ⟨hrow, hsync⟩ := h.queue.wired f.row hf
    have hdec : ∀ b, Phone.decided { s with effects := s.effects ++ [.own f.row s.now] } b ↔
        s.decided b ∨ b = f.row := by
      intro b
      simp only [Phone.decided, List.mem_append, List.mem_singleton, Effect.own.injEq, exists_or, exists_and_left,
        exists_eq, and_true]
      tauto
    refine ⟨?_, ?_, h.orphans, ?_⟩
    · exact (h.queue.decide hf).congr hdec fun _ => Iff.rfl
    · intro p hp
      exact ((h.page p hp).decide h.queue hf).congr hdec fun _ => Iff.rfl
    · unfold InOrder
      rw [List.pairwise_append]
      refine ⟨h.inOrder, List.pairwise_singleton .., ?_⟩
      intro earlier hearlier later hlater b time a time' hb ha hkind
      rw [List.mem_singleton.mp hlater] at ha
      cases ha
      subst hb
      by_contra hlt
      -- a decided row of the kind that is not older is newer than the one on the wire, or it is the one
      have hne : b.id ≠ f.row.id := by
        intro hid
        exact hnew (List.any_eq_true.mpr ⟨_, hearlier, by simpa using hid⟩)
      obtain ⟨hk, hnone⟩ := sameKind_iff.mp hkind
      exact h.queue.quiet f.row hrow ⟨b, Or.inr ⟨time, hearlier⟩, by omega, hk.symm, hk ▸ hnone⟩ hsync

/-! Steps on the store. -/

theorem QueueOk.add {nextId : ℕ} {rows wire : List QueueRow} {decided landed : QueueRow → Prop}
    (h : QueueOk nextId rows wire decided landed) {row : QueueRow} (hid : row.id = nextId)
    (hs : row.status = .pending) (hsup : row.superseded = false) :
    QueueOk (nextId + 1) (rows ++ [row]) wire decided landed := by
  have hmem : ∀ r ∈ rows ++ [row], r ∈ rows ∨ r = row := by simp
  have hfresh : ∀ b, decided b → b.id ≠ row.id := fun b hb => by have := h.decidedLt b hb; omega
  have hnew : ∀ r ∈ rows ++ [row], r.status ≠ .pending → r ∈ rows := by
    intro r hr hne
    rcases hmem r hr with hr | rfl
    · exact hr
    · exact absurd hs hne
  have hold : ∀ b, decided b → ∀ r ∈ rows ++ [row], r.id ≤ b.id → r ∈ rows := by
    intro b hb r hr hle
    rcases hmem r hr with hr | rfl
    · exact hr
    · have := h.decidedLt b hb
      omega
  exact {
    nodup := by
      rw [List.map_append, List.nodup_append]
      refine ⟨h.nodup, by simp, ?_⟩
      rintro a ha b hb rfl
      obtain ⟨r, hr, rfl⟩ := List.mem_map.mp ha
      simp only [List.map_cons, List.map_nil, List.mem_singleton] at hb
      have := h.lt r hr
      omega
    lt := by
      intro r hr
      rcases hmem r hr with hr | rfl
      · have := h.lt r hr
        omega
      · omega
    mutex := fun x hx y hy hxs hys =>
      h.mutex x (hnew x hx (by rw [hxs]; decide)) y (hnew y hy (by rw [hys]; decide)) hxs hys
    wired := fun w hw => ⟨List.mem_append_left _ (h.wired w hw).1, (h.wired w hw).2⟩
    wireOnce := h.wireOnce
    attempted := fun r hr hsync => h.attempted r (hnew r hr (by rw [hsync]; decide)) hsync
    decidedLt := fun b hb => by have := h.decidedLt b hb; omega
    decidedHere := fun b hb r hr hrb => h.decidedHere b hb r (hold b hb r hr hrb.le) hrb
    quiet := by
      rintro a ha ⟨b, hb, hlt, hrest⟩
      exact h.quiet a (hold b hb a ha hlt.le) ⟨b, hb, hlt, hrest⟩
    kept := by
      intro b hb a ha hlt hkind hnone
      rcases h.kept b hb a (hold b hb a ha hlt.le) hlt hkind hnone with ⟨r, hr, hrb⟩ | hdone
      · exact Or.inl ⟨r, List.mem_append_left _ hr, hrb⟩
      · exact Or.inr hdone
    landedHere := by
      intro b hb
      obtain ⟨hd, hall⟩ := h.landedHere b hb
      exact ⟨hd, fun r hr hrb => hall r (hold b hd r hr hrb.le) hrb⟩
    flagged := by
      intro r hr
      rcases hmem r hr with hr | rfl
      · exact h.flagged r hr
      · intro hyes
        rw [hsup] at hyes
        cases hyes }

theorem PageOk.add {now nextId : ℕ} {rows wire : List QueueRow} {decided landed : QueueRow → Prop}
    (h : PageOk now rows decided landed p) (hq : QueueOk nextId rows wire decided landed) {row : QueueRow}
    (hid : row.id = nextId) (hs : row.status = .pending) : PageOk now (rows ++ [row]) decided landed p where
  started := h.started
  recent := h.recent
  stuckOnce := h.stuckOnce
  stuck := fun r hr => ⟨List.mem_append_left _ (h.stuck r hr).1, (h.stuck r hr).2⟩
  retiring := by
    intro task htask
    obtain ⟨hland, hx⟩ := h.retiring task htask
    refine ⟨hland, ?_⟩
    intro x hxmem
    obtain ⟨hlt, hrows⟩ := hx x hxmem
    refine ⟨hlt, ?_⟩
    intro r hr hrx
    rcases List.mem_append.mp hr with hr | hr
    · exact hrows r hr hrx
    · rw [List.mem_singleton.mp hr] at hrx
      have := hq.decidedLt _ (hq.landedHere _ hland).1
      omega
  purging := by
    intro task htask
    obtain ⟨hnow, hpairs⟩ := h.purging task htask
    refine ⟨hnow, ?_⟩
    intro a ha b hb hlt hkind hnone hdec hpast
    have hb' : b ∈ rows := by
      rcases List.mem_append.mp hb with hb | hb
      · exact hb
      · rw [List.mem_singleton] at hb
        subst hb
        rcases hdec with hsync | ⟨d, hd, hdid⟩
        · rw [hs] at hsync
          cases hsync
        · have := hq.decidedLt d hd
          omega
    have ha' : a ∈ rows := by
      rcases List.mem_append.mp ha with ha | ha
      · exact ha
      · rw [List.mem_singleton] at ha
        subst ha
        have := hq.lt b hb'
        omega
    exact hpairs a ha' b hb' hlt hkind hnone hdec hpast

theorem Phone.Ok.queue_row (h : s.Ok) (hp : s.page = some p) (actionType resourceId : Text)
    (conflictIsError online : Bool) : (s.queue p actionType resourceId conflictIsError online).Ok := by
  have hq := h.queue_page hp
  let row : QueueRow :=
    ⟨s.nextId, actionType, resourceId, conflictIsError, s.now, .pending, false, false, false, none, none⟩
  have hpage : PageOk s.now (s.rows ++ [row]) s.decided (· ∈ s.landed) p := (h.page p hp).add hq rfl rfl
  have hq' : QueueOk (s.nextId + 1) (s.rows ++ [row]) (p.flights.map (·.row)) s.decided (· ∈ s.landed) :=
    hq.add rfl rfl rfl
  refine ⟨?_, ?_, fun _ => h.no_orphans hp, h.inOrder⟩
  · have hwire : (s.queue p actionType resourceId conflictIsError online).wire = p.flights.map (·.row) := by
      cases online <;> simp [Phone.wire, Phone.queue, h.no_orphans hp]
    rw [hwire]
    exact hq'
  · rintro q ⟨rfl⟩
    cases online
    · exact hpage
    · exact hpage.within hq' (.of_drain rfl rfl rfl rfl (List.Sublist.refl _))

theorem mem_swap {α : Type} [DecidableEq α] {tasks by_ : List α} {task x : α} (h : x ∈ swap tasks task by_) :
    x ∈ tasks ∨ x ∈ by_ := by
  rcases List.mem_append.mp h with h | h
  · exact Or.inl (List.mem_of_mem_erase h)
  · exact Or.inr h

/-- A task is replaced by one that has less to do. -/
theorem Page.within_retiring {task task' : Retiring} (ht : task ∈ p.retiring) (he : task'.entry = task.entry)
    (ho : ∀ x ∈ task'.older.getD [], x ∈ task.older.getD []) :
    p.Within { p with retiring := swap p.retiring task [task'] } :=
  { Page.Within.refl p with
    retiring := by
      intro t hm
      rcases mem_swap hm with hm | hm
      · exact ⟨t, hm, rfl, fun _ h => h⟩
      · rw [List.mem_singleton] at hm
        subst hm
        exact ⟨task, ht, he, ho⟩ }

theorem Phone.Ok.retireStep (h : s.Ok) (hp : s.page = some p) {task : Retiring} (ht : task ∈ p.retiring) :
    (s.retireStep p task).Ok := by
  have hpage := h.page p hp
  have hq := h.queue_page hp
  obtain ⟨entry, older⟩ := task
  obtain ⟨hland, hlisted⟩ := hpage.retiring _ ht
  unfold Phone.retireStep Phone.withPage
  match older with
  | none =>
    dsimp only
    refine h.moved hq { hpage with retiring := ?_ } (h.no_orphans hp)
    intro t hm
    rcases mem_swap hm with hm | hm
    · exact hpage.retiring t hm
    · rw [List.mem_singleton] at hm
      subst hm
      refine ⟨hland, ?_⟩
      intro x hx
      simp only [olderRefusals, Option.getD_some, List.mem_filter, Bool.and_eq_true, decide_eq_true_eq] at hx
      obtain ⟨hx, ⟨hfailed, hlt⟩, hsame⟩ := hx
      refine ⟨hlt, ?_⟩
      intro r hr hid
      obtain rfl := h.queue.eq_of_id hr hx hid
      obtain ⟨hkind, hnone⟩ := sameKind_iff.mp hsame
      exact ⟨hkind.symm, hkind ▸ hnone, Or.inl hfailed⟩
  | some [] =>
    dsimp only
    refine h.paged hp ?_ rfl
    exact { Page.Within.refl p with
      retiring := fun t hm => ⟨t, (mem_swap hm).resolve_right (by simp), rfl, fun _ h => h⟩ }
  | some (r :: rest) =>
    obtain ⟨hlt, hrows⟩ := hlisted r (by simp)
    have hw : p.Within { p with retiring := swap p.retiring ⟨entry, some (r :: rest)⟩ [⟨entry, some rest⟩] } :=
      Page.within_retiring ht rfl (by simp +contextual)
    have hidle : ∀ x ∈ s.rows, x.id = r.id → x.status ≠ .syncing := by
      intro x hx hid hsync
      rcases (hrows x hx hid).2.2 with hf | ⟨hf, -⟩ <;> rw [hsync] at hf <;> cases hf
    refine h.patched hp hw rfl ?_ ?_ ?_
    · intro x hx hid
      obtain ⟨hkind, hnone, hi⟩ := hrows x hx hid
      exact h.queue.writes_retire hx (Or.inr ⟨hi, entry, (h.queue.landedHere _ hland).1, hid ▸ hlt, hkind, hnone⟩)
    · intro w hw hid
      obtain ⟨hmem, hsync⟩ := (h.queue_page hp).wired w hw
      exact hidle w hmem hid hsync
    · intro x hx hid
      obtain ⟨hmem, hsync, -⟩ := hpage.stuck x hx
      exact hidle x hmem hid hsync

/-- A page with another drain that has nothing to put back. -/
theorem Page.within_drain (p : Page) {drain : Option Drain} (h : ∀ l, drain ≠ some (.recovering l)) :
    p.Within { p with drain := drain } := by
  refine .of_drain rfl rfl rfl rfl ?_
  rw [Page.stuck_of_not_recovering (p := { p with drain := drain }) h]
  exact List.nil_sublist _

theorem Phone.Ok.attempt (h : s.Ok) (hp : s.page = some p) (entry : QueueRow) (rest aside : List QueueRow)
    (held : List Text) (second : Bool) : (s.attempt p entry rest aside held second).Ok := by
  unfold Phone.attempt
  split
  · unfold Phone.withPage
    exact h.paged hp (p.within_drain (by simp)) rfl
  · dsimp only
    refine h.claimFor hp (.refl p) rfl entry.id false (Page.within_drain _ ?_) rfl
    intro l
    split <;> simp

theorem Phone.Ok.drainStep (h : s.Ok) (hp : s.page = some p) {drain : Drain} (hd : p.drain = some drain)
    (hs : s.drainStep p drain = some s') : s'.Ok := by
  have hpage := h.page p hp
  have hq := h.queue_page hp
  unfold Phone.drainStep at hs
  split at hs <;> cases hs <;> try unfold Phone.withPage
  · refine h.moved hq { hpage with stuckOnce := ?_, stuck := ?_ } (h.no_orphans hp)
    · exact h.queue.nodup.sublist (List.filter_sublist.map _)
    · intro r hr
      simp only [Page.stuck, stuckRows, List.mem_filter, Bool.and_eq_true, decide_eq_true_eq] at hr
      exact ⟨hr.1, hr.2⟩
  · exact h.paged hp (p.within_drain (by simp)) rfl
  · rename_i r rest
    have hstuck : p.stuck = r :: rest := by rw [Page.stuck, hd]
    obtain ⟨hrow, hsync, hold⟩ := hpage.stuck r (by rw [hstuck]; exact List.mem_cons_self)
    have honce := hpage.stuckOnce
    rw [hstuck, List.map_cons, List.nodup_cons] at honce
    have hw : p.Within { p with drain := some (.recovering rest) } :=
      .of_drain rfl rfl rfl rfl (by rw [hstuck]; exact List.sublist_cons_self r rest)
    refine h.patched hp hw rfl ?_ ?_ ?_
    · intro x hx hid
      obtain rfl := h.queue.eq_of_id hx hrow hid
      exact h.queue.writes_recover hx hsync x
    · intro w hw hid
      obtain rfl := h.queue.eq_of_id ((h.queue_page hp).wired w hw).1 hrow hid
      obtain ⟨f, hf, rfl⟩ := List.mem_map.mp hw
      obtain ⟨since, hsince, hle⟩ := hpage.recent f hf
      rw [hsince] at hold
      simp only [Option.all_some, decide_eq_true_eq] at hold
      omega
    · intro x hx hid
      exact honce.1 (List.mem_map.mpr ⟨x, hx, hid⟩)
  · exact h.paged hp (p.within_drain (by simp)) rfl
  · exact h.paged hp p.endDrain_within rfl
  · exact h.attempt hp ..

/-- A page with other retries. -/
theorem Page.within_retries (p : Page) (retries : List RetryTask) : p.Within { p with retries := retries } :=
  .of_drain rfl rfl rfl rfl (List.Sublist.refl _)

/-- A retry retires a row that is still refused. -/
theorem Phone.Ok.retireRow {id : ℕ} (h : s.Ok) (hp : s.page = some p) (hw : p.Within p') (hf : p'.flights = p.flights)
    (ht : ∀ x ∈ s.rows, x.id = id → x.status = .failed) : ((s.retireRow id).withPage p').Ok := by
  refine h.patched hp hw hf ?_ ?_ ?_
  · intro x hx hid
    exact h.queue.writes_retire hx (Or.inl (ht x hx hid))
  · intro w hw hid
    obtain ⟨hmem, hsync⟩ := (h.queue_page hp).wired w hw
    rw [ht w hmem hid] at hsync
    cases hsync
  · intro r hr hid
    obtain ⟨hmem, hsync, -⟩ := (h.page p hp).stuck r (hw.stuck.subset hr)
    rw [ht r hmem hid] at hsync
    cases hsync

/-- A retry puts a row that is still refused back in line. -/
theorem Phone.Ok.requeueRow {id : ℕ} (h : s.Ok) (hp : s.page = some p) (hw : p.Within p') (hf : p'.flights = p.flights)
    (ht : ∀ x ∈ s.rows, x.id = id → x.status = .failed ∧ x.acknowledged = false) :
    ((s.requeueRow id).withPage p').Ok := by
  refine h.patched hp hw hf ?_ ?_ ?_
  · intro x hx hid
    exact h.queue.writes_requeue hx (ht x hx hid).1 (ht x hx hid).2
  · intro w hw hid
    obtain ⟨hmem, hsync⟩ := (h.queue_page hp).wired w hw
    rw [(ht w hmem hid).1] at hsync
    cases hsync
  · intro r hr hid
    obtain ⟨hmem, hsync, -⟩ := (h.page p hp).stuck r (hw.stuck.subset hr)
    rw [(ht r hmem hid).1] at hsync
    cases hsync

theorem Phone.Ok.retryStep (h : s.Ok) (hp : s.page = some p) {task : RetryTask} {reached : Bool}
    (ht : s.tidy (.retryStep task reached)) : (s.retryStep p task reached).Ok := by
  unfold Phone.retryStep
  match task with
  | .reading rows =>
    exact h.paged hp (p.within_retries _) rfl
  | .walking [] all =>
    exact h.paged hp (p.within_retries _) rfl
  | .walking (r :: rest) all =>
    unfold Phone.tidy at ht
    dsimp only at ht ⊢
    split
    · exact h.paged hp (p.within_retries _) rfl
    · rename_i hmove
      rw [hmove] at ht
      exact h.retireRow hp (p.within_retries _) rfl ht
    · exact h.paged hp (p.within_retries _) rfl
    · rename_i hmove
      rw [hmove] at ht
      exact h.requeueRow hp (p.within_retries _) rfl ht
  | .asked r true rest all =>
    dsimp only
    exact h.retireRow hp (p.within_retries _) rfl ht
  | .asked r false rest all =>
    dsimp only
    exact h.requeueRow hp (p.within_retries _) rfl ht

/-- A purge drops no row on the wire, and one that blocks only when it is old and nothing needs it. -/
theorem PurgeTask.drops_spec {task : PurgeTask} {r : QueueRow} (h : task.drops r = true) :
    r.status ≠ .syncing ∧ (r.blocking → r.lastAttemptedAt.isSome →
      r.lastAttemptedAt.any (· < task.cutoff) = true ∧ needed task.all r = false) := by
  unfold PurgeTask.drops at h
  split at h
  · simp only [PurgeTask.dropsFailed, Bool.and_eq_true, decide_eq_true_eq, Bool.not_eq_true',
      Bool.and_eq_false_iff] at h
    obtain ⟨⟨⟨hs, hack⟩, hold⟩, hneed⟩ := h
    refine ⟨by rw [hs]; decide, ?_⟩
    intro hblock hsome
    obtain ⟨since, hsince⟩ := Option.isSome_iff_exists.mp hsome
    rw [hsince] at hold ⊢
    refine ⟨by simpa using hold, ?_⟩
    rcases hblock with hf | hsup | ⟨-, hno⟩
    · exact absurd hs hf
    · exact hneed.resolve_left (by rw [hsup]; decide)
    · rw [hack] at hno
      cases hno
  · simp only [PurgeTask.dropsSynced, Bool.and_eq_true, decide_eq_true_eq, Bool.not_eq_true'] at h
    exact ⟨by rw [h.1.1]; decide, fun _ _ => ⟨h.1.2, h.2⟩⟩

theorem Phone.Ok.purgeStep (h : s.Ok) (hp : s.page = some p) {task : PurgeTask} (ht : task ∈ p.purges) :
    (s.purgeStep p task).Ok := by
  have hpage := h.page p hp
  have hq := h.queue_page hp
  have hkeep : ∀ r ∈ s.rows, r.status = .syncing → r ∈ s.rows.filter fun r => !task.drops r := by
    intro r hr hsync
    refine List.mem_filter.mpr ⟨hr, ?_⟩
    by_contra hdrop
    exact (PurgeTask.drops_spec (by simpa using hdrop)).1 hsync
  have hq' : QueueOk s.nextId (s.rows.filter fun r => !task.drops r) (p.flights.map (·.row)) s.decided
      (· ∈ s.landed) := by
    have hfrom : ∀ y ∈ s.rows.filter fun r => !task.drops r, ∃ x ∈ s.rows,
        Writes s.now s.rows s.decided (· ∈ s.landed) x y :=
      fun y hy => ⟨y, List.mem_of_mem_filter hy, hq.writes_refl (List.mem_of_mem_filter hy)⟩
    refine hq.evolve (hq.nodup.sublist (List.filter_sublist.map _)) hfrom ?_ ?_ ?_ hq.wireOnce
    · exact fun y hy _ _ hno => absurd (List.mem_of_mem_filter hy) hno
    · -- a decided row goes only when the purge read no older one as unsent
      intro b hb x hx hid
      by_cases hdrop : task.drops x = true
      · refine Or.inr ?_
        intro a ha hlt hkind hnone
        obtain ⟨hbkind, hblock, hsome⟩ := hq.decidedHere b hb x hx hid
        obtain ⟨hpast, hneed⟩ := (PurgeTask.drops_spec hdrop).2 hblock hsome
        rcases (hpage.purging task ht).2 a ha x hx (hid ▸ hlt) (hkind.trans hbkind.symm) hnone
            (Or.inr ⟨b, hb, hid.symm⟩) hpast with ⟨u, hu, huid, hukind, hunsent⟩ | hdone
        · have hsame : x.sameKind u = true :=
            sameKind_iff.mpr ⟨hbkind.trans (hkind.symm.trans hukind.symm), hbkind ▸ hkind ▸ hnone⟩
          have hyes : needed task.all x = true :=
            List.any_eq_true.mpr ⟨u, hu, by simp [hunsent, huid, hid, hlt, hsame]⟩
          rw [hneed] at hyes
          cases hyes
        · exact hdone
      · exact Or.inl ⟨x, List.mem_filter.mpr ⟨hx, by simpa using hdrop⟩, hid⟩
    · exact fun w hw => ⟨hkeep w (hq.wired w hw).1 (hq.wired w hw).2, (hq.wired w hw).2⟩
  have hw : p.Within { p with
      purges := swap p.purges task (if task.second then [] else [{ task with second := true }]) } :=
    { Page.Within.refl p with
      purges := by
        intro t hm
        rcases mem_swap hm with hm | hm
        · exact ⟨t, hm, rfl, rfl⟩
        · split at hm
          · cases hm
          · rw [List.mem_singleton] at hm
            subst hm
            exact ⟨task, ht, rfl, rfl⟩ }
  refine h.moved hq' (hpage.evolve hq' hw ?_ ?_) (h.no_orphans hp)
  · exact fun y hy => ⟨y, List.mem_of_mem_filter hy, .refl _ y⟩
  · exact fun r hr => hkeep r (hpage.stuck r hr).1 (hpage.stuck r hr).2.1

theorem Phone.Ok.tick (h : s.Ok) (ms : ℕ) : Phone.Ok { s with now := s.now + ms } :=
  ⟨h.queue, fun p hp => (h.page p hp).later (Nat.le_add_right ..), h.orphans, h.inOrder⟩

theorem Phone.Ok.otherCloses (h : s.Ok) (job : Text) :
    Phone.Ok { s with effects := s.effects ++ [.other job s.now] } := by
  have hdec : ∀ b, Phone.decided { s with effects := s.effects ++ [.other job s.now] } b ↔ s.decided b := by
    intro b
    simp [Phone.decided]
  refine ⟨h.queue.congr hdec fun _ => Iff.rfl, ?_, h.orphans, ?_⟩
  · exact fun p hp => (h.page p hp).congr hdec fun _ => Iff.rfl
  · unfold InOrder
    rw [List.pairwise_append]
    refine ⟨h.inOrder, List.pairwise_singleton .., ?_⟩
    intro earlier _ later hlater b time a time' _ ha
    rw [List.mem_singleton.mp hlater] at ha
    cases ha

/-- A page starts: what the last one had on the wire is over. -/
theorem Phone.Ok.start (h : s.Ok) : Phone.Ok { s with page := some { startedAt := s.now }, orphans := [] } where
  queue := { h.queue with wired := by simp [Phone.wire], wireOnce := by simp [Phone.wire] }
  page := by
    rintro p ⟨rfl⟩
    constructor <;> simp [Page.stuck]
  orphans := fun _ => rfl
  inOrder := h.inOrder

theorem Phone.Ok.die (h : s.Ok) (hp : s.page = some p) : (s.die p).Ok where
  queue := by
    have hwire : (s.die p).wire = p.flights.map (·.row) := by simp [Phone.wire, Phone.die]
    rw [hwire]
    exact h.queue_page hp
  page := by rintro q ⟨⟩
  orphans := by rintro ⟨⟩
  inOrder := h.inOrder

theorem Page.syncNow_within (p : Page) : p.Within p.syncNow := by
  unfold Page.syncNow
  split
  · exact .of_drain rfl rfl rfl rfl (List.Sublist.refl _)
  · exact p.within_drain (by simp)

theorem Page.syncNow_flights (p : Page) : p.syncNow.flights = p.flights := by
  unfold Page.syncNow
  split <;> rfl

/-- A purge reads the store: an older row of a decided one is unsent or finished, it is not on the wire. -/
theorem Phone.Ok.purge (h : s.Ok) (hp : s.page = some p) (maxAgeDays : ℕ) :
    (s.withPage { p with purges := p.purges ++ [⟨s.now - maxAgeDays * 86400000, s.rows, false⟩] }).Ok := by
  have hpage := h.page p hp
  have hq := h.queue_page hp
  refine h.moved hq { hpage with purging := ?_ } (h.no_orphans hp)
  intro task htask
  rcases List.mem_append.mp htask with htask | htask
  · exact hpage.purging task htask
  · rw [List.mem_singleton] at htask
    subst htask
    refine ⟨Nat.sub_le .., ?_⟩
    intro a ha b hb hlt hkind hnone hdec _
    have hquiet : a.status ≠ .syncing := by
      intro hsync
      rcases hdec with hbsync | ⟨d, hd, hdid⟩
      · have := hq.mutex a ha b hb hsync hbsync hkind hnone
        omega
      · have hbkind := (hq.decidedHere d hd b hb hdid.symm).1
        exact hq.quiet a ha ⟨d, hd, hdid ▸ hlt, hkind.trans hbkind, hnone⟩ hsync
    cases hs : a.status with
    | pending => exact Or.inl ⟨a, ha, rfl, rfl, by simp [QueueRow.unsent, hs]⟩
    | syncing => exact absurd hs hquiet
    | synced => exact Or.inr (Or.inl hs)
    | failed =>
      cases hsup : a.superseded with
      | false => exact Or.inl ⟨a, ha, rfl, rfl, by simp [QueueRow.unsent, hs, hsup]⟩
      | true =>
        rcases hq.flagged a ha hsup with ⟨-, hack⟩ | ⟨hpend, -⟩
        · exact Or.inr (Or.inr ⟨hs, hack, hsup⟩)
        · rw [hs] at hpend
          cases hpend

theorem Phone.Ok.sendNow (h : s.Ok) (hp : s.page = some p) {id : ℕ} (hs : s.sendNow p id = some s') : s'.Ok := by
  unfold Phone.sendNow at hs
  split at hs
  · rw [Option.some.injEq] at hs
    subst hs
    have hw : p.Within { p with callers := p.callers.erase id } :=
      .of_drain rfl rfl rfl rfl (List.Sublist.refl _)
    exact h.claimFor hp hw rfl id true (.refl _) rfl
  · cases hs

/-- A step of the page. -/
theorem Phone.Ok.page_step (h : s.Ok) (hp : s.page = some p) {action : QueueAction} (ht : s.tidy action)
    (hs : s.step action = some s') : s'.Ok := by
  cases action with
  | tick ms =>
    cases hs
    exact h.tick ms
  | otherCloses job =>
    cases hs
    exact h.otherCloses job
  | start => simp [Phone.step, hp] at hs
  | apply id =>
    obtain ⟨f, hf, rfl⟩ := Option.map_eq_some_iff.mp hs
    exact h.apply (List.mem_map_of_mem (List.mem_of_find?_eq_some hf))
  | die =>
    simp only [Phone.step, hp, Option.bind_eq_bind, Option.bind_some, Option.some.injEq] at hs
    exact hs ▸ h.die hp
  | queue actionType resourceId conflictIsError online =>
    simp only [Phone.step, hp, Option.bind_eq_bind, Option.bind_some, Option.some.injEq] at hs
    exact hs ▸ h.queue_row hp ..
  | sendNow id =>
    simp only [Phone.step, hp, Option.bind_eq_bind, Option.bind_some] at hs
    exact h.sendNow hp hs
  | answer f answer =>
    simp only [Phone.step, hp, Option.bind_eq_bind, Option.bind_some] at hs
    split at hs
    · rename_i hmay
      rw [Option.some.injEq] at hs
      exact hs ▸ h.answered hp hmay.1 hmay.2
    · cases hs
  | throwRefusal id =>
    simp only [Phone.step, hp, Option.bind_eq_bind, Option.bind_some] at hs
    split at hs <;> cases hs
    have hw : p.Within { p with throwing := p.throwing.erase id } := .of_drain rfl rfl rfl rfl (List.Sublist.refl _)
    exact h.paged hp hw rfl
  | retire task =>
    simp only [Phone.step, hp, Option.bind_eq_bind, Option.bind_some] at hs
    split at hs
    · rename_i hmem
      rw [Option.some.injEq] at hs
      exact hs ▸ h.retireStep hp hmem
    · cases hs
  | syncNow =>
    simp only [Phone.step, hp, Option.bind_eq_bind, Option.bind_some, Option.some.injEq] at hs
    exact hs ▸ h.paged hp p.syncNow_within p.syncNow_flights
  | drain =>
    simp only [Phone.step, hp, Option.bind_eq_bind, Option.bind_some] at hs
    obtain ⟨drain, hdrain, hs⟩ := Option.bind_eq_some_iff.mp hs
    exact h.drainStep hp hdrain hs
  | retry jobId ids =>
    simp only [Phone.step, hp, Option.bind_eq_bind, Option.bind_some, Option.some.injEq] at hs
    exact hs ▸ h.paged hp (p.within_retries _) rfl
  | retryStep task reached =>
    simp only [Phone.step, hp, Option.bind_eq_bind, Option.bind_some] at hs
    split at hs
    · rw [Option.some.injEq] at hs
      exact hs ▸ h.retryStep hp ht
    · cases hs
  | purge maxAgeDays =>
    simp only [Phone.step, hp, Option.bind_eq_bind, Option.bind_some, Option.some.injEq] at hs
    exact hs ▸ h.purge hp maxAgeDays
  | purgeStep task =>
    simp only [Phone.step, hp, Option.bind_eq_bind, Option.bind_some] at hs
    split at hs
    · rename_i hmem
      rw [Option.some.injEq] at hs
      exact hs ▸ h.purgeStep hp hmem
    · cases hs

/-- A tidy step keeps the queue in order. -/
theorem Phone.Ok.step (h : s.Ok) {action : QueueAction} (ht : s.tidy action) (hs : s.step action = some s') :
    s'.Ok := by
  cases hp : s.page with
  | some p => exact h.page_step hp ht hs
  | none =>
    -- without a page only the clock, the server and a new page move
    cases action with
    | tick ms =>
      cases hs
      exact h.tick ms
    | otherCloses job =>
      cases hs
      exact h.otherCloses job
    | start =>
      simp only [Phone.step, hp, Option.isNone_none, if_true, Option.some.injEq] at hs
      exact hs ▸ h.start
    | apply id =>
      obtain ⟨f, hf, rfl⟩ := Option.map_eq_some_iff.mp hs
      exact h.apply (List.mem_map_of_mem (List.mem_of_find?_eq_some hf))
    | _ => simp [Phone.step, hp] at hs

/-- A run of tidy steps keeps the queue in order. -/
theorem Phone.Ok.run (h : s.Ok) {actions : List QueueAction} (ht : s.tidyRun actions) (hs : s.run actions = some s') :
    s'.Ok := by
  induction actions generalizing s with
  | nil =>
    cases hs
    exact h
  | cons action rest ih =>
    obtain ⟨mid, hmid, hrest⟩ := Option.bind_eq_some_iff.mp hs
    exact ih (h.step ht.1 hmid) (ht.2 mid hmid) hrest

end Step

theorem Phone.Ok.new : Phone.Ok {} := by
  refine ⟨?_, by simp, by simp, by simp [InOrder]⟩
  constructor <;> simp [Phone.wire, Phone.decided]

/-- In every run whose retries write over rows as they read them, once a newer row of a kind has taken effect on the
    server no older one takes effect. -/
theorem latest_wins (actions : List QueueAction) (s : Phone) (htidy : Phone.tidyRun {} actions)
    (hrun : Phone.run {} actions = some s) :
    s.effects.Pairwise fun earlier later => ∀ b time a time', earlier = .own b time → later = .own a time' →
      b.sameKind a = true → b.id < a.id :=
  (Phone.Ok.new.run htidy hrun).inOrder

/-! ### Two closeouts of one job -/

section Closeouts

/-- Without a retry there is nothing to write over. -/
theorem Phone.tidyRun_of_no_retry {actions : List QueueAction} (s : Phone)
    (h : ∀ action ∈ actions, ∀ task reached, action ≠ .retryStep task reached) : s.tidyRun actions := by
  induction actions generalizing s with
  | nil => trivial
  | cons action rest ih =>
    refine ⟨?_, fun s' _ => ih s' fun a ha => h a (List.mem_cons_of_mem _ ha)⟩
    have hno := h action List.mem_cons_self
    cases action with
    | retryStep task reached => exact absurd rfl (hno task reached)
    | _ => trivial

/-- A closeout as the claim sends it at time 0. -/
def sentCloseout (id : ℕ) (caller : Bool) : Flight where
  row := {
    id := id, actionType := "job.closeout".toList, resourceId := "J-7".toList, conflictIsError := false
    createdAt := 0, status := .syncing, lastAttemptedAt := some 0 }
  caller := caller

/-- The closeout once the server has refused it in a drain. -/
def refusedCloseout : QueueRow := { (sentCloseout 1 false).row with status := .failed }

def queueCloseout (online : Bool) : QueueAction := .queue "job.closeout".toList "J-7".toList false online

/-- A closeout is refused in a drain, and the tech taps Retry. The page dies with it on the wire, it takes effect, and the
    next page sends it again. -/
def resentCloseout : List QueueAction :=
  let asked := RetryTask.asked refusedCloseout false [] [refusedCloseout]
  [.start, queueCloseout false, .syncNow, .drain, .drain, .drain, .answer (sentCloseout 1 false) (.status 422),
    .drain, .drain, .retry none (some [1]), .retryStep (.reading [refusedCloseout]) true,
    .retryStep (.walking [refusedCloseout] [refusedCloseout]) true, .retryStep asked true, .syncNow, .drain, .drain, .drain,
    .die, .apply 1, .tick 5, .start, .syncNow, .drain, .drain, .drain, .drain]

/-- A closeout that is sent at time 5. -/
def lateCloseout (id made : ℕ) : QueueRow :=
  { (sentCloseout id false).row with createdAt := made, lastAttemptedAt := some 5 }

/-- It lands, the second is refused and retired when the third lands, and what is left is purged. -/
def purgedCloseouts : List QueueAction :=
  let first := { lateCloseout 1 0 with firstMaybeRanAt := some 0 }
  let refused := { lateCloseout 2 5 with status := .failed }
  let third := lateCloseout 3 5
  let left := [{ first with status := .synced }, refused.retire, { third with status := .synced }]
  resentCloseout ++ [.answer ⟨first, false⟩ (.status 200), .drain, .drain, queueCloseout false, .syncNow, .drain, .drain,
    .drain, .answer ⟨lateCloseout 2 5, false⟩ (.status 422), .drain, .drain, queueCloseout true, .sendNow 3, .apply 3,
    .answer ⟨third, true⟩ (.status 200), .retire ⟨third, none⟩, .retire ⟨third, some [refused]⟩, .tick 1, .purge 0,
    .purgeStep ⟨6, left, false⟩, .purgeStep ⟨6, left, true⟩]

/-- What took effect, by id. -/
def Phone.landings (s : Phone) : List ℕ := s.effects.filterMap fun e => match e with
  | .own row _ => some row.id
  | .other _ _ => none

theorem latest_wins_purgedCloseouts :
    ∃ s, Phone.run {} purgedCloseouts = some s ∧ s.landings = [1, 3] ∧
      s.effects.Pairwise fun earlier later => ∀ b time a time', earlier = .own b time → later = .own a time' →
        b.sameKind a = true → b.id < a.id := by
  have hrun : (Phone.run {} purgedCloseouts).map Phone.landings = some [1, 3] := by decide +kernel
  obtain ⟨s, hs, hlandings⟩ := Option.map_eq_some_iff.mp hrun
  exact ⟨s, hs, hlandings, latest_wins purgedCloseouts s (by decide +kernel) hs⟩

/-- The first closeout is refused in a drain, the tech taps Retry twice, and the second tap's question to the server
    is slow. The first tap sends the closeout again; the second puts it back in line while it is on the wire, and the
    next closeout of the job goes past it. -/
def doubleTap : List QueueAction :=
  let read := RetryTask.reading [refusedCloseout]
  let walk := RetryTask.walking [refusedCloseout] [refusedCloseout]
  let asked := RetryTask.asked refusedCloseout false [] [refusedCloseout]
  [.start, queueCloseout false, .syncNow, .drain, .drain, .drain, .answer (sentCloseout 1 false) (.status 422),
    .drain, .drain, .retry none (some [1]), .retry none (some [1]), .retryStep read true, .retryStep read true,
    .retryStep walk true, .retryStep walk true, .retryStep asked true, .syncNow, .drain, .drain, .drain,
    .retryStep asked true, queueCloseout true, .sendNow 2, .apply 2, .answer (sentCloseout 2 true) (.status 200),
    .apply 1]

/-- The older closeout takes effect after the newer one. -/
theorem older_closeout_overtakes :
    ∃ s, Phone.run {} doubleTap = some s ∧ ¬ s.effects.Pairwise fun earlier later =>
      ∀ b time a time', earlier = .own b time → later = .own a time' → b.sameKind a = true → b.id < a.id := by
  have hrun : (Phone.run {} doubleTap).map (·.effects) =
      some [.own (sentCloseout 2 true).row 0, .own (sentCloseout 1 false).row 0] := by decide +kernel
  obtain ⟨s, hs, heffects⟩ := Option.map_eq_some_iff.mp hrun
  refine ⟨s, hs, ?_⟩
  rw [heffects]
  intro horder
  have hlt := (List.pairwise_cons.mp horder).1 _ (List.mem_singleton.mpr rfl) _ _ _ _ rfl rfl (by decide)
  exact absurd hlt (by decide)

end Closeouts

end Gdx
