import Mathlib.Data.List.AList
import GdxDispatch.Lib.Text
import GdxDispatch.Lib.TtlCache

/-! The denylist of revoked tokens: `core/denylist.py`.

    Each worker keeps its own map from a token's `jti` to the instant its revocation ends, and fans it out through one
    Redis. A worker with an entry of its own answers from it; one without asks Redis and keeps what it finds. Time is in
    microseconds, as a `datetime` has it; the text of an instant in Redis reads back as that instant. Redis answers every
    call here: the branches for its errors are left out. -/

namespace Gdx
open Lib

/-- A second, in microseconds. -/
def SECOND : ℕ := 1000000

def REDIS_KEY_PREFIX : Text := "ss7:denylist:".toList

/-- `_entries` of one worker. -/
abbrev DenyEntries := AList fun _ : Text => ℕ

/-- The workers' maps, the Redis they share, and the clock. -/
structure Denylist (W : Type) where
  entries : W → DenyEntries
  redis : TtlCache Text ℕ
  now : ℕ

namespace Denylist

variable {W : Type} [DecidableEq W]

/-- No revocation yet. -/
def fresh (now : ℕ) : Denylist W := ⟨fun _ => ∅, [], now⟩

def setEntries (s : Denylist W) (w : W) (m : DenyEntries) : Denylist W :=
  { s with entries := Function.update s.entries w m }

/-- Revoke `jti` until `expiresAt`. The whole seconds that are left are the entry's time in Redis; with none left, Redis
    is not written. -/
def add (s : Denylist W) (w : W) (jti : Text) (expiresAt : ℕ) : Denylist W :=
  if jti = [] then s
  else
    let s := s.setEntries w ((s.entries w).insert jti expiresAt)
    let ttlSeconds := (expiresAt - s.now) / SECOND
    if ttlSeconds = 0 then s
    else { s with redis := s.redis.set s.now (ttlSeconds * SECOND) (REDIS_KEY_PREFIX ++ jti) expiresAt }

/-- Whether `jti` is revoked, and the worker's map after the lookup. -/
def contains (s : Denylist W) (w : W) (jti : Text) : Bool × Denylist W :=
  if jti = [] then (false, s)
  else match (s.entries w).lookup jti with
    | some expiresAt =>
      if expiresAt ≤ s.now then (false, s.setEntries w ((s.entries w).erase jti)) else (true, s)
    | none =>
      match s.redis.get s.now (REDIS_KEY_PREFIX ++ jti) with
      | none => (false, s)
      | some expiresAt =>
        if expiresAt ≤ s.now then (false, s) else (true, s.setEntries w ((s.entries w).insert jti expiresAt))

/-- The entries of a worker that have ended. -/
def expired (s : Denylist W) (w : W) : List Text :=
  ((s.entries w).entries.filter fun e => decide (e.2 ≤ s.now)).map (·.1)

/-- Drop the worker's entries that have ended; the count dropped. -/
def purgeExpired (s : Denylist W) (w : W) : ℕ × Denylist W :=
  ((s.expired w).length, s.setEntries w ((s.expired w).foldl (fun m jti => m.erase jti) (s.entries w)))

end Denylist

/-- A call on some worker, or time that passes. -/
inductive DenyEvent (W : Type) where
  | add (w : W) (jti : Text) (expiresAt : ℕ)
  | contains (w : W) (jti : Text)
  | purgeExpired (w : W)
  | wait (time : ℕ)

namespace Denylist

variable {W : Type} [DecidableEq W] {s : Denylist W} {w w' : W} {jti k : Text} {e e' t : ℕ}

def step (s : Denylist W) : DenyEvent W → Denylist W
  | .add w jti expiresAt => s.add w jti expiresAt
  | .contains w jti => (s.contains w jti).2
  | .purgeExpired w => (s.purgeExpired w).2
  | .wait time => { s with now := s.now + time }

def run (s : Denylist W) (events : List (DenyEvent W)) : Denylist W := events.foldl step s

/-- The end of the most recent revocation of `jti`, after one more call. -/
def noteAdd (jti : Text) (last : Option ℕ) : DenyEvent W → Option ℕ
  | .add _ k expiresAt => if k = jti then some expiresAt else last
  | _ => last

/-- The end of the most recent revocation of `jti`, on any worker. -/
def lastAdd (jti : Text) (events : List (DenyEvent W)) : Option ℕ := events.foldl (noteAdd jti) none

/-- The call revokes for whole seconds, and no other worker keeps an entry that ends before the new one. -/
def FansOut (s : Denylist W) : DenyEvent W → Prop
  | .add w jti expiresAt => s.now < expiresAt →
      SECOND ∣ expiresAt - s.now ∧ ∀ w' ≠ w, ∀ e ∈ (s.entries w').lookup jti, expiresAt ≤ e
  | _ => True

/-- The condition holds at each call, in the state before it. -/
def Along (C : Denylist W → DenyEvent W → Prop) : Denylist W → List (DenyEvent W) → Prop
  | _, [] => True
  | s, e :: events => C s e ∧ Along C (s.step e) events

/-! ### One revocation -/

/-- Every worker's entry for `jti` ends at `e` or later, and Redis holds it until `e`. -/
structure Held (s : Denylist W) (jti : Text) (e : ℕ) : Prop where
  entries : ∀ w, ∀ e' ∈ (s.entries w).lookup jti, e ≤ e'
  redis : ∀ t < e, s.redis.get t (REDIS_KEY_PREFIX ++ jti) = some e

/-- A revocation that is held and not over is seen on every worker. -/
theorem Held.contains (h : Held s jti e) (hjti : jti ≠ []) (hnow : s.now < e) (w : W) : (s.contains w jti).1 = true := by
  unfold Denylist.contains
  rw [if_neg hjti]
  cases hlookup : (s.entries w).lookup jti with
  | some e' =>
    have hle := h.entries w e' hlookup
    dsimp only
    rw [if_neg (by omega)]
  | none =>
    dsimp only
    rw [h.redis s.now hnow]
    dsimp only
    rw [if_neg (by omega)]

theorem entries_setEntries (s : Denylist W) (w w' : W) (m : DenyEntries) :
    (s.setEntries w m).entries w' = if w' = w then m else s.entries w' := by
  unfold setEntries
  by_cases h : w' = w
  · rw [if_pos h, h]
    exact Function.update_self w m s.entries
  · rw [if_neg h]
    exact Function.update_of_ne h m s.entries

/-- One worker's map changed for `jti` only to an entry that ends no earlier. -/
theorem Held.setEntries (h : Held s jti e) {m : DenyEntries}
    (hm : ∀ e' ∈ m.lookup jti, e ≤ e') : Held (s.setEntries w m) jti e := by
  refine ⟨fun w' e' he' => ?_, h.redis⟩
  rw [entries_setEntries] at he'
  split at he'
  · exact hm e' he'
  · exact h.entries w' e' he'

theorem lookup_foldl_erase {m : DenyEntries} {gone : List Text}
    (h : e ∈ (gone.foldl (fun m k => m.erase k) m).lookup jti) : e ∈ m.lookup jti := by
  induction gone generalizing m with
  | nil => exact h
  | cons k gone ih =>
    have h := ih h
    by_cases hk : jti = k
    · rw [hk, AList.lookup_erase] at h
      cases h
    · rwa [AList.lookup_erase_ne hk] at h

/-- A lookup or a purge leaves what is held. -/
theorem Held.look (h : Held s jti e) (hnow : s.now < e) (w : W) (k : Text) : Held (s.contains w k).2 jti e := by
  unfold Denylist.contains
  split
  · exact h
  · split
    · rename_i e' hlookup
      split
      · refine h.setEntries fun e'' he'' => ?_
        by_cases hk : jti = k
        · rw [hk, AList.lookup_erase] at he''
          cases he''
        · rw [AList.lookup_erase_ne hk] at he''
          exact h.entries w e'' he''
      · exact h
    · rename_i hlookup
      split
      · exact h
      · rename_i e' hget
        split
        · exact h
        · refine h.setEntries fun e'' he'' => ?_
          by_cases hk : jti = k
          · rw [← hk, h.redis s.now hnow, Option.some.injEq] at hget
            rw [hk, AList.lookup_insert, Option.mem_some_iff] at he''
            omega
          · rw [AList.lookup_insert_ne hk] at he''
            exact h.entries w e'' he''

theorem Held.purge (h : Held s jti e) (w : W) : Held (s.purgeExpired w).2 jti e :=
  h.setEntries fun e' he' => h.entries w e' (lookup_foldl_erase he')

/-- A revocation of another token leaves what is held. -/
theorem Held.addOther (h : Held s jti e) (hk : k ≠ jti) (w : W) (expiresAt : ℕ) : Held (s.add w k expiresAt) jti e := by
  have hentries : Held (s.setEntries w ((s.entries w).insert k expiresAt)) jti e := by
    refine h.setEntries fun e' he' => ?_
    rw [AList.lookup_insert_ne hk.symm] at he'
    exact h.entries w e' he'
  unfold Denylist.add
  split
  · exact h
  · dsimp only
    split
    · exact hentries
    · refine ⟨hentries.entries, fun t ht => ?_⟩
      rw [← h.redis t ht]
      refine TtlCache.get_set_other fun heq => hk ?_
      exact (List.append_cancel_left heq).symm

/-- A revocation that fans out is held. -/
theorem Held.ofAdd (hjti : jti ≠ []) (hnow : s.now < e) (hfans : s.FansOut (.add w jti e)) : Held (s.add w jti e) jti e := by
  obtain ⟨hwhole, hothers⟩ := hfans hnow
  have hsecond : 0 < SECOND := by decide
  have httl : (e - s.now) / SECOND * SECOND = e - s.now := Nat.div_mul_cancel hwhole
  have hpos : (e - s.now) / SECOND ≠ 0 := by
    intro hzero
    rw [hzero] at httl
    omega
  unfold Denylist.add
  rw [if_neg hjti]
  dsimp only
  rw [show (s.setEntries w ((s.entries w).insert jti e)).now = s.now from rfl, if_neg hpos]
  constructor
  · intro w' e' he'
    rw [show (_ : Denylist W).entries = (s.setEntries w ((s.entries w).insert jti e)).entries from rfl,
      entries_setEntries] at he'
    split at he'
    · rw [AList.lookup_insert, Option.mem_some_iff] at he'
      omega
    · rename_i hne
      exact hothers w' hne e' he'
  · intro t ht
    refine TtlCache.get_set_self ?_
    show t < s.now + _
    rw [httl]
    omega

/-! ### Runs -/

/-- Every revocation that is the last of its token and not over is held. -/
def AllHeld (s : Denylist W) (last : Text → Option ℕ) : Prop :=
  ∀ jti ≠ [], ∀ e, last jti = some e → s.now < e → Held s jti e

theorem AllHeld.step {last : Text → Option ℕ} (h : AllHeld s last) {event : DenyEvent W} (hfans : s.FansOut event) :
    AllHeld (s.step event) fun jti => noteAdd jti (last jti) event := by
  intro jti hjti e hlast hnow
  cases event with
  | add w k expiresAt =>
    have hclock : (s.add w k expiresAt).now = s.now := by
      unfold Denylist.add
      split
      · rfl
      · dsimp only
        split <;> rfl
    have hnow : s.now < e := hclock ▸ hnow
    unfold noteAdd at hlast
    dsimp only at hlast
    split at hlast
    · rename_i hk
      subst hk
      obtain rfl := Option.some.inj hlast
      exact .ofAdd hjti hnow hfans
    · rename_i hk
      exact (h jti hjti e hlast hnow).addOther hk w expiresAt
  | contains w k =>
    have hclock : (s.contains w k).2.now = s.now := by
      unfold Denylist.contains
      split
      · rfl
      · split
        · split <;> rfl
        · split
          · rfl
          · split <;> rfl
    have hnow : s.now < e := hclock ▸ hnow
    exact (h jti hjti e hlast hnow).look hnow w k
  | purgeExpired w => exact (h jti hjti e hlast hnow).purge w
  | wait time =>
    have hnow : s.now + time < e := hnow
    obtain ⟨hentries, hredis⟩ := h jti hjti e hlast (by omega)
    exact ⟨hentries, hredis⟩

theorem AllHeld.run {last : Text → Option ℕ} (h : AllHeld s last) {events : List (DenyEvent W)}
    (halong : Along FansOut s events) : AllHeld (s.run events) fun jti => events.foldl (noteAdd jti) (last jti) := by
  induction events generalizing s last with
  | nil => exact h
  | cons event events ih => exact ih (h.step halong.1) halong.2

end Denylist

/-- Where each revocation fans out, it is seen on every worker until it ends. -/
theorem revocation_on_every_worker {W : Type} [DecidableEq W] (now : ℕ) (events : List (DenyEvent W))
    (halong : (Denylist.fresh now).Along Denylist.FansOut events) {jti : Text} (hjti : jti ≠ []) {e : ℕ}
    (hlast : Denylist.lastAdd jti events = some e) (hnow : ((Denylist.fresh now).run events).now < e) (w : W) :
    (((Denylist.fresh now).run events).contains w jti).1 = true := by
  have hstart : Denylist.AllHeld (Denylist.fresh now : Denylist W) fun _ => none := by
    intro jti _ e hlast
    cases hlast
  exact (hstart.run halong jti hjti e hlast hnow).contains hjti hnow w

/-- A revocation of ten seconds, looked up on the other worker after nine and a half. -/
theorem revocation_on_every_worker_late :
    let events : List (DenyEvent Bool) := [.add true "a".toList 10500000, .wait 9500000]
    (((Denylist.fresh 500000).run events).contains false "a".toList).1 = true := by
  refine revocation_on_every_worker 500000 _ ?_ (by decide) rfl (by decide) false
  refine ⟨?_, trivial, trivial⟩
  intro _
  refine ⟨by decide, ?_⟩
  intro w _ e he
  cases he

/-- A revocation of nine seconds and a half is in Redis for nine, so the other worker loses it half a second early. -/
theorem revocation_lost_in_last_second :
    let events : List (DenyEvent Bool) := [.add true "a".toList 10000000, .wait 9200000]
    Denylist.lastAdd "a".toList events = some 10000000 ∧ ((Denylist.fresh 500000).run events).now < 10000000 ∧
      (((Denylist.fresh 500000).run events).contains false "a".toList).1 = false := by
  decide

/-- A worker that has looked a revocation up keeps its end, and does not learn of a later one. -/
example :
    let events : List (DenyEvent Bool) :=
      [.add true "a".toList 10000000, .contains false "a".toList, .add true "a".toList 20000000, .wait 10000000]
    (((Denylist.fresh 0).run events).contains false "a".toList).1 = false := by
  decide

end Gdx
