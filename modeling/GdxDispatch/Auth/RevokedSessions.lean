import GdxDispatch.Auth.LinearRotation

/-! A revoked session stays dead, while the used set lasts.

    Here the calls come one after the other, with any time between them, so no race is left. What remains is the
    deadline of the shared set: `revoke_user_sessions` sets it to its own seven days, and takes it back from the thirty
    that the tokens live. The family of a user always outlives its tokens. -/

namespace Gdx
open Lib

variable {clock : JwtClock} {s s' : Sessions} {j c rid sub : ℕ} {ev : SessionEvent} {t : RefreshToken} {f : Stage} {b : Bool}

/-- A whole call, or time between calls. -/
inductive SessionCall where
  | login (sub : ℕ)
  | refresh (t : RefreshToken) (denied eligible : Bool)
  | logout (t : RefreshToken)
  | revoke (sub : ℕ)
  | wait (time : ℕ)
  deriving DecidableEq

/-- The commands of a call: `refresh` has nine at most. -/
def SessionCall.events : SessionCall → List SessionEvent
  | .login sub => .login 0 sub :: List.replicate 9 (.run 0 true)
  | .refresh t denied eligible => .refresh 0 t denied :: List.replicate 9 (.run 0 eligible)
  | .logout t => .logout 0 t :: List.replicate 9 (.run 0 true)
  | .revoke sub => .revoke 0 sub :: List.replicate 9 (.run 0 true)
  | .wait time => [.wait time]

namespace Sessions

/-- Call after call. -/
def serve (clock : JwtClock) (s : Sessions) (calls : List SessionCall) : Sessions :=
  calls.foldl (fun s call => s.run clock call.events) s

/-- When time passes, the used set does not lapse while it holds a token that is still accepted. -/
def Lasts (clock : JwtClock) (s : Sessions) : SessionCall → Prop
  | .wait time => s.used.live (s.now + time) = true ∨
      ∀ t ∈ s.tokens, t.jti ∈ s.used.members → clock.accepts t.exp (s.now + time) = false
  | _ => True

instance Lasts.decidable (clock : JwtClock) (s : Sessions) : ∀ call, Decidable (s.Lasts clock call)
  | .wait _ => inferInstanceAs (Decidable (_ ∨ _))
  | .login _ | .refresh _ _ _ | .logout _ | .revoke _ => .isTrue trivial

def LastsAll (clock : JwtClock) : Sessions → List SessionCall → Prop
  | _, [] => True
  | s, call :: calls => s.Lasts clock call ∧ LastsAll clock (s.run clock call.events) calls

instance LastsAll.decidable (clock : JwtClock) : ∀ s calls, Decidable (LastsAll clock s calls)
  | _, [] => .isTrue trivial
  | s, call :: calls =>
    have := LastsAll.decidable clock (s.run clock call.events) calls
    inferInstanceAs (Decidable (_ ∧ _))

end Sessions

/-- How many commands a request has left, at most. -/
def Stage.left : Stage → ℕ
  | .idle => 0
  | .check _ => 9
  | .mark _ => 8
  | .marked _ => 7
  | .user _ => 6
  | .issue _ => 5
  | .insert _ _ => 4
  | .inserted _ _ => 3
  | .replay _ => 3
  | .cache _ _ | .loginInsert _ | .logoutMark _ | .revokeRead _ _ _ => 2
  | .cached _ _ | .loginInserted _ | .logoutMarked _ | .revokeWrite _ _ _ _ => 1

/-- The request has put a token into this family and has yet to set the deadline of the key. -/
def Stage.Extends (sub : ℕ) : Stage → Prop
  | .inserted t _ => t.sub = sub
  | .loginInserted new => new.sub = sub
  | _ => False

namespace Sessions

theorem flights_endRevoke (s : Sessions) (sub : ℕ) (call : Bool) : (s.endRevoke sub call).flights = s.flights := by
  cases call <;> rfl

/-- A command brings its own request on, and no other. -/
theorem runFlight_flights (s : Sessions) (rid : ℕ) (b : Bool) {f : Stage} (hf : f ≠ .idle) :
    ∃ f', (s.runFlight rid b f).flights = Function.update s.flights rid f' ∧ f'.left < f.left := by
  cases f with
  | idle => exact absurd rfl hf
  | check t =>
    simp only [runFlight]
    split <;> exact ⟨_, rfl, by simp [Stage.left]⟩
  | replay t =>
    simp only [runFlight]
    split
    · exact ⟨_, rfl, by simp [Stage.left]⟩
    · split
      · exact ⟨_, rfl, by simp [Stage.left]⟩
      · exact ⟨_, rfl, by simp [Stage.left]⟩
  | user t =>
    simp only [runFlight]
    split <;> exact ⟨_, rfl, by simp [Stage.left]⟩
  | revokeRead sub ttl call =>
    simp only [runFlight]
    split
    · exact ⟨_, flights_endRevoke _ sub call, by simp [Stage.left]⟩
    · exact ⟨_, rfl, by simp [Stage.left]⟩
  | revokeWrite sub ttl call members => exact ⟨_, flights_endRevoke _ sub call, by simp [Stage.left]⟩
  | mark t => exact ⟨_, rfl, by simp [Stage.left]⟩
  | marked t => exact ⟨_, rfl, by simp [Stage.left]⟩
  | issue t => exact ⟨_, rfl, by simp [Stage.left]⟩
  | insert t new => exact ⟨_, rfl, by simp [Stage.left]⟩
  | inserted t new => exact ⟨_, rfl, by simp [Stage.left]⟩
  | cache t new => exact ⟨_, rfl, by simp [Stage.left]⟩
  | cached t new => exact ⟨_, rfl, by simp [Stage.left]⟩
  | loginInsert new => exact ⟨_, rfl, by simp [Stage.left]⟩
  | loginInserted new => exact ⟨_, rfl, by simp [Stage.left]⟩
  | logoutMark jti => exact ⟨_, rfl, by simp [Stage.left]⟩
  | logoutMarked jti => exact ⟨_, rfl, by simp [Stage.left]⟩

/-- Only this request may be under way. -/
def Alone (s : Sessions) (rid : ℕ) : Prop := ∀ rid', rid' ≠ rid → s.flights rid' = .idle

theorem Alone.run_step (clock : JwtClock) (ha : s.Alone rid) (b : Bool) :
    (s.step clock (.run rid b)).Alone rid ∧
      ((s.step clock (.run rid b)).flights rid).left ≤ (s.flights rid).left - 1 := by
  show (s.runFlight rid b (s.flights rid)).Alone rid ∧ _
  by_cases hf : s.flights rid = .idle
  · have hsame : s.step clock (.run rid b) = s := by
      show s.runFlight rid b (s.flights rid) = s
      rw [hf]
      rfl
    rw [hsame, hf]
    exact ⟨ha, le_rfl⟩
  · obtain ⟨f', hupdate, hlt⟩ := s.runFlight_flights rid b hf
    refine ⟨fun rid' hne => ?_, ?_⟩
    · rw [hupdate, Function.update_of_ne hne]
      exact ha rid' hne
    · show ((s.runFlight rid b (s.flights rid)).flights rid).left ≤ _
      rw [hupdate, Function.update_self]
      exact Nat.le_sub_one_of_lt hlt

/-- With no other request under way, a command is calm. -/
theorem Alone.calm (ha : s.Alone rid) : s.Calm clock (.run rid b) := by
  refine ⟨fun t hf _ => ⟨?_, ?_⟩, fun sub ttl call hf rid' henters => ?_⟩
  · rintro ⟨rid', t', hne, hmark, -⟩
    rw [ha rid' hne] at hmark
    cases hmark
  · rintro ⟨rid', ttl, call, members, hwrite⟩
    by_cases heq : rid' = rid
    · rw [heq, hf] at hwrite
      cases hwrite
    · rw [ha rid' heq] at hwrite
      cases hwrite
  · by_cases heq : rid' = rid
    · rw [heq, hf] at henters
      exact henters
    · rw [ha rid' heq] at henters
      exact henters

/-! ### The deadline of a family -/

/-- What a step does to a family: nothing, a new deadline, or a command that a new deadline follows. -/
theorem Does.extends (h : s.Does clock ev s') (sub : ℕ) :
    (s'.family sub = s.family sub ∧
      ((∃ rid, (s.flights rid).Extends sub) → ∃ rid, (s'.flights rid).Extends sub)) ∨
    (∃ rid, (s'.flights rid).Extends sub) ∨ (∃ set, s'.family sub = RedisSet.expire s.now REFRESH_TTL set) ∨
      s'.family sub = .empty := by
  have hkeep : ∀ rid g, ¬ (s.flights rid).Extends sub → (∃ r, (s.flights r).Extends sub) →
      ∃ r, ((s.fly rid g).flights r).Extends sub := by
    rintro rid g hno ⟨r, hr⟩
    have hne : r ≠ rid := by
      rintro rfl
      exact hno hr
    refine ⟨r, ?_⟩
    rw [flights_fly, if_neg hne]
    exact hr
  cases h
  case stay => exact .inl ⟨rfl, id⟩
  case wait => exact .inl ⟨rfl, id⟩
  case insert rid eligible t new hf =>
    by_cases heq : sub = t.sub
    · refine .inr (.inl ⟨rid, ?_⟩)
      show ((s.fly rid _).flights rid).Extends sub
      rw [flights_fly, if_pos rfl]
      exact heq.symm
    · exact .inl ⟨Function.update_of_ne heq _ _, hkeep rid _ (by simp [hf, Stage.Extends])⟩
  case loginInsert rid eligible new hf =>
    by_cases heq : sub = new.sub
    · refine .inr (.inl ⟨rid, ?_⟩)
      show ((s.fly rid _).flights rid).Extends sub
      rw [flights_fly, if_pos rfl]
      exact heq.symm
    · exact .inl ⟨Function.update_of_ne heq _ _, hkeep rid _ (by simp [hf, Stage.Extends])⟩
  case inserted rid eligible t new hf =>
    by_cases heq : sub = t.sub
    · subst heq
      exact .inr (.inr (.inl ⟨_, Function.update_self _ _ _⟩))
    · exact .inl ⟨Function.update_of_ne heq _ _, hkeep rid _ (by rw [hf]; exact fun h => heq h.symm)⟩
  case loginInserted rid eligible new hf =>
    by_cases heq : sub = new.sub
    · subst heq
      exact .inr (.inr (.inl ⟨_, Function.update_self _ _ _⟩))
    · exact .inl ⟨Function.update_of_ne heq _ _, hkeep rid _ (by rw [hf]; exact fun h => heq h.symm)⟩
  case revokeWrite rid eligible sub₀ ttl call members hf =>
    by_cases heq : sub = sub₀
    · subst heq
      exact .inr (.inr (.inr (Function.update_self _ _ _)))
    · exact .inl ⟨Function.update_of_ne heq _ _, hkeep rid _ (by simp [hf, Stage.Extends])⟩
  case revoke rid sub₀ ttl call f hf hfrom httl hev =>
    refine .inl ⟨rfl, hkeep rid _ ?_⟩
    rw [hf]
    obtain rfl | ⟨t, rfl | rfl⟩ := hfrom <;> exact id
  all_goals exact .inl ⟨rfl, hkeep _ _ (by simp [Stage.Extends, *])⟩

theorem Does.exp (h : s.Does clock ev s') (ht : t ∈ s'.tokens) : t ∈ s.tokens ∨ t.exp = s.now + REFRESH_TTL := by
  cases h <;> grind [fly, newToken]

/-- A key's deadline is no earlier than the tokens under it expire, or a later one follows. -/
structure Extended (s : Sessions) : Prop where
  exp : ∀ t ∈ s.tokens, t.exp ≤ s.now + REFRESH_TTL
  family : ∀ t ∈ s.tokens, ∀ sub, t.jti ∈ (s.family sub).members → ∀ d ∈ (s.family sub).expires,
    t.exp ≤ d ∨ ∃ rid, (s.flights rid).Extends sub

theorem Extended.step (he : s.Extended) (hl : s.Listed) (h : s.Does clock ev s') : s'.Extended := by
  have hexp : ∀ t ∈ s'.tokens, t.exp ≤ s.now + REFRESH_TTL := by
    intro t ht
    obtain hold | hnew := h.exp ht
    · exact he.exp t hold
    · exact hnew.le
  refine ⟨fun t ht => (hexp t ht).trans (Nat.add_le_add_right h.now_le _), fun t ht sub hmem d hd => ?_⟩
  obtain ⟨hsame, hkeep⟩ | hext | ⟨set, hset⟩ | hempty := h.extends sub
  · rw [hsame] at hmem hd
    obtain hold | ⟨hnext, -, -⟩ := h.tokens ht
    · exact (he.family t hold sub hmem d hd).imp_right hkeep
    · exact absurd hnext (Nat.ne_of_lt (hl.family sub _ hmem))
  · exact .inr hext
  · rw [hset] at hmem hd
    left
    unfold RedisSet.expire at hmem hd
    split at hmem
    · cases hmem
    · rw [if_neg ‹_›] at hd
      cases hd
      exact hexp t ht
  · rw [hempty] at hmem
    cases hmem

/-! ### Logged out -/

theorem Does.loggingOut (h : s.Does clock ev s') (hf : s'.flights rid = .logoutMarked j) :
    s.flights rid = .logoutMarked j ∨ s.flights rid = .logoutMark j ∧ j ∈ s'.used.members := by
  cases h <;> grind [flights_fly, RedisSet.mem_sadd]

theorem Does.loggedOut (h : s.Does clock ev s') (hj : j ∈ s'.loggedOut) :
    j ∈ s.loggedOut ∨ ∃ rid, s.flights rid = .logoutMarked j ∧ ev.runs = some rid := by
  cases h <;> grind [fly, SessionEvent.runs]

theorem Does.loggedOut_subset (h : s.Does clock ev s') : s.loggedOut ⊆ s'.loggedOut := by
  cases h <;> grind [fly]

/-- A token that a logout carried is spent, and nobody is about to exchange it. -/
structure OutOk (clock : JwtClock) (s : Sessions) : Prop where
  marked : ∀ rid j, s.flights rid = .logoutMarked j → s.Gone clock j ∧ j < s.nextJti
  dead : ∀ j ∈ s.loggedOut, s.Gone clock j ∧ j < s.nextJti
  idle : ∀ rid t, (s.flights rid).minting = some t → t.jti ∉ s.loggedOut

theorem OutOk.step (ho : s.OutOk clock) (hs : s.Sound clock) (h : s.Does clock ev s') (ha : ∃ rid, s.Alone rid) :
    s'.OutOk clock := by
  have hkeep : ∀ j, s.Gone clock j ∧ j < s.nextJti → s'.Gone clock j ∧ j < s'.nextJti :=
    fun j hj => ⟨hj.1.step h hs.keptUsed hj.2, Nat.lt_of_lt_of_le hj.2 h.tokens_subset.2⟩
  refine ⟨fun rid j hf => ?_, fun j hj => ?_, fun rid t hm hj => ?_⟩
  · obtain hold | ⟨hmark, hmem⟩ := h.loggingOut hf
    · exact hkeep j (ho.marked rid j hold)
    · exact ⟨.inl hmem, Nat.lt_of_lt_of_le (hs.listed.logoutMark rid j hmark) h.tokens_subset.2⟩
  · obtain hold | ⟨rid, hf, -⟩ := h.loggedOut hj
    · exact hkeep j (ho.dead j hold)
    · exact hkeep j (ho.marked rid j hf)
  · obtain hold | ⟨rid₀, hf₀, hev₀⟩ := h.loggedOut hj
    · obtain hm | ⟨hf, hnew, -⟩ := h.minting hm
      · exact ho.idle rid t hm hold
      · exact hnew ((ho.dead _ hold).1.found hs.keptUsed hf)
    · -- The logout is the one request under way.
      obtain hm | ⟨hf, -, hev⟩ := h.minting hm
      · obtain ⟨rid₁, halone⟩ := ha
        have hbusy : ∀ rid, s.flights rid ≠ .idle → rid = rid₁ := fun rid hne => by
          by_contra h
          exact hne (halone rid h)
        have h₀ := hbusy rid₀ (by rw [hf₀]; exact nofun)
        have h₁ := hbusy rid (by intro h; rw [h] at hm; cases hm)
        rw [h₁, ← h₀, hf₀] at hm
        cases hm
      · obtain rfl := Option.some.inj (hev.symm.trans hev₀)
        rw [hf₀] at hf
        cases hf

/-! ### Calls -/

/-- The session of this token was ended. -/
def Ended (s : Sessions) (j : ℕ) : Prop := j ∈ s.revoked ∨ j ∈ s.loggedOut

/-- What holds with at most the one request under way. -/
structure Steady (clock : JwtClock) (s : Sessions) : Prop where
  sound : s.Sound clock
  linear : s.Linear clock
  revocable : s.Revocable clock
  extended : s.Extended
  out : s.OutOk clock
  alone : s.Alone 0

/-- An ended session takes no part in a step: nothing more is exchanged for its token. -/
theorem Steady.ended (hst : s.Steady clock) (h : s.Does clock ev s') (hj : s.Ended j) :
    s'.Ended j ∧ ∀ c, (j, c) ∈ s'.exchanges → (j, c) ∈ s.exchanges := by
  refine ⟨hj.imp (fun h' => h.revoked_subset h') fun h' => h.loggedOut_subset h', fun c hex => ?_⟩
  obtain hold | ⟨rid, t, hf, heq, -⟩ := h.exchanges hex
  · exact hold
  · cases heq
    have hm : (s.flights rid).minting = some t := by rw [hf]; rfl
    obtain hrev | hout := hj
    · exact absurd hrev (hst.revocable.idle rid t hm)
    · exact absurd hout (hst.out.idle rid t hm)

theorem Steady.step (hst : s.Steady clock) (hc : s.Calm clock ev) (ha : (s.step clock ev).Alone 0) :
    (s.step clock ev).Steady clock := by
  have h := step_does clock s ev
  exact ⟨hst.sound.step h hc, hst.linear.step hst.sound h hc, hst.revocable.step hst.linear hst.sound h hc,
    hst.extended.step hst.sound.listed h, hst.out.step hst.sound h ⟨0, hst.alone⟩, ha⟩

/-- A call that was begun runs to its end. -/
theorem Steady.finish {n : ℕ} (hst : s.Steady clock) (hn : (s.flights 0).left ≤ n) (b : Bool) :
    (s.run clock (List.replicate n (.run 0 b))).Steady clock ∧
      (s.run clock (List.replicate n (.run 0 b))).flights 0 = .idle ∧
      ∀ j, s.Ended j → (s.run clock (List.replicate n (.run 0 b))).Ended j ∧
        ∀ c, (j, c) ∈ (s.run clock (List.replicate n (.run 0 b))).exchanges → (j, c) ∈ s.exchanges := by
  induction n generalizing s with
  | zero =>
    refine ⟨hst, ?_, fun j hj => ⟨hj, fun c hex => hex⟩⟩
    show s.flights 0 = .idle
    cases hf : s.flights 0 <;> rw [hf] at hn <;> simp [Stage.left] at hn
  | succ n ih =>
    obtain ⟨halone, hleft⟩ := Alone.run_step clock hst.alone b
    obtain ⟨hsteady, hidle, hended⟩ := ih (hst.step hst.alone.calm halone) (by omega)
    refine ⟨hsteady, hidle, fun j hj => ?_⟩
    have hone := hst.ended (step_does clock s (.run 0 b)) hj
    have hrest := hended j hone.1
    exact ⟨hrest.1, fun c hex => hone.2 c (hrest.2 c hex)⟩

/-- Between the calls nothing is under way. -/
structure Rested (clock : JwtClock) (s : Sessions) : Prop extends s.Steady clock where
  rest : s.flights 0 = .idle

theorem Rested.idle (hr : s.Rested clock) (rid : ℕ) : s.flights rid = .idle := by
  by_cases h : rid = 0
  · rw [h]
    exact hr.rest
  · exact hr.alone rid h

/-- While time passes, the families outlive their tokens. -/
theorem Rested.calm_wait (hr : s.Rested clock) {time : ℕ} (hlast : s.Lasts clock (.wait time)) :
    s.Calm clock (.wait time) := by
  -- Nothing is being looked up, so a presentable token is an accepted one.
  have hnow : ∀ j, { s with now := s.now + time }.Presentable clock j →
      ∃ t ∈ s.tokens, t.jti = j ∧ clock.accepts t.exp (s.now + time) = true := by
    rintro j (h | ⟨rid, t, hf, -⟩)
    · exact h
    · have hf' : s.flights rid = .check t := hf
      rw [hr.idle rid] at hf'
      cases hf'
  refine ⟨?_, fun sub => ?_⟩
  · refine hlast.imp id fun hno j hj hp => ?_
    obtain ⟨t, ht, rfl, hok⟩ := hnow j hp
    rw [hno t ht hj] at hok
    cases hok
  · by_cases hlive : (s.family sub).live (s.now + time) = true
    · exact .inl hlive
    · refine .inr fun j hj hp => ?_
      obtain ⟨t, ht, rfl, hok⟩ := hnow j hp
      have hlt := clock.past _ _ hok
      unfold RedisSet.live at hlive
      cases hd : (s.family sub).expires with
      | none =>
        rw [hd] at hlive
        exact hlive rfl
      | some d =>
        rw [hd] at hlive
        have hle : d ≤ s.now + time := by simpa using hlive
        obtain hexp | ⟨rid, hext⟩ := hr.extended.family t ht sub hj d hd
        · exact absurd hlt (Nat.not_lt.mpr (hexp.trans hle))
        · rw [hr.idle rid] at hext
          exact hext

theorem left_le (f : Stage) : f.left ≤ 9 := by
  cases f <;> simp [Stage.left]

/-- A request that comes in while nothing is under way. -/
theorem Rested.begin (hr : s.Rested clock) (ev : SessionEvent) (f : Stage) (b : Bool) (hcalm : s.Calm clock ev)
    (hflights : (s.step clock ev).flights = Function.update s.flights 0 f ∨ (s.step clock ev).flights = s.flights) :
    (s.run clock (ev :: List.replicate 9 (.run 0 b))).Rested clock ∧
      ∀ j, s.Ended j → (s.run clock (ev :: List.replicate 9 (.run 0 b))).Ended j ∧
        ∀ c, (j, c) ∈ (s.run clock (ev :: List.replicate 9 (.run 0 b))).exchanges → (j, c) ∈ s.exchanges := by
  have halone : (s.step clock ev).Alone 0 := by
    intro rid hne
    obtain h | h := hflights
    · rw [h, Function.update_of_ne hne]
      exact hr.alone rid hne
    · rw [h]
      exact hr.alone rid hne
  have hst := hr.toSteady.step hcalm halone
  obtain ⟨hsteady, hidle, hended⟩ := hst.finish (left_le _) b
  refine ⟨⟨hsteady, hidle⟩, fun j hj => ?_⟩
  have hone := hr.toSteady.ended (step_does clock s ev) hj
  have hrest := hended j hone.1
  exact ⟨hrest.1, fun c hex => hone.2 c (hrest.2 c hex)⟩

/-- A call leaves nothing under way, and gives nothing for the token of an ended session. -/
theorem Rested.call (hr : s.Rested clock) {call : SessionCall} (hlast : s.Lasts clock call) :
    (s.run clock call.events).Rested clock ∧ ∀ j, s.Ended j → (s.run clock call.events).Ended j ∧
      ∀ c, (j, c) ∈ (s.run clock call.events).exchanges → (j, c) ∈ s.exchanges := by
  cases call with
  | login sub =>
    refine hr.begin (.login 0 sub) (.loginInsert (s.newToken sub)) true ?_ (.inl ?_)
    · rintro ⟨rid, ttl, call, members, hf⟩
      rw [hr.idle rid] at hf
      cases hf
    · rw [Sessions.step, if_pos hr.rest]
      rfl
  | refresh t denied eligible =>
    refine hr.begin (.refresh 0 t denied) (if denied then .revokeRead t.sub REVOKE_TTL true else .check t) eligible
      trivial ?_
    rw [Sessions.step]
    split
    · exact .inl rfl
    · exact .inr rfl
  | logout t =>
    refine hr.begin (.logout 0 t) (.logoutMark t.jti) true trivial ?_
    rw [Sessions.step]
    split
    · exact .inl rfl
    · exact .inr rfl
  | revoke sub =>
    refine hr.begin (.revoke 0 sub) (.revokeRead sub REVOKE_TTL true) true trivial (.inl ?_)
    rw [Sessions.step, if_pos hr.rest]
    rfl
  | wait time =>
    have hst := hr.toSteady.step (hr.calm_wait hlast) hr.alone
    exact ⟨⟨hst, hr.rest⟩, fun j hj => hr.toSteady.ended (step_does clock s (.wait time)) hj⟩

theorem Rested.serve {calls : List SessionCall} (hr : s.Rested clock) (hlast : LastsAll clock s calls) :
    (s.serve clock calls).Rested clock ∧ ∀ j, s.Ended j → ∀ c, (j, c) ∈ (s.serve clock calls).exchanges →
      (j, c) ∈ s.exchanges := by
  induction calls generalizing s with
  | nil => exact ⟨hr, fun _ _ _ hex => hex⟩
  | cons call calls ih =>
    obtain ⟨hrest, hended⟩ := hr.call hlast.1
    obtain ⟨hfinal, hafter⟩ := ih hrest hlast.2
    exact ⟨hfinal, fun j hj c hex => (hended j hj).2 c (hafter j (hended j hj).1 c hex)⟩

theorem serve_append (s : Sessions) (before after : List SessionCall) :
    s.serve clock (before ++ after) = (s.serve clock before).serve clock after := List.foldl_append

theorem lastsAll_append {before after : List SessionCall} (h : LastsAll clock s (before ++ after)) :
    LastsAll clock s before ∧ LastsAll clock (s.serve clock before) after := by
  induction before generalizing s with
  | nil => exact ⟨trivial, h⟩
  | cons call calls ih =>
    obtain ⟨hcalls, hafter⟩ := ih h.2
    exact ⟨⟨h.1, hcalls⟩, hafter⟩

theorem rested_fresh (clock : JwtClock) (now : ℕ) : (fresh now).Rested clock :=
  ⟨⟨sound_fresh clock now, linear_fresh clock now, revocable_fresh clock now,
    ⟨fun _ h => (nomatch h), fun _ h => (nomatch h)⟩,
    ⟨fun _ _ h => (nomatch h), fun _ h => (nomatch h), fun _ _ h => (nomatch h)⟩, fun _ _ => rfl⟩, rfl⟩

theorem ended_step (hj : s.Ended j) (ev : SessionEvent) : (s.step clock ev).Ended j := by
  have h := step_does clock s ev
  exact hj.imp (fun h' => h.revoked_subset h') fun h' => h.loggedOut_subset h'

theorem ended_run (hj : s.Ended j) (events : List SessionEvent) : (s.run clock events).Ended j := by
  induction events generalizing s with
  | nil => exact hj
  | cons ev events ih => exact ih (ended_step hj ev)

/-- A call that ends the session of this token. -/
def Ends (t : RefreshToken) (call : SessionCall) : Prop := call = .revoke t.sub ∨ call = .logout t

theorem run_cons (clock : JwtClock) (s : Sessions) (ev : SessionEvent) (events : List SessionEvent) :
    s.run clock (ev :: events) = (s.step clock ev).run clock events := rfl

theorem step_run (clock : JwtClock) (hf : s.flights rid = f) (b : Bool) :
    s.step clock (.run rid b) = s.runFlight rid b f := by
  rw [Sessions.step, hf]

theorem ended_endRevoke (ht : t ∈ s.tokens) : (s.endRevoke t.sub true).Ended t.jti := by
  refine .inl (List.mem_append_left _ (List.mem_map_of_mem (List.mem_filter.mpr ⟨ht, ?_⟩)))
  exact beq_self_eq_true _

theorem step_revokeRead (clock : JwtClock) {ttl : ℕ} (hf : s.flights rid = .revokeRead t.sub ttl true) (ht : t ∈ s.tokens) (b : Bool) :
    (s.step clock (.run rid b)).Ended t.jti ∨ ∃ members,
      (s.step clock (.run rid b)).flights rid = .revokeWrite t.sub ttl true members ∧
        t ∈ (s.step clock (.run rid b)).tokens := by
  rw [step_run clock hf, runFlight]
  split
  · exact .inl (ended_endRevoke (s := s.fly rid .idle) ht)
  · refine .inr ⟨(s.family t.sub).smembers s.now, ?_, ht⟩
    rw [flights_fly, if_pos rfl]

/-- Such a call ends it. -/
theorem Rested.ends (hr : s.Rested clock) {call : SessionCall} (hend : Ends t call) (ht : t ∈ s.tokens) :
    (s.run clock call.events).Ended t.jti := by
  obtain rfl | rfl := hend
  · rw [SessionCall.events, run_cons, List.replicate_succ, run_cons, List.replicate_succ, run_cons]
    refine ended_run ?_ _
    have hstart : s.step clock (.revoke 0 t.sub) = s.fly 0 (.revokeRead t.sub REVOKE_TTL true) := if_pos hr.rest
    have hf : (s.fly 0 (.revokeRead t.sub REVOKE_TTL true)).flights 0 = _ := flights_fly _ _ _ _
    rw [if_pos rfl] at hf
    rw [hstart]
    obtain hended | ⟨members, hwrite, ht'⟩ := step_revokeRead clock hf ht true
    · exact ended_step hended _
    · rw [step_run clock hwrite, runFlight]
      exact ended_endRevoke ht'
  · rw [SessionCall.events, run_cons, List.replicate_succ, run_cons, List.replicate_succ, run_cons]
    refine ended_run ?_ _
    have hstart : s.step clock (.logout 0 t) = s.fly 0 (.logoutMark t.jti) := if_pos ⟨hr.rest, ht⟩
    have hf : (s.fly 0 (.logoutMark t.jti)).flights 0 = _ := flights_fly _ _ _ _
    rw [if_pos rfl] at hf
    have hmarked : ((s.fly 0 (.logoutMark t.jti)).step clock (.run 0 true)).flights 0 = .logoutMarked t.jti := by
      rw [step_run clock hf, runFlight]
      show ((s.fly 0 (.logoutMark t.jti)).fly 0 (.logoutMarked t.jti)).flights 0 = _
      rw [flights_fly, if_pos rfl]
    rw [hstart, step_run clock hmarked]
    exact .inr List.mem_cons_self

end Sessions

/-- Calls that do not overlap, with any time between them: after a call that ends the session of a token, by
    `revoke_user_sessions` or by logout, nothing more is exchanged for it, as long as the used set does not lapse while
    it holds a token that is still accepted. -/
theorem revoked_session_stays_dead (clock : JwtClock) (now : ℕ) (before after : List SessionCall) (call : SessionCall)
    (t : RefreshToken) (ht : t ∈ (Sessions.serve clock (.fresh now) before).tokens) (hend : Sessions.Ends t call)
    (hlast : Sessions.LastsAll clock (.fresh now) (before ++ call :: after)) (c : ℕ)
    (hex : (t.jti, c) ∈ (Sessions.serve clock (.fresh now) (before ++ call :: after)).exchanges) :
    (t.jti, c) ∈ (Sessions.serve clock (.fresh now) (before ++ [call])).exchanges := by
  obtain ⟨hbefore, hcall, hafter⟩ := Sessions.lastsAll_append hlast
  have hrest := ((Sessions.rested_fresh clock now).serve hbefore).1
  rw [Sessions.serve_append] at hex ⊢
  exact ((hrest.call hcall).1.serve hafter).2 t.jti (hrest.ends hend ht) c hex

/-- Coming back with the old token on the third day and on the thirty-second. -/
def lateReturns : List SessionCall :=
  [.wait (3 * 86400), .refresh ⟨0, 5, REFRESH_TTL⟩ false true, .wait (29 * 86400),
    .refresh ⟨0, 5, REFRESH_TTL⟩ false true]

theorem revoked_session_stays_dead_third_day :
    (0, 1) ∉ (Sessions.serve pyJwt (.fresh 0) ([.login 5] ++ [.revoke 5])).exchanges ∧
      (0, 1) ∉ (Sessions.serve pyJwt (.fresh 0) ([.login 5] ++ .revoke 5 :: lateReturns)).exchanges := by
  have hbefore : (0, 1) ∉ (Sessions.serve pyJwt (.fresh 0) ([.login 5] ++ [.revoke 5])).exchanges := by decide +kernel
  refine ⟨hbefore, fun hafter => hbefore ?_⟩
  exact revoked_session_stays_dead pyJwt 0 [.login 5] lateReturns (.revoke 5) ⟨0, 5, REFRESH_TTL⟩ (by decide +kernel)
    (.inl rfl) (by decide +kernel) 1 hafter

/-- Coming back on the eighth day. -/
def eighthDay : List SessionCall := [.wait (8 * 86400), .refresh ⟨0, 5, REFRESH_TTL⟩ false true]

def twoLogins : List SessionCall := [.login 5, .login 6]

/-- The revoked token is exchanged then; and so is one that was logged out, when another user was revoked since. -/
theorem revoked_session_back_on_eighth_day :
    ¬ (∀ c, (0, c) ∈ (Sessions.serve pyJwt (.fresh 0) ([.login 5] ++ .revoke 5 :: eighthDay)).exchanges →
      (0, c) ∈ (Sessions.serve pyJwt (.fresh 0) ([.login 5] ++ [.revoke 5])).exchanges) ∧
    ¬ ∀ c, (0, c) ∈ (Sessions.serve pyJwt (.fresh 0)
        (twoLogins ++ .logout ⟨0, 5, REFRESH_TTL⟩ :: .revoke 6 :: eighthDay)).exchanges →
      (0, c) ∈ (Sessions.serve pyJwt (.fresh 0) (twoLogins ++ [.logout ⟨0, 5, REFRESH_TTL⟩])).exchanges := by
  constructor
  · intro h
    have hafter : (Sessions.serve pyJwt (.fresh 0) ([.login 5] ++ .revoke 5 :: eighthDay)).exchanges = [(0, 1)] := by
      decide +kernel
    have hbefore : (Sessions.serve pyJwt (.fresh 0) ([.login 5] ++ [.revoke 5])).exchanges = [] := by decide +kernel
    rw [hafter, hbefore] at h
    exact absurd (h 1 List.mem_cons_self) List.not_mem_nil
  · intro h
    have hafter : (Sessions.serve pyJwt (.fresh 0)
        (twoLogins ++ .logout ⟨0, 5, REFRESH_TTL⟩ :: .revoke 6 :: eighthDay)).exchanges = [(0, 2)] := by
      decide +kernel
    have hbefore : (Sessions.serve pyJwt (.fresh 0)
        (twoLogins ++ [.logout ⟨0, 5, REFRESH_TTL⟩])).exchanges = [] := by
      decide +kernel
    rw [hafter, hbefore] at h
    exact absurd (h 2 List.mem_cons_self) List.not_mem_nil

end Gdx
