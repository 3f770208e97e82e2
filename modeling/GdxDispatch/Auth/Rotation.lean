import Mathlib.Data.List.Basic
import GdxDispatch.Auth.Sessions

/-! What one command of a session request can do.

    A token that was spent is in the used set, and the set says so only while its key lives; a token that can be spent
    is in its user's family, and a family says so only while its key lives. The lemmas here are about single steps:
    which requests stand where, what the two kinds of sets keep, and which tokens can still be presented. -/

namespace Gdx
open Lib

variable {clock : JwtClock} {s s' : Sessions} {j k rid sub : ℕ} {f : Stage} {ev : SessionEvent}

/-! ### Sets under a deadline -/

namespace RedisSet

variable {set : RedisSet} {now : ℕ} {xs : List ℕ} {ttl : ℕ}

theorem current_of_live (h : set.live now = true) : set.current now = set := if_pos h

theorem mem_of_current (h : j ∈ (set.current now).members) : j ∈ set.members := by
  unfold current at h
  split at h
  · exact h
  · cases h

theorem mem_sadd : j ∈ (set.sadd now xs).members ↔ j ∈ xs ∨ j ∈ (set.current now).members := List.mem_append

/-- `EXPIRE` moves the deadline of what is there. -/
theorem mem_expire : j ∈ (set.expire now ttl).members ↔ j ∈ (set.current now).members := by
  unfold expire
  split
  · rename_i hnil
    rw [hnil]
    rfl
  · rfl

theorem current_live : (set.current now).live now = true := by
  unfold current
  by_cases hlive : set.live now = true
  · rw [if_pos hlive]
    exact hlive
  · rw [if_neg hlive]
    rfl

theorem live_sadd : (set.sadd now xs).live now = true := @current_live set now

theorem live_expire (h : 0 < ttl) : (set.expire now ttl).live now = true := by
  unfold expire
  split
  · rfl
  · exact decide_eq_true (Nat.lt_add_of_pos_right h)

theorem mem_sadd_expire :
    j ∈ ((set.sadd now xs).expire now ttl).members ↔ j ∈ xs ∨ j ∈ (set.current now).members := by
  rw [mem_expire, current_of_live live_sadd]
  exact mem_sadd

end RedisSet

/-! ### The steps -/

/-- The tokens whose session a revocation ends. -/
def Sessions.ended (s : Sessions) (sub : ℕ) (call : Bool) : List ℕ :=
  if call then (s.tokens.filter (·.sub == sub)).map (·.jti) else []

/-- What an event does, with the state it leaves. -/
inductive Sessions.Does (clock : JwtClock) (s : Sessions) : SessionEvent → Sessions → Prop
  | stay (ev : SessionEvent) (hev : ∀ time, ev ≠ .wait time) : Does clock s ev s
  | wait (time : ℕ) : Does clock s (.wait time) { s with now := s.now + time }
  | login (rid sub : ℕ) (hf : s.flights rid = .idle) :
      Does clock s (.login rid sub)
        { s.fly rid (.loginInsert (s.newToken sub)) with
          tokens := s.newToken sub :: s.tokens
          nextJti := s.nextJti + 1 }
  | present (rid : ℕ) (t : RefreshToken) (hf : s.flights rid = .idle) (ht : t ∈ s.tokens)
      (hok : clock.accepts t.exp s.now = true) : Does clock s (.refresh rid t false) (s.fly rid (.check t))
  | logout (rid : ℕ) (t : RefreshToken) (hf : s.flights rid = .idle) (ht : t ∈ s.tokens) :
      Does clock s (.logout rid t) (s.fly rid (.logoutMark t.jti))
  | revoke (ev : SessionEvent) (hev : ∀ time, ev ≠ .wait time) (rid sub ttl : ℕ) (call : Bool) (f : Stage)
      (hf : s.flights rid = f) (hfrom : f = .idle ∨ ∃ t, f = .replay t ∨ f = .user t) (httl : 0 < ttl) :
      Does clock s ev (s.fly rid (.revokeRead sub ttl call))
  | found (rid : ℕ) (eligible : Bool) (t : RefreshToken) (hf : s.flights rid = .check t) :
      Does clock s (.run rid eligible) (s.fly rid (.replay t))
  | pass (rid : ℕ) (eligible : Bool) (t : RefreshToken) (hf : s.flights rid = .check t)
      (hnew : t.jti ∉ s.used.smembers s.now) : Does clock s (.run rid eligible) (s.fly rid (.mark t))
  | again (rid : ℕ) (eligible : Bool) (t : RefreshToken) (c : Redemption) (hf : s.flights rid = .replay t)
      (hc : s.redemption t.jti = some c) :
      Does clock s (.run rid eligible) { s.fly rid .idle with answers := (t.jti, c.refresh) :: s.answers }
  | mark (rid : ℕ) (eligible : Bool) (t : RefreshToken) (hf : s.flights rid = .mark t) :
      Does clock s (.run rid eligible) { s.fly rid (.marked t) with used := s.used.sadd s.now [t.jti] }
  | marked (rid : ℕ) (eligible : Bool) (t : RefreshToken) (hf : s.flights rid = .marked t) :
      Does clock s (.run rid eligible) { s.fly rid (.user t) with used := s.used.expire s.now REFRESH_TTL }
  | user (rid : ℕ) (eligible : Bool) (t : RefreshToken) (hf : s.flights rid = .user t) :
      Does clock s (.run rid eligible) (s.fly rid (.issue t))
  | issue (rid : ℕ) (eligible : Bool) (t : RefreshToken) (hf : s.flights rid = .issue t) :
      Does clock s (.run rid eligible)
        { s.fly rid (.insert t (s.newToken t.sub)) with
          tokens := s.newToken t.sub :: s.tokens
          nextJti := s.nextJti + 1
          exchanges := (t.jti, s.nextJti) :: s.exchanges }
  | insert (rid : ℕ) (eligible : Bool) (t new : RefreshToken) (hf : s.flights rid = .insert t new) :
      Does clock s (.run rid eligible)
        { s.fly rid (.inserted t new) with
          family := Function.update s.family t.sub ((s.family t.sub).sadd s.now [new.jti]) }
  | inserted (rid : ℕ) (eligible : Bool) (t new : RefreshToken) (hf : s.flights rid = .inserted t new) :
      Does clock s (.run rid eligible)
        { s.fly rid (.cache t new) with
          family := Function.update s.family t.sub ((s.family t.sub).expire s.now REFRESH_TTL) }
  | cache (rid : ℕ) (eligible : Bool) (t new : RefreshToken) (c : Redemption) (hf : s.flights rid = .cache t new)
      (hc : c.refresh = new.jti) :
      Does clock s (.run rid eligible)
        { s.fly rid (.cached t new) with redemption := Function.update s.redemption t.jti (some c) }
  | cached (rid : ℕ) (eligible : Bool) (t new : RefreshToken) (c : Option Redemption)
      (hf : s.flights rid = .cached t new) (hc : ∀ a ∈ c, ∃ b ∈ s.redemption t.jti, a.refresh = b.refresh) :
      Does clock s (.run rid eligible)
        { s.fly rid .idle with
          redemption := Function.update s.redemption t.jti c
          answers := (t.jti, new.jti) :: s.answers }
  | loginInsert (rid : ℕ) (eligible : Bool) (new : RefreshToken) (hf : s.flights rid = .loginInsert new) :
      Does clock s (.run rid eligible)
        { s.fly rid (.loginInserted new) with
          family := Function.update s.family new.sub ((s.family new.sub).sadd s.now [new.jti]) }
  | loginInserted (rid : ℕ) (eligible : Bool) (new : RefreshToken) (hf : s.flights rid = .loginInserted new) :
      Does clock s (.run rid eligible)
        { s.fly rid .idle with
          family := Function.update s.family new.sub ((s.family new.sub).expire s.now REFRESH_TTL) }
  | logoutMark (rid : ℕ) (eligible : Bool) (jti : ℕ) (hf : s.flights rid = .logoutMark jti) :
      Does clock s (.run rid eligible) { s.fly rid (.logoutMarked jti) with used := s.used.sadd s.now [jti] }
  | logoutMarked (rid : ℕ) (eligible : Bool) (jti : ℕ) (hf : s.flights rid = .logoutMarked jti) :
      Does clock s (.run rid eligible)
        { s.fly rid .idle with used := s.used.expire s.now REFRESH_TTL, loggedOut := jti :: s.loggedOut }
  | noFamily (rid : ℕ) (eligible : Bool) (sub ttl : ℕ) (call : Bool) (hf : s.flights rid = .revokeRead sub ttl call)
      (hnil : (s.family sub).smembers s.now = []) :
      Does clock s (.run rid eligible) { s.fly rid .idle with revoked := s.ended sub call ++ s.revoked }
  | revokeRead (rid : ℕ) (eligible : Bool) (sub ttl : ℕ) (call : Bool) (hf : s.flights rid = .revokeRead sub ttl call)
      (hne : (s.family sub).smembers s.now ≠ []) :
      Does clock s (.run rid eligible) (s.fly rid (.revokeWrite sub ttl call ((s.family sub).smembers s.now)))
  | revokeWrite (rid : ℕ) (eligible : Bool) (sub ttl : ℕ) (call : Bool) (members : List ℕ)
      (hf : s.flights rid = .revokeWrite sub ttl call members) :
      Does clock s (.run rid eligible)
        { s.fly rid .idle with
          used := (s.used.sadd s.now members).expire s.now ttl
          family := Function.update s.family sub .empty
          revoked := s.ended sub call ++ s.revoked }

/-- A step of the code is one of these. -/
theorem step_does (clock : JwtClock) (s : Sessions) (ev : SessionEvent) : s.Does clock ev (s.step clock ev) := by
  cases ev with
  | login rid sub =>
    simp only [Sessions.step]
    split
    · exact .login rid sub ‹_›
    · exact .stay _ (fun _ h => nomatch h)
  | refresh rid t denied =>
    simp only [Sessions.step]
    split
    · rename_i h
      have hev : ∀ time, SessionEvent.refresh rid t denied ≠ .wait time := fun _ h => nomatch h
      cases denied with
      | true => exact .revoke _ hev rid t.sub REVOKE_TTL true _ h.1 (.inl rfl) (by decide)
      | false => exact .present rid t h.1 h.2.1 h.2.2
    · exact .stay _ (fun _ h => nomatch h)
  | logout rid t =>
    simp only [Sessions.step]
    split
    · rename_i h
      exact .logout rid t h.1 h.2
    · exact .stay _ (fun _ h => nomatch h)
  | revoke rid sub =>
    simp only [Sessions.step]
    split
    · have hev : ∀ time, SessionEvent.revoke rid sub ≠ .wait time := fun _ h => nomatch h
      exact .revoke _ hev rid sub REVOKE_TTL true _ ‹_› (.inl rfl) (by decide)
    · exact .stay _ (fun _ h => nomatch h)
  | wait time => exact .wait time
  | run rid eligible =>
    have hev : ∀ time, SessionEvent.run rid eligible ≠ .wait time := fun _ h => nomatch h
    show s.Does clock _ (s.runFlight rid eligible (s.flights rid))
    cases hf : s.flights rid with
    | idle => exact .stay _ hev
    | check t =>
      simp only [Sessions.runFlight]
      split
      · exact .found rid eligible t hf
      · exact .pass rid eligible t hf ‹_›
    | replay t =>
      have hrevoke : s.Does clock (.run rid eligible) (s.fly rid (.revokeRead t.sub REFRESH_TTL false)) :=
        .revoke _ hev rid t.sub REFRESH_TTL false _ hf (.inr ⟨t, .inl rfl⟩) (by decide)
      simp only [Sessions.runFlight]
      split
      · exact hrevoke
      · rename_i c hc
        split
        · exact .again rid eligible t c hf (Option.filter_eq_some_iff.mp hc).1
        · exact hrevoke
    | mark t => exact .mark rid eligible t hf
    | marked t => exact .marked rid eligible t hf
    | user t =>
      simp only [Sessions.runFlight]
      split
      · exact .user rid eligible t hf
      · exact .revoke _ hev rid t.sub REFRESH_TTL false _ hf (.inr ⟨t, .inr rfl⟩) (by decide)
    | issue t => exact .issue rid eligible t hf
    | insert t new => exact .insert rid eligible t new hf
    | inserted t new => exact .inserted rid eligible t new hf
    | cache t new => exact .cache rid eligible t new _ hf rfl
    | cached t new =>
      refine .cached rid eligible t new _ hf fun a ha => ?_
      obtain ⟨b, hb, rfl⟩ := Option.map_eq_some_iff.mp ha
      exact ⟨b, (Option.filter_eq_some_iff.mp hb).1, rfl⟩
    | loginInsert new => exact .loginInsert rid eligible new hf
    | loginInserted new => exact .loginInserted rid eligible new hf
    | logoutMark jti => exact .logoutMark rid eligible jti hf
    | logoutMarked jti => exact .logoutMarked rid eligible jti hf
    | revokeRead sub ttl call =>
      simp only [Sessions.runFlight]
      split
      · cases call <;> exact .noFamily rid eligible sub ttl _ hf ‹_›
      · rename_i members hne
        exact .revokeRead rid eligible sub ttl call hf hne
    | revokeWrite sub ttl call members => cases call <;> exact .revokeWrite rid eligible sub ttl _ members hf

/-! ### Where the requests stand -/

/-- The token a request found unused and has not exchanged yet. -/
def Stage.minting : Stage → Option RefreshToken
  | .mark t | .marked t | .user t | .issue t => some t
  | _ => none

/-- The token that a request has marked used. -/
def Stage.beyond : Stage → Option RefreshToken
  | .marked t | .user t | .issue t => some t
  | _ => none

/-- The token a request presented and the one it got, from the exchange to the answer. -/
def Stage.pair : Stage → Option (RefreshToken × RefreshToken)
  | .insert t new | .inserted t new | .cache t new | .cached t new => some (t, new)
  | _ => none

/-- The token that has yet to join its family. -/
def Stage.joining : Stage → Option RefreshToken
  | .insert _ new | .loginInsert new => some new
  | _ => none

/-- The request will put a new token into this family. -/
def Stage.Enters (sub : ℕ) : Stage → Prop
  | .mark t | .marked t | .user t | .issue t | .insert t _ => t.sub = sub
  | .loginInsert new => new.sub = sub
  | _ => False

/-- The request whose next command this is. -/
def SessionEvent.runs : SessionEvent → Option ℕ
  | .run rid _ => some rid
  | _ => none

namespace Sessions

theorem flights_fly (s : Sessions) (rid rid' : ℕ) (f : Stage) :
    (s.fly rid f).flights rid' = if rid' = rid then f else s.flights rid' := by
  unfold Sessions.fly
  by_cases h : rid' = rid
  · rw [if_pos h, h]
    exact Function.update_self rid f s.flights
  · rw [if_neg h]
    exact Function.update_of_ne h f s.flights

variable {t new : RefreshToken}

theorem Does.tokens_subset (h : s.Does clock ev s') : s.tokens ⊆ s'.tokens ∧ s.nextJti ≤ s'.nextJti := by
  cases h <;> grind [fly]

/-- A step issues at most one token, with a `jti` of its own. -/
theorem Does.tokens (h : s.Does clock ev s') (ht : t ∈ s'.tokens) :
    t ∈ s.tokens ∨ t.jti = s.nextJti ∧ s'.tokens = t :: s.tokens ∧ s'.nextJti = s.nextJti + 1 := by
  cases h <;> grind [fly, newToken]

theorem Does.now_le (h : s.Does clock ev s') : s.now ≤ s'.now := by
  cases h
  case wait time => exact Nat.le_add_right _ _
  all_goals exact le_rfl

/-- A token is looked up only when it was issued and the decoder took it. -/
theorem Does.check (h : s.Does clock ev s') (hf : s'.flights rid = .check t) :
    s.flights rid = .check t ∨ t ∈ s.tokens ∧ clock.accepts t.exp s.now = true := by
  cases h <;> grind [flights_fly]

/-- An exchange is under way only for a token that was looked up and not found. -/
theorem Does.minting (h : s.Does clock ev s') (hf : (s'.flights rid).minting = some t) :
    (s.flights rid).minting = some t ∨
      s.flights rid = .check t ∧ t.jti ∉ s.used.smembers s.now ∧ ev.runs = some rid := by
  cases h <;> grind [flights_fly, Stage.minting, SessionEvent.runs]

/-- Beyond its mark a request has the token in the used set. -/
theorem Does.beyond (h : s.Does clock ev s') (hf : (s'.flights rid).beyond = some t) :
    (s.flights rid).beyond = some t ∨ t.jti ∈ s'.used.members := by
  cases h <;> grind [flights_fly, Stage.beyond, RedisSet.mem_sadd]

theorem Does.exchanges (h : s.Does clock ev s') {p : ℕ × ℕ} (hp : p ∈ s'.exchanges) :
    p ∈ s.exchanges ∨ ∃ rid t, s.flights rid = .issue t ∧ p = (t.jti, s.nextJti) ∧
      s'.flights rid = .insert t (s.newToken t.sub) ∧ s'.tokens = s.newToken t.sub :: s.tokens ∧
      ev.runs = some rid := by
  cases h <;> grind [flights_fly, fly, SessionEvent.runs]

theorem Does.exchanges_subset (h : s.Does clock ev s') : s.exchanges ⊆ s'.exchanges := by
  cases h <;> grind [fly]

theorem Does.pair (h : s.Does clock ev s') (hf : (s'.flights rid).pair = some (t, new)) :
    (s.flights rid).pair = some (t, new) ∨
      s.flights rid = .issue t ∧ new = s.newToken t.sub ∧ new ∈ s'.tokens ∧ (t.jti, new.jti) ∈ s'.exchanges := by
  cases h <;> grind [flights_fly, Stage.pair, newToken]

theorem Does.joining (h : s.Does clock ev s') (hf : (s'.flights rid).joining = some new) :
    (s.flights rid).joining = some new ∨ new.jti = s.nextJti ∧ new ∈ s'.tokens := by
  cases h <;> grind [flights_fly, Stage.joining, newToken]

/-- The cache holds what requests got, or what it held. -/
theorem Does.redemption (h : s.Does clock ev s') {c : Redemption} (hc : s'.redemption j = some c) :
    (∃ b, s.redemption j = some b ∧ b.refresh = c.refresh) ∨
      ∃ rid t new, (s.flights rid).pair = some (t, new) ∧ t.jti = j ∧ new.jti = c.refresh := by
  cases h
  case cache rid eligible t new c' hf hc' =>
    by_cases heq : j = t.jti
    · subst heq
      have hsome : some c' = some c := (Function.update_self t.jti (some c') s.redemption).symm.trans hc
      obtain rfl := Option.some.inj hsome
      exact .inr ⟨rid, t, new, by rw [hf]; rfl, rfl, hc'.symm⟩
    · exact .inl ⟨c, (Function.update_of_ne heq (some c') s.redemption).symm.trans hc, rfl⟩
  case cached rid eligible t new c' hf hc' =>
    by_cases heq : j = t.jti
    · subst heq
      obtain ⟨b, hb, href⟩ := hc' c ((Function.update_self t.jti c' s.redemption).symm.trans hc)
      exact .inl ⟨b, hb, href.symm⟩
    · exact .inl ⟨c, (Function.update_of_ne heq c' s.redemption).symm.trans hc, rfl⟩
  all_goals exact .inl ⟨c, hc, rfl⟩

/-- An answer carries what the request got, or what the cache held. -/
theorem Does.answers (h : s.Does clock ev s') {p : ℕ × ℕ} (hp : p ∈ s'.answers) :
    p ∈ s.answers ∨ (∃ c, s.redemption p.1 = some c ∧ c.refresh = p.2) ∨
      ∃ rid t new, (s.flights rid).pair = some (t, new) ∧ p = (t.jti, new.jti) := by
  cases h
  case again rid eligible t c hf hc =>
    obtain rfl | hold := List.mem_cons.mp hp
    · exact .inr (.inl ⟨c, hc, rfl⟩)
    · exact .inl hold
  case cached rid eligible t new c hf hc =>
    obtain rfl | hold := List.mem_cons.mp hp
    · exact .inr (.inr ⟨rid, t, new, by rw [hf]; rfl, rfl⟩)
    · exact .inl hold
  all_goals exact .inl hp

/-- A request comes to join a family through a login, or by finding its token unused. -/
theorem Does.enters (h : s.Does clock ev s') (hf : (s'.flights rid).Enters sub) :
    (s.flights rid).Enters sub ∨ (∃ t, s.flights rid = .check t ∧ t.sub = sub ∧
      t.jti ∉ s.used.smembers s.now ∧ ev.runs = some rid) ∨ ev = .login rid sub := by
  cases h <;> grind [flights_fly, Stage.Enters, newToken, SessionEvent.runs]

/-! ### The used set and the families -/

/-- A live member of the used set stays. -/
theorem Does.used (h : s.Does clock ev s') (hj : j ∈ (s.used.current s.now).members) : j ∈ s'.used.members := by
  cases h <;> grind [fly, RedisSet.mem_sadd, RedisSet.mem_expire, RedisSet.mem_sadd_expire, RedisSet.mem_of_current]

/-- A family grows by the token of a request that joins it. -/
theorem Does.family (h : s.Does clock ev s') (hj : j ∈ (s'.family sub).members) :
    j ∈ (s.family sub).members ∨ ∃ rid new, (s.flights rid).joining = some new ∧ new.jti = j ∧
      (s.flights rid).Enters sub := by
  -- An update at another user's family changes nothing here.
  have hupdate : ∀ sub₀ set, j ∈ (Function.update s.family sub₀ set sub).members →
      j ∈ (s.family sub).members ∨ sub₀ = sub ∧ j ∈ set.members := by
    intro sub₀ set hmem
    rw [Function.update_apply] at hmem
    grind
  have hcurrent : j ∈ ((s.family sub).current s.now).members → j ∈ (s.family sub).members := RedisSet.mem_of_current
  cases h
  case insert rid eligible t new hf =>
    grind [hupdate _ _ hj, RedisSet.mem_sadd, Stage.joining, Stage.Enters]
  case loginInsert rid eligible new hf =>
    grind [hupdate _ _ hj, RedisSet.mem_sadd, Stage.joining, Stage.Enters]
  case inserted rid eligible t new hf => grind [hupdate _ _ hj, RedisSet.mem_expire]
  case loginInserted rid eligible new hf => grind [hupdate _ _ hj, RedisSet.mem_expire]
  case revokeWrite rid eligible sub₀ ttl call members hf => grind [hupdate _ _ hj, RedisSet.empty]
  all_goals exact .inl hj

/-- A live member of a family stays, unless a revocation deletes the family. -/
theorem Does.family_mono (h : s.Does clock ev s') (hj : j ∈ ((s.family sub).current s.now).members) :
    j ∈ (s'.family sub).members ∨ ∃ rid ttl call members, s.flights rid = .revokeWrite sub ttl call members ∧
      s'.used = (s.used.sadd s.now members).expire s.now ttl := by
  have hraw := RedisSet.mem_of_current hj
  have hupdate : ∀ sub₀ set, (sub₀ = sub → j ∈ set.members) → j ∈ (Function.update s.family sub₀ set sub).members := by
    intro sub₀ set hset
    rw [Function.update_apply]
    grind
  cases h
  case insert rid eligible t new hf =>
    refine .inl (hupdate _ _ fun heq => ?_)
    rw [heq]
    exact RedisSet.mem_sadd.mpr (.inr hj)
  case loginInsert rid eligible new hf =>
    refine .inl (hupdate _ _ fun heq => ?_)
    rw [heq]
    exact RedisSet.mem_sadd.mpr (.inr hj)
  case inserted rid eligible t new hf =>
    refine .inl (hupdate _ _ fun heq => ?_)
    rw [heq]
    exact RedisSet.mem_expire.mpr hj
  case loginInserted rid eligible new hf =>
    refine .inl (hupdate _ _ fun heq => ?_)
    rw [heq]
    exact RedisSet.mem_expire.mpr hj
  case revokeWrite rid eligible sub₀ ttl call members hf =>
    by_cases heq : sub₀ = sub
    · exact .inr ⟨rid, ttl, call, members, heq ▸ hf, rfl⟩
    · exact .inl (hupdate _ _ fun h => absurd h heq)
  all_goals exact .inl hraw

/-- The `jti`s in the sets and in the requests that write them are issued ones. -/
structure Listed (s : Sessions) : Prop where
  used : ∀ j ∈ s.used.members, j < s.nextJti
  family : ∀ sub, ∀ j ∈ (s.family sub).members, j < s.nextJti
  logoutMark : ∀ rid j, s.flights rid = .logoutMark j → j < s.nextJti
  revokeWrite : ∀ rid sub ttl call members, s.flights rid = .revokeWrite sub ttl call members →
    ∀ j ∈ members, j < s.nextJti

/-- The tokens are told apart by their `jti`, and the requests know issued tokens alone. -/
structure Known (s : Sessions) : Prop where
  inj : ∀ t ∈ s.tokens, ∀ t' ∈ s.tokens, t.jti = t'.jti → t = t'
  lt : ∀ t ∈ s.tokens, t.jti < s.nextJti
  check : ∀ rid t, s.flights rid = .check t → t ∈ s.tokens
  minting : ∀ rid t, (s.flights rid).minting = some t → t ∈ s.tokens
  pair : ∀ rid t new, (s.flights rid).pair = some (t, new) → t ∈ s.tokens ∧ new ∈ s.tokens ∧ new.sub = t.sub
  joining : ∀ rid new, (s.flights rid).joining = some new → new ∈ s.tokens
  ttl : ∀ rid sub ttl call, s.flights rid = .revokeRead sub ttl call → 0 < ttl
  writeTtl : ∀ rid sub ttl call members, s.flights rid = .revokeWrite sub ttl call members → 0 < ttl

theorem Known.step (hk : s.Known) (h : s.Does clock ev s') : s'.Known := by
  obtain ⟨hinj, hlt, hcheck, hminting, hpair, hjoining, httl, hwrite⟩ := hk
  obtain ⟨hsub, hle⟩ := h.tokens_subset
  refine ⟨fun t ht t' ht' heq => ?_, fun t ht => ?_, fun rid t hf => ?_, fun rid t hf => ?_, fun rid t new hf => ?_,
    fun rid new hf => ?_, ?_, ?_⟩
  · have h1 := h.tokens ht
    have h2 := h.tokens ht'
    grind
  · have h1 := h.tokens ht
    grind
  · have h1 := h.check hf
    grind
  · have h1 := h.minting hf
    grind
  · have h1 := h.pair hf
    have h2 := hminting rid t
    grind [Stage.minting, newToken]
  · have h1 := h.joining hf
    grind
  · cases h <;> grind [flights_fly]
  · cases h <;> grind [flights_fly]

theorem Listed.step (hl : s.Listed) (hk : s.Known) (h : s.Does clock ev s') : s'.Listed := by
  obtain ⟨hused, hfamily, hlogout, hwrite⟩ := hl
  obtain ⟨-, hlt, -, hminting, hpair, hjoining, -, -⟩ := hk
  have hread : ∀ sub, ∀ j ∈ (s.family sub).smembers s.now, j < s.nextJti :=
    fun sub j hj => hfamily sub j (RedisSet.mem_of_current hj)
  have hcurrent : ∀ j ∈ (s.used.current s.now).members, j < s.nextJti :=
    fun j hj => hused j (RedisSet.mem_of_current hj)
  have hle := h.tokens_subset.2
  refine ⟨?_, fun sub j hj => ?_, ?_, ?_⟩
  · cases h <;> grind [fly, RedisSet.mem_sadd, RedisSet.mem_expire, RedisSet.mem_sadd_expire, Stage.minting]
  · refine Nat.lt_of_lt_of_le ?_ hle
    obtain hold | ⟨rid, new, hnew, rfl, -⟩ := h.family hj
    · exact hfamily sub j hold
    · exact hlt new (hjoining rid new hnew)
  · cases h <;> grind [flights_fly, fly]
  · cases h <;> grind [flights_fly, fly]

/-- A token that was issued is on its way to its family. -/
theorem Does.issued (h : s.Does clock ev s') (ht : t ∈ s'.tokens) :
    t ∈ s.tokens ∨ ∃ rid, (s'.flights rid).joining = some t := by
  cases h
  case login rid sub hf =>
    obtain rfl | hold := List.mem_cons.mp ht
    · exact .inr ⟨rid, by grind [flights_fly, Stage.joining]⟩
    · exact .inl hold
  case issue rid eligible t₀ hf =>
    obtain rfl | hold := List.mem_cons.mp ht
    · exact .inr ⟨rid, by grind [flights_fly, Stage.joining]⟩
    · exact .inl hold
  all_goals exact .inl ht

/-- A token on its way to its family arrives there. -/
theorem Does.joined (h : s.Does clock ev s') (hf : (s.flights rid).joining = some new) :
    (s'.flights rid).joining = some new ∨
      ∃ sub, (s.flights rid).Enters sub ∧ new.jti ∈ (s'.family sub).members := by
  cases h
  case insert rid' eligible t₀ new₀ hf' =>
    by_cases heq : rid = rid'
    · subst heq
      rw [hf'] at hf ⊢
      cases hf
      refine .inr ⟨t₀.sub, rfl, ?_⟩
      show _ ∈ (Function.update s.family _ _ _).members
      rw [Function.update_self]
      exact RedisSet.mem_sadd.mpr (.inl List.mem_cons_self)
    · exact .inl (by grind [flights_fly])
  case loginInsert rid' eligible new₀ hf' =>
    by_cases heq : rid = rid'
    · subst heq
      rw [hf'] at hf ⊢
      cases hf
      refine .inr ⟨new.sub, rfl, ?_⟩
      show _ ∈ (Function.update s.family _ _ _).members
      rw [Function.update_self]
      exact RedisSet.mem_sadd.mpr (.inl List.mem_cons_self)
    · exact .inl (by grind [flights_fly])
  all_goals exact .inl (by grind [flights_fly, Stage.joining])

/-- A revocation writes what it has read. -/
theorem Does.revoking (h : s.Does clock ev s') {ttl : ℕ} {call : Bool} {members : List ℕ}
    (hf : s'.flights rid = .revokeWrite sub ttl call members) :
    s.flights rid = .revokeWrite sub ttl call members ∨
      s.flights rid = .revokeRead sub ttl call ∧ ev.runs = some rid ∧ members = (s.family sub).smembers s.now := by
  cases h <;> grind [flights_fly, SessionEvent.runs]

/-- The step in which `revoke_user_sessions` returns. -/
def Returns (s s' : Sessions) (ev : SessionEvent) (sub : ℕ) : Prop :=
  ∃ rid ttl, ev.runs = some rid ∧ (s.flights rid = .revokeRead sub ttl true ∧ (s.family sub).smembers s.now = [] ∨
    ∃ members, s.flights rid = .revokeWrite sub ttl true members ∧
      s'.used = (s.used.sadd s.now members).expire s.now ttl)

theorem mem_ended {call : Bool} :
    j ∈ s.ended sub call ↔ call = true ∧ ∃ t ∈ s.tokens, t.sub = sub ∧ t.jti = j := by
  cases call with
  | false => simp [ended]
  | true => simp [ended, and_assoc]

/-- It ends the sessions of all the tokens of its user. -/
theorem Does.revoked (h : s.Does clock ev s') (hj : j ∈ s'.revoked) :
    j ∈ s.revoked ∨ ∃ sub, s.Returns s' ev sub ∧ (∃ t ∈ s.tokens, t.sub = sub ∧ t.jti = j) ∧
      ∀ t ∈ s.tokens, t.sub = sub → t.jti ∈ s'.revoked := by
  cases h
  case noFamily rid eligible sub ttl call hf hnil =>
    obtain hnew | hold := List.mem_append.mp hj
    · obtain ⟨rfl, ht⟩ := mem_ended.mp hnew
      refine .inr ⟨sub, ⟨rid, ttl, rfl, .inl ⟨hf, hnil⟩⟩, ht, fun t ht hsub => ?_⟩
      exact List.mem_append_left _ (mem_ended.mpr ⟨rfl, t, ht, hsub, rfl⟩)
    · exact .inl hold
  case revokeWrite rid eligible sub ttl call members hf =>
    obtain hnew | hold := List.mem_append.mp hj
    · obtain ⟨rfl, ht⟩ := mem_ended.mp hnew
      refine .inr ⟨sub, ⟨rid, ttl, rfl, .inr ⟨members, hf, rfl⟩⟩, ht, fun t ht hsub => ?_⟩
      exact List.mem_append_left _ (mem_ended.mpr ⟨rfl, t, ht, hsub, rfl⟩)
    · exact .inl hold
  all_goals exact .inl hj

theorem Does.revoked_subset (h : s.Does clock ev s') : s.revoked ⊆ s'.revoked := by
  cases h <;> grind [fly]

/-! ### What can still be presented -/

/-- A token of this `jti` can be presented, or a request that presents one has yet to look it up. -/
def Presentable (clock : JwtClock) (s : Sessions) (j : ℕ) : Prop :=
  (∃ t ∈ s.tokens, t.jti = j ∧ clock.accepts t.exp s.now = true) ∨ ∃ rid t, s.flights rid = .check t ∧ t.jti = j

/-- The key is there, or nothing that was under it can be presented. -/
def KeptSet (clock : JwtClock) (s : Sessions) (set : RedisSet) : Prop :=
  set.live s.now = true ∨ ∀ j ∈ set.members, ¬ s.Presentable clock j

/-- The used set has not lapsed while a token in it can be presented. -/
def KeptUsed (clock : JwtClock) (s : Sessions) : Prop := s.KeptSet clock s.used

/-- No family has lapsed while a token in it can be presented. -/
def KeptFamily (clock : JwtClock) (s : Sessions) : Prop := ∀ sub, s.KeptSet clock (s.family sub)

/-- The token is used, or can no longer be presented. -/
def Gone (clock : JwtClock) (s : Sessions) (j : ℕ) : Prop := j ∈ s.used.members ∨ ¬ s.Presentable clock j

/-- Nothing makes an issued token presentable again. -/
theorem Does.presentable (h : s.Does clock ev s') (hj : j < s.nextJti)
    (hp : s'.Presentable clock j) : s.Presentable clock j := by
  obtain ⟨t, ht, rfl, hok⟩ | ⟨rid, t, hf, rfl⟩ := hp
  · obtain hold | ⟨hnext, -, -⟩ := h.tokens ht
    · exact .inl ⟨t, hold, rfl, clock.antitone _ _ _ h.now_le hok⟩
    · exact absurd hnext (Nat.ne_of_lt hj)
  · obtain hold | ⟨ht, hok⟩ := h.check hf
    · exact .inr ⟨rid, t, hold, rfl⟩
    · exact .inl ⟨t, ht, rfl, hok⟩

/-- A set that is kept and holds a presentable token answers with it. -/
theorem KeptSet.mem_current {set : RedisSet} (hset : s.KeptSet clock set) (hj : j ∈ set.members)
    (hp : s.Presentable clock j) : j ∈ (set.current s.now).members := by
  obtain hlive | hno := hset
  · rwa [RedisSet.current_of_live hlive]
  · exact absurd hp (hno j hj)

/-- While the used set is kept, a spent token stays spent. -/
theorem Gone.step (hg : s.Gone clock j) (h : s.Does clock ev s') (hkept : s.KeptUsed clock)
    (hj : j < s.nextJti) : s'.Gone clock j := by
  by_cases hp : s.Presentable clock j
  · obtain hmem | hno := hg
    · exact .inl (h.used (hkept.mem_current hmem hp))
    · exact absurd hp hno
  · exact .inr fun hp' => hp (h.presentable hj hp')

/-- A spent token is found when it is looked up. -/
theorem Gone.found (hg : s.Gone clock t.jti) (hkept : s.KeptUsed clock) (hf : s.flights rid = .check t) :
    t.jti ∈ s.used.smembers s.now := by
  have hp : s.Presentable clock t.jti := .inr ⟨rid, t, hf, rfl⟩
  obtain hmem | hno := hg
  · exact hkept.mem_current hmem hp
  · exact absurd hp hno

/-- A set that no one wrote is kept while no time passes. -/
theorem KeptSet.step {set : RedisSet} (hset : s.KeptSet clock set) (h : s.Does clock ev s')
    (hlt : ∀ j ∈ set.members, j < s.nextJti) (hnow : s'.now = s.now) : s'.KeptSet clock set := by
  obtain hlive | hno := hset
  · exact .inl (hnow ▸ hlive)
  · exact .inr fun j hj hp => hno j hj (h.presentable (hlt j hj) hp)

theorem Does.now_eq (h : s.Does clock ev s') (hev : ∀ time, ev ≠ .wait time) : s'.now = s.now := by
  cases h
  case wait time => exact absurd rfl (hev time)
  all_goals rfl

/-- A set that is written is there. -/
theorem Does.used_live (h : s.Does clock ev s') (hk : s.Known) : s'.used = s.used ∨ s'.used.live s.now = true := by
  have hwrite := hk.writeTtl
  have hpos : 0 < REFRESH_TTL := by decide
  cases h <;> grind [fly, RedisSet.live_sadd, RedisSet.live_expire]

theorem Does.family_live (h : s.Does clock ev s') (sub : ℕ) :
    s'.family sub = s.family sub ∨ (s'.family sub).live s.now = true := by
  have hpos : 0 < REFRESH_TTL := by decide
  have hupdate : ∀ sub₀ set, RedisSet.live set s.now = true →
      Function.update s.family sub₀ set sub = s.family sub ∨
        (Function.update s.family sub₀ set sub).live s.now = true := by
    intro sub₀ set hset
    rw [Function.update_apply]
    split
    · exact .inr hset
    · exact .inl rfl
  cases h
  case insert rid eligible t new hf => exact hupdate _ _ RedisSet.live_sadd
  case loginInsert rid eligible new hf => exact hupdate _ _ RedisSet.live_sadd
  case inserted rid eligible t new hf => exact hupdate _ _ (RedisSet.live_expire hpos)
  case loginInserted rid eligible new hf => exact hupdate _ _ (RedisSet.live_expire hpos)
  case revokeWrite rid eligible sub₀ ttl call members hf => exact hupdate _ _ rfl
  all_goals exact .inl rfl

theorem KeptUsed.step (hkept : s.KeptUsed clock) (h : s.Does clock ev s') (hk : s.Known) (hl : s.Listed)
    (hev : ∀ time, ev ≠ .wait time) : s'.KeptUsed clock := by
  have hnow := h.now_eq hev
  obtain hsame | hlive := h.used_live hk
  · unfold KeptUsed
    rw [hsame]
    exact KeptSet.step hkept h hl.used hnow
  · exact .inl (hnow ▸ hlive)

theorem KeptFamily.step (hkept : s.KeptFamily clock) (h : s.Does clock ev s') (hl : s.Listed)
    (hev : ∀ time, ev ≠ .wait time) : s'.KeptFamily clock := by
  intro sub
  have hnow := h.now_eq hev
  obtain hsame | hlive := h.family_live sub
  · rw [hsame]
    exact (hkept sub).step h (hl.family sub) hnow
  · exact .inl (hnow ▸ hlive)

end Sessions

end Gdx
