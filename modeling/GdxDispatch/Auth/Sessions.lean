import GdxDispatch.Lib.Text

/-! Refresh tokens: `routers/auth/core.py` (`login`, `refresh`, `logout`) and `core/auth_revoke.py`.

    A refresh token is spent by putting its `jti` into one shared set, and a new one joins the set of its user's family.
    Revoking a user reads the family and puts all of it into the shared set. The requests are here as the Redis commands
    they send, one command or pipeline a step, so that any number of them can run between one another. Each key of Redis
    lives until its own deadline, and every writer sets that deadline anew with its own constant.

    Time is in seconds. Left out: access tokens and their denylist beyond its answer to the presented token, the audit
    rows, cookies, the dedup key of the error sink, and the branches for errors of Redis. -/

namespace Gdx
open Lib

/-- `REFRESH_TTL` of `routers/auth/core.py`: thirty days. -/
def REFRESH_TTL : ℕ := 30 * 24 * 60 * 60

/-- `REFRESH_TTL` of `core/auth_revoke.py`, with `REFRESH_TTL_SECONDS` unset: seven days. -/
def REVOKE_TTL : ℕ := 60 * 60 * 24 * 7

def REFRESH_REPLAY_LEEWAY_SECONDS : ℕ := 30

def REFRESH_REPLAY_CACHE_TTL : ℕ := 60

/-! ### Redis -/

/-- A set under a key, and the deadline of the key. -/
structure RedisSet where
  members : List ℕ
  expires : Option ℕ
  deriving DecidableEq

namespace RedisSet

def empty : RedisSet := ⟨[], none⟩

def live (s : RedisSet) (now : ℕ) : Bool := s.expires.all fun d => decide (now < d)

/-- A key past its deadline is gone. -/
def current (s : RedisSet) (now : ℕ) : RedisSet := if s.live now then s else empty

/-- `SADD`. -/
def sadd (now : ℕ) (xs : List ℕ) (s : RedisSet) : RedisSet :=
  { s.current now with members := xs ++ (s.current now).members }

/-- `EXPIRE`: a key that is not there stays away. -/
def expire (now ttl : ℕ) (s : RedisSet) : RedisSet :=
  if (s.current now).members = [] then empty else { s.current now with expires := some (now + ttl) }

/-- `SMEMBERS`. -/
def smembers (now : ℕ) (s : RedisSet) : List ℕ := (s.current now).members

end RedisSet

/-- The pair a token was exchanged for, as far as its refresh token goes. -/
structure Redemption where
  refresh : ℕ
  ts : ℕ
  expires : Option ℕ
  deriving DecidableEq

/-! ### Tokens and requests -/

/-- The claims of a refresh token. -/
structure RefreshToken where
  jti : ℕ
  sub : ℕ
  exp : ℕ
  deriving DecidableEq

/-- Where a request stands: the next thing it does, and what it knows. -/
inductive Stage where
  | idle
  /-- `refresh`, before it looks the token up among the used ones. -/
  | check (t : RefreshToken)
  /-- Found used: before it looks for the pair the token was exchanged for. -/
  | replay (t : RefreshToken)
  /-- Not found: before it marks the token used. -/
  | mark (t : RefreshToken)
  | marked (t : RefreshToken)
  /-- Before the user's row is read. -/
  | user (t : RefreshToken)
  | issue (t : RefreshToken)
  | insert (t new : RefreshToken)
  | inserted (t new : RefreshToken)
  | cache (t new : RefreshToken)
  | cached (t new : RefreshToken)
  /-- `login`, past the password. -/
  | loginInsert (new : RefreshToken)
  | loginInserted (new : RefreshToken)
  | logoutMark (jti : ℕ)
  | logoutMarked (jti : ℕ)
  /-- A revocation of a user's family, before it reads the family. `call` tells `revoke_user_sessions` from the code
      inside `refresh` that does the same with its own constant. -/
  | revokeRead (sub ttl : ℕ) (call : Bool)
  | revokeWrite (sub ttl : ℕ) (call : Bool) (members : List ℕ)
  deriving DecidableEq

/-- Redis, the requests under way, and what was given out. `revoked` and `loggedOut` name the tokens whose session
    has been ended: by a `revoke_user_sessions` that returned, or by the logout that carried them. -/
structure Sessions where
  now : ℕ
  used : RedisSet
  family : ℕ → RedisSet
  redemption : ℕ → Option Redemption
  flights : ℕ → Stage
  tokens : List RefreshToken
  nextJti : ℕ
  exchanges : List (ℕ × ℕ)
  answers : List (ℕ × ℕ)
  revoked : List ℕ
  loggedOut : List ℕ

/-- When `jwt.decode` takes a token's `exp`: never once the instant is past, and not again after it was refused. -/
structure JwtClock where
  accepts : ℕ → ℕ → Bool
  past : ∀ exp now, accepts exp now = true → now < exp
  antitone : ∀ exp now now', now ≤ now' → accepts exp now' = true → accepts exp now = true

/-- `exp <= now` raises. -/
def pyJwt : JwtClock where
  accepts exp now := decide (now < exp)
  past _ _ h := by simpa using h
  antitone _ _ _ hle h := by
    simp only [decide_eq_true_eq] at h ⊢
    omega

/-- A request that comes in, the next command of one under way, or time that passes. -/
inductive SessionEvent where
  | login (rid sub : ℕ)
  | refresh (rid : ℕ) (t : RefreshToken) (denied : Bool)
  | logout (rid : ℕ) (t : RefreshToken)
  | revoke (rid sub : ℕ)
  | run (rid : ℕ) (eligible : Bool)
  | wait (time : ℕ)
  deriving DecidableEq

namespace Sessions

/-- Nobody has logged in. -/
def fresh (now : ℕ) : Sessions :=
  ⟨now, .empty, fun _ => .empty, fun _ => none, fun _ => .idle, [], 0, [], [], [], []⟩

def fly (s : Sessions) (rid : ℕ) (f : Stage) : Sessions := { s with flights := Function.update s.flights rid f }

def setFamily (s : Sessions) (sub : ℕ) (f : RedisSet) : Sessions := { s with family := Function.update s.family sub f }

/-- `_issue` of a refresh token. -/
def newToken (s : Sessions) (sub : ℕ) : RefreshToken := ⟨s.nextJti, sub, s.now + REFRESH_TTL⟩

def issueTo (s : Sessions) (sub : ℕ) : Sessions :=
  { s with tokens := s.newToken sub :: s.tokens, nextJti := s.nextJti + 1 }

/-- A revocation is over. -/
def endRevoke (s : Sessions) (sub : ℕ) (call : Bool) : Sessions :=
  if call then { s with revoked := (s.tokens.filter (·.sub == sub)).map (·.jti) ++ s.revoked } else s

/-- The next command of a request. -/
def runFlight (s : Sessions) (rid : ℕ) (eligible : Bool) : Stage → Sessions
  | .idle => s
  | .check t => if t.jti ∈ s.used.smembers s.now then s.fly rid (.replay t) else s.fly rid (.mark t)
  | .replay t =>
    match (s.redemption t.jti).filter fun c => c.expires.all fun d => decide (s.now < d) with
    | none => s.fly rid (.revokeRead t.sub REFRESH_TTL false)
    | some c =>
      if s.now - c.ts ≤ REFRESH_REPLAY_LEEWAY_SECONDS then
        { s.fly rid .idle with answers := (t.jti, c.refresh) :: s.answers }
      else s.fly rid (.revokeRead t.sub REFRESH_TTL false)
  | .mark t => { s.fly rid (.marked t) with used := s.used.sadd s.now [t.jti] }
  | .marked t => { s.fly rid (.user t) with used := s.used.expire s.now REFRESH_TTL }
  | .user t => if eligible then s.fly rid (.issue t) else s.fly rid (.revokeRead t.sub REFRESH_TTL false)
  | .issue t =>
    { (s.issueTo t.sub).fly rid (.insert t (s.newToken t.sub)) with
      exchanges := (t.jti, (s.newToken t.sub).jti) :: s.exchanges }
  | .insert t new => (s.fly rid (.inserted t new)).setFamily t.sub ((s.family t.sub).sadd s.now [new.jti])
  | .inserted t new => (s.fly rid (.cache t new)).setFamily t.sub ((s.family t.sub).expire s.now REFRESH_TTL)
  | .cache t new =>
    let expires := ((s.redemption t.jti).filter fun c => c.expires.all fun d => decide (s.now < d)).bind (·.expires)
    { s.fly rid (.cached t new) with
      redemption := Function.update s.redemption t.jti (some ⟨new.jti, s.now, expires⟩) }
  | .cached t new =>
    let live := (s.redemption t.jti).filter fun c => c.expires.all fun d => decide (s.now < d)
    { s.fly rid .idle with
      redemption := Function.update s.redemption t.jti
        (live.map fun c => { c with expires := some (s.now + REFRESH_REPLAY_CACHE_TTL) })
      answers := (t.jti, new.jti) :: s.answers }
  | .loginInsert new => (s.fly rid (.loginInserted new)).setFamily new.sub ((s.family new.sub).sadd s.now [new.jti])
  | .loginInserted new => (s.fly rid .idle).setFamily new.sub ((s.family new.sub).expire s.now REFRESH_TTL)
  | .logoutMark jti => { s.fly rid (.logoutMarked jti) with used := s.used.sadd s.now [jti] }
  | .logoutMarked jti =>
    { s.fly rid .idle with used := s.used.expire s.now REFRESH_TTL, loggedOut := jti :: s.loggedOut }
  | .revokeRead sub ttl call =>
    match (s.family sub).smembers s.now with
    | [] => (s.fly rid .idle).endRevoke sub call
    | members => s.fly rid (.revokeWrite sub ttl call members)
  | .revokeWrite sub ttl call members =>
    -- One pipeline: each member into the used set, its deadline, and the family is deleted.
    ({ s.fly rid .idle with used := (s.used.sadd s.now members).expire s.now ttl }.setFamily sub .empty).endRevoke sub call

/-- One event. A request takes a free slot; a token that was not issued, or that the decoder refuses, ends it at once. -/
def step (clock : JwtClock) (s : Sessions) : SessionEvent → Sessions
  | .login rid sub =>
    if s.flights rid = .idle then (s.issueTo sub).fly rid (.loginInsert (s.newToken sub)) else s
  | .refresh rid t denied =>
    if s.flights rid = .idle ∧ t ∈ s.tokens ∧ clock.accepts t.exp s.now = true then
      s.fly rid (if denied then .revokeRead t.sub REVOKE_TTL true else .check t)
    else s
  | .logout rid t => if s.flights rid = .idle ∧ t ∈ s.tokens then s.fly rid (.logoutMark t.jti) else s
  | .revoke rid sub => if s.flights rid = .idle then s.fly rid (.revokeRead sub REVOKE_TTL true) else s
  | .run rid eligible => s.runFlight rid eligible (s.flights rid)
  | .wait time => { s with now := s.now + time }

def run (clock : JwtClock) (s : Sessions) (events : List SessionEvent) : Sessions := events.foldl (step clock) s

end Sessions

end Gdx
