import GdxDispatch.Core.AuditChain
import GdxDispatch.Lib.TtlCache

/-! Replays of a POST that carries an `Idempotency-Key`.

    `core/middleware/idempotency.py` and `idempotency_keys.py`: the answer of a handler is kept in Redis
    under a digest of the tenant, the identity, the key and the path joined by colons, and a later request
    with the same digest is answered from there. A joined text reads back in more than one way when a
    field holds a colon, so a replay is the caller's own exactly as long as no two requests join to one
    text. Redis errors, the headers and the log lines are left out. -/

namespace Gdx

open Lib

/-- 24 hours, in seconds. -/
def IDEMPOTENCY_TTL_SECONDS : ℕ := 86400

/-- The body cap in bytes. -/
def IDEMPOTENCY_MAX_BODY_BYTES : ℕ := 1 * 1024 * 1024

/-- The `json` module on the values it makes, and what `JSONResponse` renders: `NaN` and the infinities load
    but do not render. The cached text is the pair of a status and a body. -/
structure JsonRuntime (J : Type) where
  loads : List UInt8 → Option J
  null : J
  renders : J → Bool
  renders_null : renders null = true
  dumpsCached : ℕ × J → Text
  loadsCached : Text → Option (ℕ × J)
  loads_dumps : ∀ answer, loadsCached (dumpsCached answer) = some answer

/-! ### The key -/

/-- The four fields of a cache key. A request with an empty tenant, identity or key has none. -/
structure CacheFields where
  tenantId : Text
  identityId : Text
  idempotencyKey : Text
  path : Text
  tenant_ne : tenantId ≠ []
  identity_ne : identityId ≠ []
  key_ne : idempotencyKey ≠ []

/-- The text under the digest. -/
def CacheFields.raw (f : CacheFields) : Text :=
  sepCons ':' f.tenantId (sepCons ':' f.identityId (sepCons ':' f.idempotencyKey f.path))

def buildCacheKey (sha : Sha256) (f : CacheFields) : Text :=
  "idempotency:".toList ++ sha.hexdigest f.raw

def isCacheableStatus (statusCode : ℕ) : Bool := 200 ≤ statusCode && statusCode < 300

/-! ### The middleware -/

/-- What an auth middleware stamped on the request. -/
structure Principal where
  tenantId : Option Text
  identityId : Option Text
  subject : Option Text

/-- The request as far as the middleware reads it. -/
structure KeyedRequest where
  method : String
  idempotencyKey : Option Text
  principal : Option Principal
  path : Text

/-- What the handler answers, in the chunks it sends. -/
structure HandlerResponse where
  statusCode : ℕ
  chunks : List (List UInt8)

/-- What goes back: a `JSONResponse`, the handler's bytes, or an error while rendering the first. -/
inductive Reply (J : Type) where
  | json (statusCode : ℕ) (body : J)
  | raw (statusCode : ℕ) (body : List UInt8)
  | failed

/-- A text that is there and not empty. -/
def truthy (t : Option Text) : Option Text := t.filter (· ≠ [])

/-- `identity_id` if there is one, else `subject`. -/
def coerceIdentityId (principal : Principal) : Option Text :=
  (truthy principal.identityId).or (truthy principal.subject)

/-- The fields of a request that is cached at all. -/
def KeyedRequest.fields (request : KeyedRequest) : Option CacheFields :=
  if request.method ≠ "POST" then none
  else do
    let key ← request.idempotencyKey
    let principal ← request.principal
    let tenant ← principal.tenantId
    let identity ← coerceIdentityId principal
    if h : tenant ≠ [] ∧ identity ≠ [] ∧ key ≠ [] then
      some ⟨tenant, identity, key, request.path, h.1, h.2.1, h.2.2⟩
    else none

/-- The loop that buffers the body: whether it passed the cap. -/
def oversize : ℕ → List (List UInt8) → Bool
  | _, [] => false
  | buffered, chunk :: rest =>
    decide (IDEMPOTENCY_MAX_BODY_BYTES < buffered + chunk.length) || oversize (buffered + chunk.length) rest

section Dispatch

variable {J : Type} (rt : JsonRuntime J) (sha : Sha256)

abbrev RedisCache := TtlCache Text Text

/-- The JSON value of a buffered body; an empty one is `None`. -/
def decodeBody (body : List UInt8) : Option J := if body = [] then some rt.null else rt.loads body

/-- A cached answer that can be sent again. -/
def cachedReply (cached : Option Text) : Option (ℕ × J) :=
  (cached.bind rt.loadsCached).filter fun answer => rt.renders answer.2

/-- `JSONResponse(content=body, status_code=status)`. -/
def jsonResponse (statusCode : ℕ) (body : J) : Reply J := if rt.renders body then .json statusCode body else .failed

/-- What is done with the handler's answer, at the time it is there. -/
def keepAnswer (cache : RedisCache) (now : ℕ) (f : CacheFields) (response : HandlerResponse) :
    Reply J × RedisCache :=
  let body := response.chunks.flatten
  if isCacheableStatus response.statusCode = false then (.raw response.statusCode body, cache)
  else if oversize 0 response.chunks then (.raw response.statusCode body, cache)
  else match decodeBody rt body with
    | none => (.raw response.statusCode body, cache)
    | some value =>
      (jsonResponse rt response.statusCode value,
        cache.set now IDEMPOTENCY_TTL_SECONDS (buildCacheKey sha f) (rt.dumpsCached (response.statusCode, value)))

/-- A request, the seconds since the last answer, and how its handler answers and how long it takes, if run. -/
structure PostStep where
  request : KeyedRequest
  wait : ℕ
  took : ℕ
  response : HandlerResponse

/-- A request that was answered: when it came, whether its handler ran, and the answer. -/
structure Served (J : Type) where
  step : PostStep
  came : ℕ
  ran : Bool
  reply : Reply J

/-- When a handler that ran was done. -/
def Served.done (s : Served J) : ℕ := s.came + s.step.took

/-- The cache, the clock, and the requests answered so far. -/
structure ReplayState (J : Type) where
  cache : RedisCache
  now : ℕ
  log : List (Served J)

def ReplayState.start : ReplayState J := ⟨[], 0, []⟩

/-- `IdempotencyMiddleware.dispatch`. -/
def dispatch (s : ReplayState J) (step : PostStep) : ReplayState J :=
  let came := s.now + step.wait
  let done := came + step.took
  match step.request.fields with
  | none =>
    let reply := .raw step.response.statusCode step.response.chunks.flatten
    ⟨s.cache, done, s.log ++ [⟨step, came, true, reply⟩]⟩
  | some f =>
    match cachedReply rt (s.cache.get came (buildCacheKey sha f)) with
    | some answer => ⟨s.cache, came, s.log ++ [⟨step, came, false, .json answer.1 answer.2⟩]⟩
    | none =>
      let kept := keepAnswer rt sha s.cache done f step.response
      ⟨kept.2, done, s.log ++ [⟨step, came, true, kept.1⟩]⟩

/-- Requests one after the other. -/
def runPosts (steps : List PostStep) : ReplayState J := steps.foldl (dispatch rt sha) .start

/-! ### What a replay owes its caller -/

/-- Every answer from the cache was given before to a request with the same four fields, whose handler ran. -/
def ReplaysOwn (log : List (Served J)) : Prop :=
  ∀ pre s post, log = pre ++ s :: post → s.ran = false →
    ∃ r ∈ pre, r.ran = true ∧ r.step.request.fields = s.step.request.fields ∧ r.reply = s.reply ∧
      ∃ status body, s.reply = .json status body

/-- The handler ran and answered 2xx with JSON within the cap. -/
def Served.kept (r : Served J) : Prop :=
  r.ran = true ∧ isCacheableStatus r.step.response.statusCode = true ∧
    r.step.response.chunks.flatten.length ≤ IDEMPOTENCY_MAX_BODY_BYTES ∧
    ∃ value, decodeBody rt r.step.response.chunks.flatten = some value ∧ rt.renders value = true

/-- After such an answer no request with the same four fields runs its handler while the entry lives. -/
def RunsOnce (log : List (Served J)) : Prop :=
  ∀ pre r mid s post f, log = pre ++ r :: (mid ++ s :: post) → r.kept rt → r.step.request.fields = some f →
    s.step.request.fields = some f → s.came < r.done + IDEMPOTENCY_TTL_SECONDS → s.ran = false

end Dispatch

/-! ### One request -/

section Proofs

variable {J : Type} {rt : JsonRuntime J} {sha : Sha256} {s : ReplayState J} {f g : CacheFields}

theorem oversize_false {chunks : List (List UInt8)} {n : ℕ}
    (h : n + chunks.flatten.length ≤ IDEMPOTENCY_MAX_BODY_BYTES) : oversize n chunks = false := by
  induction chunks generalizing n with
  | nil => rfl
  | cons chunk rest ih =>
    rw [List.flatten_cons, List.length_append] at h
    unfold oversize
    rw [ih (by omega), Bool.or_false, decide_eq_false_iff_not]
    omega

theorem buildCacheKey_inj (h : buildCacheKey sha f = buildCacheKey sha g) :
    sha.hexdigest f.raw = sha.hexdigest g.raw := List.append_cancel_left h

/-- What `keepAnswer` leaves: the cache as it was, or the answer under the key. -/
theorem keepAnswer_cases (rt : JsonRuntime J) (sha : Sha256) (cache : RedisCache) (now : ℕ) (f : CacheFields) (response : HandlerResponse) :
    (keepAnswer rt sha cache now f response).2 = cache ∨
      ∃ value, decodeBody rt response.chunks.flatten = some value ∧
        keepAnswer rt sha cache now f response = (jsonResponse rt response.statusCode value,
          cache.set now IDEMPOTENCY_TTL_SECONDS (buildCacheKey sha f) (rt.dumpsCached (response.statusCode, value))) := by
  unfold keepAnswer
  dsimp only
  split
  · exact Or.inl rfl
  · split
    · exact Or.inl rfl
    · split
      · exact Or.inl rfl
      · rename_i value hvalue
        exact Or.inr ⟨value, hvalue, rfl⟩

/-- A cacheable answer is kept. -/
theorem keepAnswer_kept (sha : Sha256) (cache : RedisCache) (now : ℕ) (f : CacheFields) {response : HandlerResponse} {value : J}
    (hstatus : isCacheableStatus response.statusCode = true)
    (hlen : response.chunks.flatten.length ≤ IDEMPOTENCY_MAX_BODY_BYTES)
    (hvalue : decodeBody rt response.chunks.flatten = some value) :
    (keepAnswer rt sha cache now f response).2 =
      cache.set now IDEMPOTENCY_TTL_SECONDS (buildCacheKey sha f) (rt.dumpsCached (response.statusCode, value)) := by
  have hsmall : oversize 0 response.chunks = false := oversize_false (by rwa [Nat.zero_add])
  simp [keepAnswer, hstatus, hsmall, hvalue]

theorem cachedReply_dumps {status : ℕ} {value : J} (h : rt.renders value = true) :
    cachedReply rt (some (rt.dumpsCached (status, value))) = some (status, value) := by
  simp [cachedReply, rt.loads_dumps, h]

theorem cachedReply_some {cached : Option Text} {answer : ℕ × J} (h : cachedReply rt cached = some answer) :
    ∃ text, cached = some text ∧ rt.loadsCached text = some answer ∧ rt.renders answer.2 = true := by
  unfold cachedReply at h
  rw [Option.filter_eq_some_iff] at h
  obtain ⟨text, htext, hload⟩ := Option.bind_eq_some_iff.mp h.1
  exact ⟨text, htext, hload, h.2⟩

/-- What one request can do. -/
inductive Dispatched (rt : JsonRuntime J) (sha : Sha256) (s : ReplayState J) (step : PostStep) :
    ReplayState J → Prop where
  | passed (hnone : step.request.fields = none) (reply : Reply J) :
      Dispatched rt sha s step
        ⟨s.cache, s.now + step.wait + step.took, s.log ++ [⟨step, s.now + step.wait, true, reply⟩]⟩
  | replayed (f : CacheFields) (hf : step.request.fields = some f) (answer : ℕ × J)
      (hit : cachedReply rt (s.cache.get (s.now + step.wait) (buildCacheKey sha f)) = some answer) :
      Dispatched rt sha s step
        ⟨s.cache, s.now + step.wait, s.log ++ [⟨step, s.now + step.wait, false, .json answer.1 answer.2⟩]⟩
  | handled (f : CacheFields) (hf : step.request.fields = some f)
      (miss : cachedReply rt (s.cache.get (s.now + step.wait) (buildCacheKey sha f)) = none) :
      Dispatched rt sha s step
        ⟨(keepAnswer rt sha s.cache (s.now + step.wait + step.took) f step.response).2,
          s.now + step.wait + step.took,
          s.log ++ [⟨step, s.now + step.wait, true,
            (keepAnswer rt sha s.cache (s.now + step.wait + step.took) f step.response).1⟩]⟩

theorem dispatched (s : ReplayState J) (step : PostStep) : Dispatched rt sha s step (dispatch rt sha s step) := by
  unfold dispatch
  dsimp only
  cases hf : step.request.fields with
  | none => exact .passed hf _
  | some f =>
    dsimp only
    cases hit : cachedReply rt (s.cache.get (s.now + step.wait) (buildCacheKey sha f)) with
    | some answer => exact .replayed f hf answer hit
    | none => exact .handled f hf hit

/-! ### What every run keeps -/

/-- Every entry is the answer of a handler that ran, and an answer that was kept is found until it expires. -/
structure ReplayInv (rt : JsonRuntime J) (sha : Sha256) (s : ReplayState J) : Prop where
  entries : ∀ e ∈ s.cache, ∃ r ∈ s.log, ∃ f status value, r.ran = true ∧ r.step.request.fields = some f ∧
    e.key = buildCacheKey sha f ∧ e.value = rt.dumpsCached (status, value) ∧ r.reply = jsonResponse rt status value
  live : ∀ r ∈ s.log, r.kept rt → ∀ f, r.step.request.fields = some f → ∀ t, s.now ≤ t →
    t < r.done + IDEMPOTENCY_TTL_SECONDS → (cachedReply rt (s.cache.get t (buildCacheKey sha f))).isSome = true

theorem ReplayInv.step (h : ReplayInv rt sha s) (step : PostStep) : ReplayInv rt sha (dispatch rt sha s step) := by
  -- a request that leaves the cache alone keeps what was live
  have hquiet : ∀ (last : Served J) (now : ℕ), s.now ≤ now → ¬last.kept rt ∨ last.step.request.fields = none →
      ReplayInv rt sha ⟨s.cache, now, s.log ++ [last]⟩ := by
    intro last now hnow hlast
    refine ⟨fun e he => ?_, fun r hr hkept f hf t ht => ?_⟩
    · obtain ⟨r, hr, hrest⟩ := h.entries e he
      exact ⟨r, List.mem_append_left _ hr, hrest⟩
    · rcases List.mem_append.mp hr with hr | hr
      · exact h.live r hr hkept f hf t (hnow.trans ht)
      · rw [List.mem_singleton.mp hr] at hkept hf
        rcases hlast with hnot | hnone
        · exact absurd hkept hnot
        · rw [hnone] at hf
          cases hf
  have hstep : Dispatched rt sha s step (dispatch rt sha s step) := dispatched s step
  generalize dispatch rt sha s step = s' at hstep ⊢
  cases hstep with
  | passed hnone reply => exact hquiet _ _ (by omega) (Or.inr hnone)
  | replayed f hf answer hit => exact hquiet _ _ (by omega) (Or.inl fun hk => by cases hk.1)
  | handled f hf miss =>
    rcases keepAnswer_cases rt sha s.cache (s.now + step.wait + step.took) f step.response with
      hsame | ⟨value, hvalue, hset⟩
    · -- an answer that was not kept
      rw [hsame]
      refine hquiet _ _ (by omega) (Or.inl fun hkept => ?_)
      obtain ⟨-, hstatus, hlen, value, hvalue, hrenders⟩ := hkept
      have hkeep := keepAnswer_kept sha s.cache (s.now + step.wait + step.took) f hstatus hlen hvalue
      have hnow : s.now + step.wait < s.now + step.wait + step.took + IDEMPOTENCY_TTL_SECONDS := by
        unfold IDEMPOTENCY_TTL_SECONDS
        omega
      have hget : s.cache.get (s.now + step.wait) (buildCacheKey sha f) =
          some (rt.dumpsCached (step.response.statusCode, value)) := by
        rw [← hsame, hkeep]
        exact TtlCache.get_set_self hnow
      rw [hget, cachedReply_dumps hrenders] at miss
      cases miss
    · rw [hset]
      refine ⟨fun e he => ?_, fun r hr hkept g hg t ht hlive => ?_⟩
      · rcases TtlCache.mem_set he with rfl | he
        · exact ⟨_, List.mem_append_right _ (List.mem_singleton_self _), f, _, value, rfl, hf, rfl, rfl, rfl⟩
        · obtain ⟨r, hr, hrest⟩ := h.entries e he
          exact ⟨r, List.mem_append_left _ hr, hrest⟩
      · rcases List.mem_append.mp hr with hr | hr
        · by_cases hkey : buildCacheKey sha g = buildCacheKey sha f
          · -- a live entry under this key would have answered the request
            have hexpired : r.done + IDEMPOTENCY_TTL_SECONDS ≤ s.now + step.wait := by
              by_contra hnot
              have hsome := h.live r hr hkept g hg (s.now + step.wait) (by omega) (by omega)
              rw [hkey, miss] at hsome
              cases hsome
            have ht' : s.now + step.wait + step.took ≤ t := ht
            omega
          · have ht' : s.now + step.wait + step.took ≤ t := ht
            rw [TtlCache.get_set_other hkey]
            exact h.live r hr hkept g hg t (by omega) hlive
        · rw [List.mem_singleton.mp hr] at hkept hg hlive
          obtain rfl : f = g := Option.some.inj (hf.symm.trans hg)
          obtain ⟨-, -, -, value', hvalue', hrenders⟩ := hkept
          obtain rfl : value = value' := Option.some.inj (hvalue.symm.trans hvalue')
          have hdue : t < s.now + step.wait + step.took + IDEMPOTENCY_TTL_SECONDS := hlive
          dsimp only
          rw [TtlCache.get_set_self hdue, cachedReply_dumps hrenders]
          rfl

/-- The last of a list, or one before it. -/
theorem snoc_eq_append {α : Type} {l pre post : List α} {x y : α} (h : l ++ [x] = pre ++ y :: post) :
    (pre = l ∧ y = x ∧ post = []) ∨ ∃ post', l = pre ++ y :: post' ∧ post = post' ++ [x] := by
  rcases List.eq_nil_or_concat post with rfl | ⟨post', z, rfl⟩
  · obtain ⟨rfl, hx⟩ := List.append_inj' h rfl
    exact Or.inl ⟨rfl, (List.cons.inj hx).1.symm, rfl⟩
  · rw [List.concat_eq_append, ← List.cons_append, ← List.append_assoc] at h
    obtain ⟨hl, hx⟩ := List.append_inj' h rfl
    obtain rfl := (List.cons.inj hx).1
    exact Or.inr ⟨post', hl, List.concat_eq_append⟩

theorem RunsOnce.snoc {log : List (Served J)} {x : Served J} (h : RunsOnce rt log)
    (hx : ∀ r ∈ log, r.kept rt → ∀ f, r.step.request.fields = some f → x.step.request.fields = some f →
      x.came < r.done + IDEMPOTENCY_TTL_SECONDS → x.ran = false) : RunsOnce rt (log ++ [x]) := by
  intro pre r mid y post f heq hkept hr hy hcame
  rw [← List.cons_append, ← List.append_assoc] at heq
  rcases snoc_eq_append heq with ⟨hlog, rfl, -⟩ | ⟨post', hlog, -⟩
  · exact hx r (hlog ▸ List.mem_append_right _ (List.mem_cons_self ..)) hkept f hr hy hcame
  · refine h pre r mid y post' f ?_ hkept hr hy hcame
    rw [hlog, List.append_assoc, List.cons_append]

theorem ReplaysOwn.snoc {log : List (Served J)} {x : Served J} (h : ReplaysOwn log)
    (hx : x.ran = false → ∃ r ∈ log, r.ran = true ∧ r.step.request.fields = x.step.request.fields ∧
      r.reply = x.reply ∧ ∃ status body, x.reply = .json status body) : ReplaysOwn (log ++ [x]) := by
  intro pre y post heq hy
  rcases snoc_eq_append heq with ⟨rfl, rfl, -⟩ | ⟨post', hlog, -⟩
  · exact hx hy
  · exact h pre y post' hlog hy

theorem RunsOnce.step (hs : ReplayInv rt sha s) (h : RunsOnce rt s.log) (step : PostStep) :
    RunsOnce rt (dispatch rt sha s step).log := by
  have hstep : Dispatched rt sha s step (dispatch rt sha s step) := dispatched s step
  generalize dispatch rt sha s step = s' at hstep ⊢
  cases hstep with
  | passed hnone reply =>
    refine h.snoc fun r _ _ f _ hf => ?_
    rw [hnone] at hf
    cases hf
  | replayed f hf answer hit => exact h.snoc fun _ _ _ _ _ _ _ => rfl
  | handled f hf miss =>
    refine h.snoc fun r hr hkept g hg hfg hcame => ?_
    obtain rfl : f = g := Option.some.inj (hf.symm.trans hfg)
    have hsome := hs.live r hr hkept f hg (s.now + step.wait) (Nat.le_add_right _ _) hcame
    rw [miss] at hsome
    cases hsome

/-- A hit is the answer of a request with the same digest. -/
theorem ReplayInv.hit (hs : ReplayInv rt sha s) {t : ℕ} {answer : ℕ × J}
    (hit : cachedReply rt (s.cache.get t (buildCacheKey sha f)) = some answer) :
    ∃ r ∈ s.log, ∃ g, r.ran = true ∧ r.step.request.fields = some g ∧
      sha.hexdigest g.raw = sha.hexdigest f.raw ∧ r.reply = .json answer.1 answer.2 := by
  obtain ⟨text, hget, hload, hrenders⟩ := cachedReply_some hit
  obtain ⟨e, he, hkey, rfl, -⟩ := TtlCache.mem_of_get hget
  obtain ⟨r, hr, g, status, value, hran, hg, hkey', hvalue, hreply⟩ := hs.entries e he
  refine ⟨r, hr, g, hran, hg, buildCacheKey_inj (hkey'.symm.trans hkey), ?_⟩
  rw [hvalue, rt.loads_dumps] at hload
  obtain rfl := Option.some.inj hload
  rw [hreply, jsonResponse, if_pos hrenders]

variable {S : Set CacheFields}

theorem ReplaysOwn.step (hs : ReplayInv rt sha s) (h : ReplaysOwn s.log) (step : PostStep)
    (hsha : Set.InjOn sha.hexdigest (CacheFields.raw '' S)) (hraw : Set.InjOn CacheFields.raw S)
    (hlog : ∀ r ∈ s.log, ∀ f ∈ r.step.request.fields, f ∈ S) (hmem : ∀ f ∈ step.request.fields, f ∈ S) :
    ReplaysOwn (dispatch rt sha s step).log := by
  have hstep : Dispatched rt sha s step (dispatch rt sha s step) := dispatched s step
  generalize dispatch rt sha s step = s' at hstep ⊢
  cases hstep with
  | passed hnone reply => exact h.snoc fun hran => by cases hran
  | handled f hf miss => exact h.snoc fun hran => by cases hran
  | replayed f hf answer hit =>
    refine h.snoc fun _ => ?_
    obtain ⟨r, hr, g, hran, hg, hdigest, hreply⟩ := hs.hit hit
    have hfS : f ∈ S := hmem f hf
    have hgS : g ∈ S := hlog r hr g hg
    have hsame : g.raw = f.raw := hsha (Set.mem_image_of_mem _ hgS) (Set.mem_image_of_mem _ hfS) hdigest
    obtain rfl : g = f := hraw hgS hfS hsame
    exact ⟨r, hr, hran, hg.trans hf.symm, hreply, answer.1, answer.2, rfl⟩

theorem dispatch_log (s : ReplayState J) (step : PostStep) :
    ∃ x : Served J, x.step = step ∧ (dispatch rt sha s step).log = s.log ++ [x] := by
  have hstep : Dispatched rt sha s step (dispatch rt sha s step) := dispatched s step
  generalize dispatch rt sha s step = s' at hstep ⊢
  cases hstep <;> exact ⟨_, rfl, rfl⟩

/-- A run of requests whose joined texts read back in one way. -/
theorem run_owned (hsha : Set.InjOn sha.hexdigest (CacheFields.raw '' S)) (hraw : Set.InjOn CacheFields.raw S)
    (steps : List PostStep) (hmem : ∀ step ∈ steps, ∀ f ∈ step.request.fields, f ∈ S) :
    ReplaysOwn (runPosts rt sha steps).log ∧ RunsOnce rt (runPosts rt sha steps).log := by
  have hfold : ∀ (steps : List PostStep) (s : ReplayState J), (∀ step ∈ steps, ∀ f ∈ step.request.fields, f ∈ S) →
      ReplayInv rt sha s → (∀ r ∈ s.log, ∀ f ∈ r.step.request.fields, f ∈ S) → ReplaysOwn s.log → RunsOnce rt s.log →
      ReplaysOwn (steps.foldl (dispatch rt sha) s).log ∧ RunsOnce rt (steps.foldl (dispatch rt sha) s).log := by
    intro steps
    induction steps with
    | nil => exact fun s _ _ _ hown honce => ⟨hown, honce⟩
    | cons step rest ih =>
      intro s hmem hs hlog hown honce
      rw [List.forall_mem_cons] at hmem
      refine ih _ hmem.2 (hs.step step) ?_ (hown.step hs step hsha hraw hlog hmem.1) (honce.step hs step)
      obtain ⟨x, rfl, hx⟩ : ∃ x, x.step = step ∧ (dispatch rt sha s step).log = s.log ++ [x] := dispatch_log s step
      rw [hx]
      intro r hr f hf
      rcases List.mem_append.mp hr with hr | hr
      · exact hlog r hr f hf
      · rw [List.mem_singleton.mp hr] at hf
        exact hmem.1 f hf
  have hstart : ReplayInv rt sha .start := by
    constructor <;> simp [ReplayState.start]
  refine hfold steps .start hmem hstart (by simp [ReplayState.start]) ?_ ?_
  · intro pre x post heq
    simp [ReplayState.start] at heq
  · intro pre r mid x post f heq
    simp [ReplayState.start] at heq

/-! ### Two requests that join to one text -/

/-- The request with these fields. -/
def CacheFields.request (f : CacheFields) : KeyedRequest :=
  ⟨"POST", some f.idempotencyKey, some ⟨some f.tenantId, some f.identityId, none⟩, f.path⟩

theorem fields_request (f : CacheFields) : f.request.fields = some f := by
  have hidentity : truthy (some f.identityId) = some f.identityId := by
    rw [truthy, Option.filter_some, if_pos (by simpa using f.identity_ne)]
  simp [KeyedRequest.fields, CacheFields.request, coerceIdentityId, hidentity, f.tenant_ne, f.identity_ne, f.key_ne]

/-- The two, one after the other, with a handler that answers 200 and no body. -/
def twoPosts (f g : CacheFields) : List PostStep :=
  [⟨f.request, 0, 0, ⟨200, []⟩⟩, ⟨g.request, 0, 0, ⟨200, []⟩⟩]

theorem twoPosts_log (h : f.raw = g.raw) : (runPosts rt sha (twoPosts f g)).log =
    [⟨⟨f.request, 0, 0, ⟨200, []⟩⟩, 0, true, .json 200 rt.null⟩,
      ⟨⟨g.request, 0, 0, ⟨200, []⟩⟩, 0, false, .json 200 rt.null⟩] := by
  have hkey : buildCacheKey sha g = buildCacheKey sha f := by
    unfold buildCacheKey
    rw [h]
  have hhit : cachedReply rt ((TtlCache.set [] 0 IDEMPOTENCY_TTL_SECONDS (buildCacheKey sha f)
      (rt.dumpsCached (200, rt.null))).get 0 (buildCacheKey sha f)) = some (200, rt.null) := by
    have hlive : 0 < 0 + IDEMPOTENCY_TTL_SECONDS := by decide
    rw [TtlCache.get_set_self hlive, cachedReply_dumps rt.renders_null]
  have hfirst : dispatch rt sha .start ⟨f.request, 0, 0, ⟨200, []⟩⟩ =
      ⟨TtlCache.set [] 0 IDEMPOTENCY_TTL_SECONDS (buildCacheKey sha f) (rt.dumpsCached (200, rt.null)), 0,
        [⟨⟨f.request, 0, 0, ⟨200, []⟩⟩, 0, true, .json 200 rt.null⟩]⟩ := by
    simp [dispatch, fields_request, ReplayState.start, TtlCache.get, cachedReply, keepAnswer, isCacheableStatus,
      oversize, decodeBody, jsonResponse, rt.renders_null]
  rw [runPosts, twoPosts, List.foldl_cons, hfirst, List.foldl_cons, List.foldl_nil]
  simp [dispatch, fields_request, hkey, hhit]

/-- Requests with the fields of a set are only ever answered with their own answers, and run once while the answer
    lives, exactly when no two of them join to one text. -/
theorem replays_own_iff (rt : JsonRuntime J) (sha : Sha256) (S : Set CacheFields)
    (hsha : Set.InjOn sha.hexdigest (CacheFields.raw '' S)) :
    (∀ steps : List PostStep, (∀ step ∈ steps, ∀ f ∈ step.request.fields, f ∈ S) →
      ReplaysOwn (runPosts rt sha steps).log ∧ RunsOnce rt (runPosts rt sha steps).log) ↔
      Set.InjOn CacheFields.raw S := by
  refine ⟨fun hall f hf g hg hfg => ?_, fun hraw steps hmem => run_owned hsha hraw steps hmem⟩
  have hmem : ∀ step ∈ twoPosts f g, ∀ x ∈ step.request.fields, x ∈ S := by
    intro step hstep x hx
    simp only [twoPosts, List.mem_cons, List.not_mem_nil, or_false] at hstep
    rcases hstep with rfl | rfl
    · rw [fields_request] at hx
      exact Option.some.inj hx ▸ hf
    · rw [fields_request] at hx
      exact Option.some.inj hx ▸ hg
  obtain ⟨hown, -⟩ := hall (twoPosts f g) hmem
  rw [twoPosts_log hfg] at hown
  obtain ⟨r, hr, -, hfields, -⟩ := hown [_] _ [] rfl rfl
  rw [List.mem_singleton.mp hr, fields_request, fields_request] at hfields
  exact Option.some.inj hfields

/-- Fields without a colon join to a text that reads back in one way; the path may hold one. -/
theorem raw_injOn : Set.InjOn CacheFields.raw
    {f | ':' ∉ f.tenantId ∧ ':' ∉ f.identityId ∧ ':' ∉ f.idempotencyKey} := by
  rintro ⟨t, i, k, p, ht, hi, hk⟩ ⟨hct, hci, hck⟩ ⟨t', i', k', p', ht', hi', hk'⟩ ⟨hct', hci', hck'⟩ h
  obtain ⟨rfl, h⟩ := sepCons_inj hct hct' h
  obtain ⟨rfl, h⟩ := sepCons_inj hci hci' h
  obtain ⟨rfl, rfl⟩ := sepCons_inj hck hck' h
  rfl

end Proofs

/-! ### Two posts of one technician -/

section Technician

/-- JSON values as their texts, and a cached answer as its status and its body. -/
def jsonText : JsonRuntime Text where
  loads bytes := some (bytes.map fun b => Char.ofNat b.toNat)
  null := "null".toList
  renders _ := true
  renders_null := rfl
  dumpsCached answer := sepCons ',' (numeral answer.1) answer.2
  loadsCached text := some (Nat.ofDigitChars 10 (beforeSep ',' text) 0, afterSep ',' text)
  loads_dumps answer := by
    have hcomma : ',' ∉ numeral answer.1 := notMem_numeral (by decide) _
    rw [beforeSep_sepCons _ hcomma, afterSep_sepCons _ hcomma, numeral, Nat.ofDigitChars_ten_toDigits]

/-- A post of technician `u1` of tenant `t1`. -/
def techPost (key path : String) (h : key.toList ≠ []) : CacheFields :=
  ⟨"t1".toList, "u1".toList, key.toList, path.toList, by decide, by decide, h⟩

/-- The key and path of a note, and of a message that reads like it. -/
def notePost : CacheFields := techPost "k" "/notes/7:/send" (by decide)

def sendPost : CacheFields := techPost "k:/notes/7" "/send" (by decide)

/-- A payment under the note's key. -/
def payPost : CacheFields := techPost "k" "/pay" (by decide)

theorem polySha_injOn (f g : CacheFields) (h : polySha.hexdigest f.raw = polySha.hexdigest g.raw → f.raw = g.raw) :
    Set.InjOn polySha.hexdigest (CacheFields.raw '' {f, g}) := by
  rintro _ ⟨x, hx, rfl⟩ _ ⟨y, hy, rfl⟩ hxy
  rcases hx with rfl | rfl <;> rcases hy with rfl | rfl
  · rfl
  · exact h hxy
  · exact (h hxy.symm).symm
  · rfl

/-- A payment and a note under one key: each has its own answer. -/
theorem replays_own_iff_plain :
    ReplaysOwn (runPosts jsonText polySha (twoPosts payPost notePost)).log ∧
      RunsOnce jsonText (runPosts jsonText polySha (twoPosts payPost notePost)).log := by
  have hplain : ({payPost, notePost} : Set CacheFields) ⊆
      {f | ':' ∉ f.tenantId ∧ ':' ∉ f.identityId ∧ ':' ∉ f.idempotencyKey} := by
    rintro f (rfl | rfl) <;> exact ⟨by decide, by decide, by decide⟩
  refine (replays_own_iff jsonText polySha {payPost, notePost} (polySha_injOn _ _ (by decide +kernel))).mpr
    (raw_injOn.mono hplain) (twoPosts payPost notePost) ?_
  intro step hstep f hf
  simp only [twoPosts, List.mem_cons, List.not_mem_nil, or_false] at hstep
  rcases hstep with rfl | rfl
  · rw [fields_request] at hf
    exact Or.inl (Option.some.inj hf).symm
  · rw [fields_request] at hf
    exact Or.inr (Option.some.inj hf).symm

/-- The message is answered with the note's answer, and its handler does not run. -/
theorem send_answered_as_note :
    Set.InjOn polySha.hexdigest (CacheFields.raw '' {notePost, sendPost}) ∧ notePost.path ≠ sendPost.path ∧
      ¬ReplaysOwn (runPosts jsonText polySha (twoPosts notePost sendPost)).log := by
  have hraw : notePost.raw = sendPost.raw := by decide
  have hpath : notePost.path ≠ sendPost.path := by decide
  refine ⟨polySha_injOn _ _ fun _ => hraw, hpath, ?_⟩
  rw [twoPosts_log hraw]
  intro hown
  obtain ⟨r, hr, -, hfields, -⟩ := hown [_] _ [] rfl rfl
  rw [List.mem_singleton.mp hr, fields_request, fields_request] at hfields
  exact hpath (congrArg CacheFields.path (Option.some.inj hfields))

end Technician

end Gdx
