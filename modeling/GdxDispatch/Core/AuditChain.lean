import GdxDispatch.Lib.Text
import GdxDispatch.Lib.HashChain

/-! The hash-chained audit log of `core/audit.py`: the writer, the chain lock, and the two checks.

    Every audited write takes the chain lock, reads the newest chained row (the tip), stamps the new
    row strictly after it and hashes the tip's hash together with the row's content. The lock is held
    to the end of the transaction, so writers take turns. Rows written around the writer (the ledger's
    raw inserts) have an empty hash and no part in the chain.

    A run interleaves transactions at the granularity of the lock, the tip read and the insert. Along
    every run the chained rows, committed and pending, form one linked list in `created_at` order.
    Both checks rebuild the hashed text from the stored columns. The rebuilt action falls back to
    `"unknown"` when the stored one is empty, and the legacy signature can store an empty one. -/

namespace Gdx

open Lib

/-- The `hashlib.sha256(..).hexdigest()` of the source: 64 hexadecimal digits. -/
structure Sha256 where
  hexdigest : Text → Text
  length_hexdigest : ∀ t, (hexdigest t).length = 64
  hex_hexdigest : ∀ t, ∀ c ∈ hexdigest t, c ∈ "0123456789abcdef".toList

/-! ### The call -/

/-- What a caller passes as the actor: a text, or the `SYSTEM_ACTOR` object itself. -/
inductive AuditActor where
  | named (t : Text)
  | systemActor
deriving DecidableEq, Repr

/-- What the `_extract_*` helpers find on the request. -/
structure AuditRequest where
  tenantId : Option Text := none
  actor : Option Text := none
  ip : Option Text := none
  requestId : Option Text := none
deriving DecidableEq, Repr

/-- The arguments of `_log_audit_event_impl`. A keyword is `none` when its key is absent, and a key may
    be present with the value `None`; a positional event or entity type is a text. Details are JSON
    objects in their canonical text. -/
structure AuditCall where
  action : Option (Option Text) := none
  tenantId : Option (Option Text) := none
  userId : Option (Option AuditActor) := none
  details : Option (Option Text) := none
  ipAddress : Option (Option Text) := none
  requestId : Option (Option Text) := none
  eventType : Option (Option Text) := none
  actorId : Option (Option AuditActor) := none
  entityType : Option (Option Text) := none
  entityId : Option (Option Text) := none
  payload : Option (Option Text) := none
  actorRole : Option (Option Text) := none
  arg0 : Option Text := none
  arg1 : Option (Option AuditActor) := none
  arg2 : Option Text := none
  arg3 : Option (Option Text) := none
  arg4 : Option (Option Text) := none
  request : AuditRequest := {}
deriving DecidableEq, Repr

/-- Python's `a or b` on an optional text: an absent and an empty one both fall through. -/
def orText (a b : Option Text) : Option Text := if a.getD [] = [] then b else a

/-- `kwargs.get(key)`. -/
def kwargGet {α : Type} (k : Option (Option α)) : Option α := k.join

/-- A keyword of the new signature is present, whatever its value. -/
def AuditCall.newStyle (c : AuditCall) : Bool :=
  c.action.isSome || c.tenantId.isSome || c.userId.isSome || c.details.isSome ||
    c.ipAddress.isSome || c.requestId.isSome

def AuditActor.text : AuditActor → Text
  | .named t => t
  | .systemActor => "system".toList

/-- `a or b` on actors. -/
def orActor (a b : Option AuditActor) : Option AuditActor :=
  if (a.map AuditActor.text).getD [] = [] then b else a

def AuditCall.actionText (c : AuditCall) : Text :=
  if c.newStyle then
    (orText (kwargGet c.action) (kwargGet c.eventType)).getD [] |> fun t =>
      if t = [] then "unknown".toList else t
  else (orText (kwargGet c.eventType) (some (c.arg0.getD "unknown".toList))).getD []

def AuditCall.user (c : AuditCall) : Option AuditActor :=
  if c.newStyle then kwargGet c.userId else orActor (kwargGet c.actorId) c.arg1.join

def AuditCall.entityTypeText (c : AuditCall) : Text :=
  if c.newStyle then (orText (kwargGet c.entityType) (some "unknown".toList)).getD []
  else (orText (kwargGet c.entityType) (some (c.arg2.getD "unknown".toList))).getD []

def AuditCall.entity (c : AuditCall) : Option Text :=
  if c.newStyle then kwargGet c.entityId else orText (kwargGet c.entityId) c.arg3.join

/-- The JSON values that Python takes for false. -/
def falsyJson : List Text := ["null", "false", "0", "0.0", "-0.0", "\"\"", "[]", "{}"].map String.toList

/-- `_payload_json`, of a value in its canonical text: `payload or {}`. -/
def payloadJson (payload : Text) : Text := if payload ∈ falsyJson then "{}".toList else payload

/-- The details that are stored and hashed. -/
def AuditCall.detailsJson (c : AuditCall) : Text :=
  payloadJson ((if c.newStyle then kwargGet c.details
    else if c.payload.isSome then kwargGet c.payload else c.arg4.join).getD "{}".toList)

/-- `str(tenant_id or _extract_tenant_id(request) or "") or None`. -/
def AuditCall.tenant (c : AuditCall) : Option Text :=
  orText (orText (kwargGet c.tenantId) c.request.tenantId) none

/-- The caller's actor wins. With none, or the bare `"system"`, the authenticated principal of the
    request is taken, and `SYSTEM_ACTOR` itself is left alone. -/
def AuditCall.actor (c : AuditCall) : Text :=
  let given := (c.user.map AuditActor.text).getD []
  let resolved :=
    if c.user ≠ some .systemActor ∧ (given = [] ∨ given = "system".toList) then
      (orText c.request.actor (some given)).getD []
    else given
  if resolved = [] then "system".toList else resolved

/-! ### The row -/

/-- A row of `audit_logs`, with the legacy mirror columns. Times are microseconds, `details` and `payload` canonical
    JSON texts, `none` for a JSON null too. -/
structure AuditRow where
  id : ℕ
  tenantId : Option Text
  userId : Option Text
  action : Text
  entityType : Text
  entityId : Option Text
  details : Option Text
  ipAddress : Option Text
  requestId : Option Text
  rowHash : Text
  prevHash : Text
  createdAt : ℤ
  eventType : Option Text
  actorId : Option Text
  actorRole : Option Text
  payload : Option Text
  hash : Option Text
deriving DecidableEq, Repr

/-- An optional text as an f-string prints it. -/
def printed (o : Option Text) : Text := o.getD "None".toList

/-- `f"{tenant_id}:{user_id}:{action}:{entity_type}:{entity_id}:{details}:{request_id}"`. -/
def rowData (tenantId : Option Text) (userId action entityType : Text) (entityId : Option Text)
    (details : Text) (requestId : Option Text) : Text :=
  sepCons ':' (printed tenantId) (sepCons ':' userId (sepCons ':' action (sepCons ':' entityType
    (sepCons ':' (printed entityId) (sepCons ':' details (printed requestId))))))

/-- The mapper's `before_insert` hook. -/
def backfillLegacyFields (r : AuditRow) : AuditRow :=
  let r := { r with action := (orText (some r.action) r.eventType).getD r.action }
  let r := { r with eventType := orText r.eventType (if r.action = [] then r.eventType else some r.action) }
  let r := { r with userId := orText r.userId (orText r.actorId r.userId) }
  let r := { r with actorId := orText r.actorId (orText r.userId r.actorId) }
  let r := { r with details := r.details.orElse fun _ => r.payload }
  let r := { r with payload := r.payload.orElse fun _ => r.details }
  let r := { r with rowHash := if r.rowHash = [] then r.hash.getD [] else r.rowHash }
  { r with hash := if r.hash.getD [] = [] then (if r.rowHash = [] then r.hash else some r.rowHash)
                   else r.hash }

/-- Strictly after the tip, also when the clock stands still or steps back. -/
def nextStamp (tip : Option (Text × ℤ)) (clock : ℤ) : ℤ :=
  match tip with
  | none => clock
  | some (_, tipAt) => if clock ≤ tipAt then tipAt + 1 else clock

/-- The row `_log_audit_event_impl` adds to its session once it has read the tip. -/
def auditEntry (sha : Sha256) (c : AuditCall) (tip : Option (Text × ℤ)) (id : ℕ) (clock : ℤ) :
    AuditRow :=
  let prevHash := (tip.map Prod.fst).getD []
  let requestId := orText (kwargGet c.requestId) c.request.requestId
  let data := rowData c.tenant c.actor c.actionText c.entityTypeText c.entity c.detailsJson requestId
  let rowHash := sha.hexdigest (prevHash ++ data)
  { id := id, tenantId := c.tenant, userId := some c.actor, action := c.actionText
    entityType := c.entityTypeText, entityId := c.entity, details := some c.detailsJson
    ipAddress := orText (kwargGet c.ipAddress) c.request.ip, requestId := requestId
    rowHash := rowHash, prevHash := prevHash, createdAt := nextStamp tip clock
    eventType := some c.actionText, actorId := some c.actor, actorRole := kwargGet c.actorRole
    payload := some c.detailsJson, hash := some rowHash }

def AuditRow.chained (r : AuditRow) : Bool := r.rowHash != []

/-! ### The checks -/

/-- The hash of a row after `prevHash`, rebuilt from its stored columns. -/
def expectedRowHash (sha : Sha256) (r : AuditRow) (prevHash : Text) : Text :=
  let actor := (orText (orText r.userId r.actorId) (some "system".toList)).getD []
  let details := payloadJson (r.details.getD (r.payload.getD "{}".toList))
  let action := (orText (orText (some r.action) r.eventType) (some "unknown".toList)).getD []
  sha.hexdigest (prevHash ++
    rowData r.tenantId actor action r.entityType r.entityId details r.requestId)

/-- `order_by(created_at.asc(), id.asc())`. -/
def oldestFirst (a b : AuditRow) : Prop :=
  a.createdAt < b.createdAt ∨ (a.createdAt = b.createdAt ∧ a.id ≤ b.id)

instance : DecidableRel oldestFirst := fun _ _ => inferInstanceAs (Decidable (_ ∨ _))

/-- `order_by(created_at.desc(), id.desc())`. -/
def newestFirst (a b : AuditRow) : Prop := oldestFirst b a

instance : DecidableRel newestFirst := fun a b => inferInstanceAs (Decidable (oldestFirst b a))

instance : Std.Total newestFirst := ⟨fun a b => by
  unfold newestFirst oldestFirst
  omega⟩

instance : IsTrans AuditRow newestFirst := ⟨fun a b c hab hbc => by
  unfold newestFirst oldestFirst at *
  omega⟩

/-- The loop of `verify_audit_chain` from a predecessor hash. -/
def verifyFrom (sha : Sha256) : Text → List AuditRow → Bool
  | _, [] => true
  | prevHash, r :: rows =>
    let stored := (orText (some r.rowHash) r.hash).getD []
    if r.prevHash ≠ prevHash ∨ stored ≠ expectedRowHash sha r prevHash then false
    else verifyFrom sha stored rows

/-- The whole-table walk in `created_at` order, or the rows of one entity. -/
def verifyAuditChain (sha : Sha256) (table : List AuditRow) (entityType entityId : Option Text) : Bool :=
  let rows := (table.filter fun r =>
    (entityType.all (r.entityType = ·)) && (entityId.all (r.entityId = some ·))).insertionSort oldestFirst
  match rows with
  | [] => true
  | r :: _ => verifyFrom sha r.prevHash rows

def auditChainSerializedAction : Text := "audit_chain.serialized_writer".toList

/-- When the serialized writer started, by its marker row. -/
def knownBreaksBefore (table : List AuditRow) : Option ℤ :=
  ((table.filter fun r => r.action = auditChainSerializedAction).map AuditRow.createdAt).min?

structure ChainFork where
  prevHash : Text
  children : ℕ
  lastAt : ℤ
  known : Bool
deriving DecidableEq, Repr

structure ChainReport where
  chained : ℕ
  unchained : ℕ
  badHash : ℕ
  dangling : ℕ
  forks : List ChainFork
  newForks : ℕ
  restarts : ℕ
  newRestarts : ℕ
  knownBreaks : ℕ
  knownBreaksBefore : Option ℤ
  broken : Bool
deriving DecidableEq, Repr

/-- Older than the marker. -/
def isHistory (cutoff : Option ℤ) (at' : ℤ) : Bool := cutoff.any (at' < ·)

/-- The rows that name one predecessor, when there is more than one of them. -/
def forkAt (cutoff : Option ℤ) (rows : List AuditRow) (prevHash : Text) : Option ChainFork :=
  let kids := rows.filter fun r => r.prevHash = prevHash
  let lastAt := ((kids.map AuditRow.createdAt).max?).getD 0
  if prevHash ≠ [] ∧ 1 < kids.length then
    some { prevHash := prevHash, children := kids.length, lastAt := lastAt
           known := isHistory cutoff lastAt }
  else none

/-- The shape of the chain, row by row. -/
def auditChainReport (sha : Sha256) (table : List AuditRow) : ChainReport :=
  let rows := table.filter AuditRow.chained
  let hashes := rows.map AuditRow.rowHash
  let badHash := rows.countP fun r => r.rowHash ≠ expectedRowHash sha r r.prevHash
  let dangling := rows.countP fun r => r.prevHash ≠ [] ∧ r.prevHash ∉ hashes
  let cutoff := knownBreaksBefore table
  let forks := (rows.map AuditRow.prevHash).eraseDups.filterMap (forkAt cutoff rows)
  let starts := (rows.filter fun r => r.prevHash = []).insertionSort oldestFirst
  let restarts := starts.tail
  let newForks := forks.countP fun f => !f.known
  let newRestarts := restarts.countP fun r => !isHistory cutoff r.createdAt
  { chained := rows.length
    unchained := table.countP fun r => r.rowHash = []
    badHash := badHash, dangling := dangling, forks := forks, newForks := newForks
    restarts := restarts.length, newRestarts := newRestarts
    knownBreaks := forks.length - newForks + (restarts.length - newRestarts)
    knownBreaksBefore := cutoff
    broken := badHash ≠ 0 || dangling ≠ 0 || newForks ≠ 0 || newRestarts ≠ 0 }

/-! ### Transactions and the chain lock -/

/-- The committed table, the rows each open transaction has inserted, who holds the chain lock, and
    what the holder's tip read returned while its insert is outstanding. -/
structure AuditState where
  committed : List AuditRow
  pending : List (ℕ × AuditRow)
  holder : Option ℕ
  tip : Option (Option (Text × ℤ))
deriving DecidableEq, Repr

/-- One action of one transaction. `insert` takes the new row's id and the clock's reading. -/
inductive AuditStep where
  | lock (tx : ℕ)
  | readTip (tx : ℕ)
  | insert (tx : ℕ) (call : AuditCall) (id : ℕ) (clock : ℤ)
  | unchained (tx : ℕ) (row : AuditRow)
  | commit (tx : ℕ)
  | rollback (tx : ℕ)
deriving DecidableEq, Repr

/-- The rows a transaction has inserted and not committed. -/
def AuditState.own (s : AuditState) (tx : ℕ) : List AuditRow :=
  (s.pending.filter fun p => p.1 = tx).map Prod.snd

/-- The newest chained row a transaction sees. -/
def chainTip (visible : List AuditRow) : Option (Text × ℤ) :=
  (((visible.filter AuditRow.chained).insertionSort newestFirst).head?).map fun r =>
    (r.rowHash, r.createdAt)

/-- The lock is free for a transaction when nobody else holds it. -/
def AuditState.lockFree (s : AuditState) (tx : ℕ) : Bool :=
  s.holder = none || s.holder = some tx

/-- The end of a transaction: its rows leave the pending ones and its lock is released. -/
def AuditState.finish (s : AuditState) (tx : ℕ) (committed : List AuditRow) : AuditState :=
  { committed := committed
    pending := s.pending.filter fun p => p.1 ≠ tx
    holder := if s.holder = some tx then none else s.holder
    tip := if s.holder = some tx then none else s.tip }

/-- One step, or `none` where the lock makes the transaction wait. -/
def auditStep (sha : Sha256) (s : AuditState) : AuditStep → Option AuditState
  | .lock tx => if s.lockFree tx then some { s with holder := some tx, tip := none } else none
  | .readTip tx =>
    if s.holder = some tx then some { s with tip := some (chainTip (s.committed ++ s.own tx)) }
    else none
  | .insert tx call id clock =>
    match s.tip with
    | none => none
    | some tip =>
      if s.holder = some tx then
        some { s with
          pending := s.pending ++ [(tx, backfillLegacyFields (auditEntry sha call tip id clock))]
          tip := none }
      else none
  | .unchained tx row => some { s with pending := s.pending ++ [(tx, { row with rowHash := [] })] }
  | .commit tx => some (s.finish tx (s.committed ++ s.own tx))
  | .rollback tx => some (s.finish tx s.committed)

/-- A run from the empty table. -/
def runAudit (sha : Sha256) (steps : List AuditStep) : Option AuditState :=
  steps.foldlM (auditStep sha) { committed := [], pending := [], holder := none, tip := none }

/-! ### What the writer stores -/

/-- A legacy call whose event type is the empty text. -/
def AuditCall.EmptyEvent (c : AuditCall) : Prop :=
  c.newStyle = false ∧ (kwargGet c.eventType).getD [] = [] ∧ c.arg0 = some []

instance (c : AuditCall) : Decidable c.EmptyEvent := inferInstanceAs (Decidable (_ ∧ _))

/-- The calls a run writes. -/
def AuditStep.call? : AuditStep → Option AuditCall
  | .insert _ call _ _ => some call
  | _ => none

theorem orText_of_ne {t : Text} (h : t ≠ []) (o : Option Text) : orText (some t) o = some t := by
  simp [orText, h]

/-- Only the empty event of a legacy call leaves an empty action. -/
theorem actionText_eq_nil {c : AuditCall} : c.actionText = [] ↔ c.EmptyEvent := by
  unfold AuditCall.actionText AuditCall.EmptyEvent
  cases hstyle : c.newStyle with
  | true =>
    simp only [if_true, Bool.true_eq_false, false_and, iff_false]
    intro h
    split at h
    · simp at h
    · contradiction
  | false =>
    simp only [Bool.false_eq_true, if_false, true_and, orText]
    cases hevent : kwargGet c.eventType with
    | none => cases harg : c.arg0 <;> simp
    | some e =>
      by_cases he : e = []
      · cases harg : c.arg0 <;> simp [he]
      · simp [he]

theorem actor_ne_nil (c : AuditCall) : c.actor ≠ [] := by
  have hfill : ∀ t : Text, (if t = [] then "system".toList else t) ≠ [] := by
    intro t
    by_cases ht : t = [] <;> simp [ht]
  exact hfill _

variable {sha : Sha256}

theorem hexdigest_ne_nil (t : Text) : sha.hexdigest t ≠ [] := by
  intro h
  have hlen := sha.length_hexdigest t
  rw [h] at hlen
  simp at hlen

theorem colon_notMem_hexdigest (sha : Sha256) (t : Text) : ':' ∉ sha.hexdigest t := by
  intro h
  exact absurd (sha.hex_hexdigest t _ h) (by decide)

/-- The writer fills every mirror itself, so the hook changes nothing. -/
theorem backfill_auditEntry (c : AuditCall) (tip : Option (Text × ℤ)) (id : ℕ) (clock : ℤ) :
    backfillLegacyFields (auditEntry sha c tip id clock) = auditEntry sha c tip id clock := by
  by_cases haction : c.actionText = [] <;>
    simp [backfillLegacyFields, auditEntry, orText, hexdigest_ne_nil, actor_ne_nil, haction]

/-- The text a row's hash is taken of, by its stored columns. -/
def AuditRow.text (r : AuditRow) : Text :=
  r.prevHash ++ rowData r.tenantId ((orText (orText r.userId r.actorId) (some "system".toList)).getD [])
    ((orText (orText (some r.action) r.eventType) (some "unknown".toList)).getD []) r.entityType
    r.entityId (payloadJson (r.details.getD (r.payload.getD "{}".toList))) r.requestId

theorem expectedRowHash_eq (r : AuditRow) : expectedRowHash sha r r.prevHash = sha.hexdigest r.text := by
  rw [expectedRowHash, AuditRow.text]

theorem payloadJson_idem (payload : Text) : payloadJson (payloadJson payload) = payloadJson payload := by
  by_cases hfalsy : payload ∈ falsyJson
  · rw [show payloadJson payload = "{}".toList from if_pos hfalsy]
    decide
  · rw [show payloadJson payload = payload from if_neg hfalsy, payloadJson, if_neg hfalsy]

/-- A row whose stored hash is the hash of its stored columns, with a tenant id shorter than a hash. -/
structure AuditRow.Sound (sha : Sha256) (r : AuditRow) : Prop where
  hashed : r.rowHash = sha.hexdigest r.text
  tenant : (printed r.tenantId).length < 64

theorem auditEntry_sound {c : AuditCall} (hevent : ¬c.EmptyEvent)
    (htenant : (printed c.tenant).length < 64) (tip : Option (Text × ℤ)) (id : ℕ) (clock : ℤ) :
    (auditEntry sha c tip id clock).Sound sha := by
  have haction : c.actionText ≠ [] := mt actionText_eq_nil.mp hevent
  refine ⟨?_, htenant⟩
  simp only [auditEntry, AuditRow.text, orText_of_ne haction, orText_of_ne (actor_ne_nil c),
    Option.getD_some, AuditCall.detailsJson, payloadJson_idem]

/-! ### Distinct hashes -/

theorem head_of_data {r : AuditRow} (h : r.prevHash = []) :
    ∃ rest, r.text = sepCons ':' (printed r.tenantId) rest := by
  rw [AuditRow.text, h, List.nil_append, rowData]
  exact ⟨_, rfl⟩

/-- A text that starts the chain is not the text of a later row: within the first 64 characters it has
    a colon, which a hash has not. -/
theorem start_text_ne {a b : AuditRow} (ha : a.Sound sha) (hstart : a.prevHash = []) {t : Text}
    (hb : b.prevHash = sha.hexdigest t) : a.text ≠ b.text := by
  intro h
  obtain ⟨rest, hrest⟩ := head_of_data hstart
  have htake : (a.text.take 64) = sha.hexdigest t := by
    rw [h, AuditRow.text, hb, List.take_append_of_le_length (sha.length_hexdigest t).ge]
    exact List.take_of_length_le (sha.length_hexdigest t).le
  refine colon_notMem_hexdigest sha t ?_
  rw [← htake, hrest, sepCons, List.take_append]
  refine List.mem_append_right _ ?_
  have hpos : 64 - (printed a.tenantId).length = (63 - (printed a.tenantId).length) + 1 := by
    have := ha.tenant
    omega
  rw [hpos, List.take_succ_cons]
  exact List.mem_cons_self

/-- Rows of one linked list with one text name one predecessor. -/
theorem prevHash_eq_of_text_eq {l : List AuditRow} (hl : Linked AuditRow.rowHash AuditRow.prevHash [] l)
    (hsound : ∀ r ∈ l, r.Sound sha) {a b : AuditRow} (ha : a ∈ l) (hb : b ∈ l)
    (h : a.text = b.text) : a.prevHash = b.prevHash := by
  have hprev : ∀ r ∈ l, r.prevHash = [] ∨ ∃ t, r.prevHash = sha.hexdigest t := by
    intro r hr
    rcases List.mem_cons.mp (hl.prev_mem hr) with hroot | hmem
    · exact Or.inl hroot
    · obtain ⟨q, hq, heq⟩ := List.mem_map.mp hmem
      exact Or.inr ⟨q.text, by rw [← heq, (hsound q hq).hashed]⟩
  rcases hprev a ha with hra | ⟨ta, hta⟩ <;> rcases hprev b hb with hrb | ⟨tb, htb⟩
  · rw [hra, hrb]
  · exact absurd h (start_text_ne (hsound a ha) hra htb)
  · exact absurd h.symm (start_text_ne (hsound b hb) hrb hta)
  · have hlen : a.prevHash.length = b.prevHash.length := by
      rw [hta, htb, sha.length_hexdigest, sha.length_hexdigest]
    exact (List.append_inj h hlen).1

/-! ### The invariant of a run -/

/-- The chained rows, committed ones first, then the pending ones. -/
def AuditState.chain (s : AuditState) : List AuditRow :=
  s.committed.filter AuditRow.chained ++ (s.pending.map Prod.snd).filter AuditRow.chained

/-- What a tip read should find at the end of a chain. -/
def tipOf (chain : List AuditRow) : Option (Text × ℤ) :=
  chain.getLast?.map fun r => (r.rowHash, r.createdAt)

/-- One list, in `created_at` order, with every pending chained row behind the lock. -/
structure Serialized (sha : Sha256) (s : AuditState) : Prop where
  linked : Linked AuditRow.rowHash AuditRow.prevHash [] s.chain
  ordered : s.chain.Pairwise fun a b => a.createdAt < b.createdAt
  sound : ∀ r ∈ s.chain, r.Sound sha
  locked : ∀ p ∈ s.pending, p.2.chained = true → s.holder = some p.1
  tipped : ∀ t, s.tip = some t → t = tipOf s.chain

/-- Only the holder has chained rows pending, so a choice of transactions takes all of them or none. -/
theorem pending_filter_chained {s : AuditState} (h : ∀ p ∈ s.pending, p.2.chained = true → s.holder = some p.1)
    {f : ℕ → Bool} {b : Bool} (hsel : ∀ tx, s.holder = some tx → f tx = b) :
    ((s.pending.filter fun p => f p.1).map Prod.snd).filter AuditRow.chained =
      if b then (s.pending.map Prod.snd).filter AuditRow.chained else [] := by
  have hchosen : (s.pending.filter fun p => p.2.chained && f p.1) = s.pending.filter fun p => p.2.chained && b := by
    refine List.filter_congr fun p hp => ?_
    cases hc : p.2.chained with
    | false => rfl
    | true => rw [hsel _ (h p hp hc)]
  rw [List.filter_map, List.filter_filter, List.filter_map]
  simp only [Function.comp_apply, hchosen]
  cases b <;> simp [Function.comp_def]

theorem own_filter_chained {s : AuditState} (h : ∀ p ∈ s.pending, p.2.chained = true → s.holder = some p.1)
    (tx : ℕ) : (s.own tx).filter AuditRow.chained =
      if s.holder = some tx then (s.pending.map Prod.snd).filter AuditRow.chained else [] := by
  have hown := pending_filter_chained h (f := fun t => t = tx) (b := s.holder = some tx) (by simp +contextual)
  simpa [AuditState.own] using hown

theorem rest_filter_chained {s : AuditState} (h : ∀ p ∈ s.pending, p.2.chained = true → s.holder = some p.1)
    (tx : ℕ) : ((s.pending.filter fun p => p.1 ≠ tx).map Prod.snd).filter AuditRow.chained =
      if s.holder = some tx then [] else (s.pending.map Prod.snd).filter AuditRow.chained := by
  have hrest := pending_filter_chained h (b := s.holder ≠ some tx) (fun t ht => by simp [ht] : ∀ t, _ → decide (t ≠ tx) = _)
  simpa using hrest

theorem chainTip_eq {visible : List AuditRow}
    (h : (visible.filter AuditRow.chained).Pairwise fun a b => a.createdAt < b.createdAt) :
    chainTip visible = tipOf (visible.filter AuditRow.chained) := by
  set l := visible.filter AuditRow.chained with hl
  have hstamps : (l.map AuditRow.createdAt).Nodup :=
    List.pairwise_map.mpr (h.imp fun hab => hab.ne)
  have hnewest : l.reverse.Pairwise newestFirst := by
    rw [List.pairwise_reverse]
    exact h.imp fun hab => Or.inl hab
  have hperm : (l.insertionSort newestFirst).Perm l.reverse :=
    (List.perm_insertionSort newestFirst l).trans l.reverse_perm.symm
  -- Two rows that each come no later than the other have one stamp, so they are one row of `l`.
  have hanti : ∀ a b, a ∈ l.insertionSort newestFirst → b ∈ l.reverse →
      newestFirst a b → newestFirst b a → a = b := by
    intro a b ha hb hab hba
    have hstamp : a.createdAt = b.createdAt := by
      unfold newestFirst oldestFirst at hab hba
      omega
    exact List.inj_on_of_nodup_map hstamps ((List.mem_insertionSort _).mp ha)
      (List.mem_reverse.mp hb) hstamp
  have heq : l.insertionSort newestFirst = l.reverse :=
    hperm.eq_of_pairwise hanti (List.pairwise_insertionSort _ _) hnewest
  rw [chainTip, ← hl, heq, tipOf, List.head?_reverse]

theorem Serialized.visible_chained {s : AuditState} (h : Serialized sha s) {tx : ℕ}
    (hholder : s.holder = some tx) :
    (s.committed ++ s.own tx).filter AuditRow.chained = s.chain := by
  rw [List.filter_append, own_filter_chained h.locked, if_pos hholder, AuditState.chain]

/-- A state with the chain of another one, or a start of it, is serialized when its lock is right. -/
theorem Serialized.mono {s s' : AuditState} (h : Serialized sha s) (hchain : s'.chain <+: s.chain)
    (hlocked : ∀ p ∈ s'.pending, p.2.chained = true → s'.holder = some p.1)
    (htipped : ∀ t, s'.tip = some t → t = tipOf s'.chain) : Serialized sha s' := by
  obtain ⟨rest, hrest⟩ := hchain
  refine ⟨?_, ?_, ?_, hlocked, htipped⟩
  · have hlinked := h.linked
    rw [← hrest, linked_append] at hlinked
    exact hlinked.1
  · exact h.ordered.sublist (hrest ▸ List.sublist_append_left _ _)
  · exact fun r hr => h.sound r (hrest ▸ List.mem_append_left _ hr)

theorem Serialized.lock {s : AuditState} (h : Serialized sha s) {tx : ℕ} (hfree : s.lockFree tx = true) :
    Serialized sha { s with holder := some tx, tip := none } := by
  refine h.mono (List.prefix_refl _) ?_ (by simp)
  intro p hp hc
  have hholder := h.locked p hp hc
  simp only [AuditState.lockFree, Bool.or_eq_true, decide_eq_true_eq] at hfree
  rcases hfree with hnone | hsome
  · rw [hholder] at hnone
    simp at hnone
  · exact hsome ▸ hholder

theorem Serialized.readTip {s : AuditState} (h : Serialized sha s) {tx : ℕ}
    (hholder : s.holder = some tx) :
    Serialized sha { s with tip := some (chainTip (s.committed ++ s.own tx)) } := by
  refine h.mono (List.prefix_refl _) h.locked ?_
  intro t ht
  have hvisible := h.visible_chained hholder
  have htip : chainTip (s.committed ++ s.own tx) = tipOf s.chain := by
    rw [chainTip_eq (by rw [hvisible]; exact h.ordered), hvisible]
  rw [← Option.some.inj ht, htip]
  rfl

/-- The new stamp is after every row of the chain, whatever the clock says. -/
theorem lt_nextStamp {l : List AuditRow} (h : l.Pairwise fun a b => a.createdAt < b.createdAt)
    {a : AuditRow} (ha : a ∈ l) (clock : ℤ) : a.createdAt < nextStamp (tipOf l) clock := by
  rcases List.eq_nil_or_concat' l with rfl | ⟨l', b, rfl⟩
  · simp at ha
  · have htip : tipOf (l' ++ [b]) = some (b.rowHash, b.createdAt) := by simp [tipOf]
    have hlast : b.createdAt < nextStamp (tipOf (l' ++ [b])) clock := by
      rw [htip]
      change b.createdAt < if clock ≤ b.createdAt then b.createdAt + 1 else clock
      split <;> omega
    rcases List.mem_append.mp ha with ha | ha
    · have hlt := (List.pairwise_append.mp h).2.2 a ha b (by simp)
      omega
    · rw [List.mem_singleton.mp ha]
      exact hlast

/-- The pending rows with one more at the end. -/
theorem chain_insert (s : AuditState) (tx : ℕ) (r : AuditRow) (tip : Option (Option (Text × ℤ))) :
    ({ s with pending := s.pending ++ [(tx, r)], tip := tip } : AuditState).chain =
      s.chain ++ [r].filter AuditRow.chained := by
  simp [AuditState.chain, List.filter_append]

theorem Serialized.insert {s : AuditState} (h : Serialized sha s) {tx : ℕ}
    (hholder : s.holder = some tx) {tip : Option (Text × ℤ)} (htip : s.tip = some tip)
    {c : AuditCall} (hevent : ¬c.EmptyEvent) (htenant : (printed c.tenant).length < 64)
    (id : ℕ) (clock : ℤ) :
    Serialized sha { s with
      pending := s.pending ++ [(tx, auditEntry sha c tip id clock)], tip := none } := by
  set r := auditEntry sha c tip id clock with hr
  have hchained : r.chained = true := by
    simp [AuditRow.chained, hr, auditEntry, hexdigest_ne_nil]
  have htipOf : tip = tipOf s.chain := h.tipped _ htip
  have hprev : r.prevHash = lastHash AuditRow.rowHash [] s.chain := by
    rw [hr, auditEntry, htipOf, tipOf, lastHash, Option.map_map]
    rfl
  have hstamp : ∀ a ∈ s.chain, a.createdAt < r.createdAt := by
    have hcreated : r.createdAt = nextStamp (tipOf s.chain) clock := by rw [← htipOf, hr, auditEntry]
    rw [hcreated]
    exact fun a ha => lt_nextStamp h.ordered ha clock
  have hchain := chain_insert s tx r none
  rw [List.filter_singleton, hchained, cond_true] at hchain
  refine ⟨?_, ?_, ?_, ?_, by simp⟩
  · rw [hchain, linked_concat]
    exact ⟨h.linked, hprev⟩
  · rw [hchain, List.pairwise_append]
    exact ⟨h.ordered, by simp, fun a ha b hb => List.mem_singleton.mp hb ▸ hstamp a ha⟩
  · intro a ha
    rw [hchain, List.mem_append, List.mem_singleton] at ha
    rcases ha with ha | rfl
    · exact h.sound a ha
    · exact auditEntry_sound hevent htenant tip id clock
  · intro p hp hc
    rcases List.mem_append.mp hp with hp | hp
    · exact h.locked p hp hc
    · obtain rfl := List.mem_singleton.mp hp
      exact hholder

theorem Serialized.unchained {s : AuditState} (h : Serialized sha s) (tx : ℕ) (r : AuditRow) :
    Serialized sha { s with pending := s.pending ++ [(tx, { r with rowHash := [] })] } := by
  have hchain := chain_insert s tx { r with rowHash := [] } s.tip
  have hnone : [({ r with rowHash := [] } : AuditRow)].filter AuditRow.chained = [] := by
    simp [AuditRow.chained]
  rw [hnone, List.append_nil] at hchain
  refine h.mono (by rw [hchain]) ?_ ?_
  · intro p hp hc
    rcases List.mem_append.mp hp with hp | hp
    · exact h.locked p hp hc
    · obtain rfl := List.mem_singleton.mp hp
      simp [AuditRow.chained] at hc
  · intro t ht
    rw [hchain]
    exact h.tipped t ht

/-- The end of a transaction, with its rows kept or dropped. -/
theorem Serialized.finish {s : AuditState} (h : Serialized sha s) (tx : ℕ) {kept : List AuditRow}
    (hkept : kept = [] ∨ kept = s.own tx) : Serialized sha (s.finish tx (s.committed ++ kept)) := by
  have hchain : (s.finish tx (s.committed ++ kept)).chain =
      s.committed.filter AuditRow.chained ++ kept.filter AuditRow.chained ++
        (if s.holder = some tx then [] else (s.pending.map Prod.snd).filter AuditRow.chained) := by
    rw [AuditState.chain, AuditState.finish, List.filter_append, rest_filter_chained h.locked]
  have hown := own_filter_chained h.locked tx
  have hlocked : ∀ p ∈ (s.finish tx (s.committed ++ kept)).pending, p.2.chained = true →
      (s.finish tx (s.committed ++ kept)).holder = some p.1 := by
    intro p hp hc
    obtain ⟨hmem, hne⟩ := List.mem_filter.mp hp
    have hholder := h.locked p hmem hc
    have hne' : s.holder ≠ some tx := by
      rw [hholder]
      simpa using hne
    rw [AuditState.finish, if_neg hne']
    exact hholder
  by_cases hholder : s.holder = some tx
  · refine h.mono ?_ hlocked (by simp [AuditState.finish, hholder])
    rw [hchain, if_pos hholder, List.append_nil, AuditState.chain]
    rw [if_pos hholder] at hown
    rcases hkept with rfl | rfl
    · simp
    · rw [hown]
  · have hsame : (s.finish tx (s.committed ++ kept)).chain = s.chain := by
      rw [if_neg hholder] at hown
      rw [hchain, if_neg hholder, AuditState.chain]
      rcases hkept with rfl | rfl
      · simp
      · rw [hown, List.append_nil]
    refine h.mono (by rw [hsame]) hlocked ?_
    intro t ht
    have htip : s.tip = some t := by simpa [AuditState.finish, hholder] using ht
    rw [hsame]
    exact h.tipped t htip

/-- A write names its event: it is no legacy call with an empty event type. -/
def AuditStep.Named (step : AuditStep) : Prop := ∀ c ∈ step.call?, ¬c.EmptyEvent

instance (step : AuditStep) : Decidable step.Named :=
  inferInstanceAs (Decidable (∀ c ∈ step.call?, ¬c.EmptyEvent))

/-- The tenant ids a run writes are shorter than a hash, as the ids of `tenants` (UUIDs) are. -/
def AuditStep.ShortTenant (step : AuditStep) : Prop :=
  ∀ c ∈ step.call?, (printed c.tenant).length < 64

instance (step : AuditStep) : Decidable step.ShortTenant :=
  inferInstanceAs (Decidable (∀ c ∈ step.call?, (printed c.tenant).length < 64))

theorem auditStep_serialized {s s' : AuditState} {step : AuditStep} (h : Serialized sha s)
    (hnamed : step.Named) (htenant : step.ShortTenant) (hstep : auditStep sha s step = some s') :
    Serialized sha s' := by
  cases step with
  | lock tx =>
    simp only [auditStep, Option.ite_none_right_eq_some, Option.some.injEq] at hstep
    obtain ⟨hfree, rfl⟩ := hstep
    exact h.lock hfree
  | readTip tx =>
    simp only [auditStep, Option.ite_none_right_eq_some, Option.some.injEq] at hstep
    obtain ⟨hholder, rfl⟩ := hstep
    exact h.readTip hholder
  | insert tx call id clock =>
    cases htip : s.tip with
    | none => simp [auditStep, htip] at hstep
    | some tip =>
      simp only [auditStep, htip, Option.ite_none_right_eq_some, Option.some.injEq,
        backfill_auditEntry] at hstep
      obtain ⟨hholder, rfl⟩ := hstep
      exact h.insert hholder htip (hnamed call rfl) (htenant call rfl) id clock
  | unchained tx row =>
    obtain rfl := Option.some.inj hstep
    exact h.unchained tx row
  | commit tx =>
    obtain rfl := Option.some.inj hstep
    exact h.finish tx (Or.inr rfl)
  | rollback tx =>
    obtain rfl := Option.some.inj hstep
    simpa using h.finish tx (Or.inl rfl)

/-- Every state of a run whose calls name their events is serialized. -/
theorem runAudit_serialized {steps : List AuditStep} {s : AuditState}
    (hrun : runAudit sha steps = some s) (hnamed : ∀ step ∈ steps, step.Named)
    (htenant : ∀ step ∈ steps, step.ShortTenant) : Serialized sha s := by
  have hfold : ∀ (steps : List AuditStep) (s₀ : AuditState), Serialized sha s₀ →
      (∀ step ∈ steps, step.Named) → (∀ step ∈ steps, step.ShortTenant) →
      steps.foldlM (auditStep sha) s₀ = some s → Serialized sha s := by
    intro steps
    induction steps with
    | nil =>
      intro s₀ h₀ _ _ hs
      rwa [← Option.some.inj hs]
    | cons step steps ih =>
      intro s₀ h₀ hn ht hs
      rw [List.foldlM_cons] at hs
      obtain ⟨s₁, hstep, hrest⟩ := Option.bind_eq_some_iff.mp hs
      exact ih s₁ (auditStep_serialized h₀ (hn step (by simp)) (ht step (by simp)) hstep)
        (fun x hx => hn x (by simp [hx])) (fun x hx => ht x (by simp [hx])) hrest
  refine hfold steps _ ⟨?_, ?_, ?_, ?_, ?_⟩ hnamed htenant hrun <;> simp [AuditState.chain, Linked]

/-! ### The checks on a serialized table -/

/-- No two texts hashed for the chained rows of the table collide. -/
def CollisionFree (sha : Sha256) (table : List AuditRow) : Prop :=
  ∀ a ∈ table, ∀ b ∈ table, a.chained = true → b.chained = true →
    sha.hexdigest a.text = sha.hexdigest b.text → a.text = b.text

instance (sha : Sha256) (table : List AuditRow) : Decidable (CollisionFree sha table) :=
  inferInstanceAs (Decidable (∀ a ∈ table, ∀ b ∈ table, _))

/-- The chained rows of a table are one linked list of sound rows, in `created_at` order. -/
structure OneChain (sha : Sha256) (rows : List AuditRow) : Prop where
  linked : Linked AuditRow.rowHash AuditRow.prevHash [] rows
  ordered : rows.Pairwise fun a b => a.createdAt < b.createdAt
  sound : ∀ r ∈ rows, r.Sound sha

theorem Serialized.committed {s : AuditState} (h : Serialized sha s) :
    OneChain sha (s.committed.filter AuditRow.chained) := by
  refine ⟨?_, ?_, ?_⟩
  · exact (linked_append.mp h.linked).1
  · exact (List.pairwise_append.mp h.ordered).1
  · exact fun r hr => h.sound r (List.mem_append_left _ hr)

theorem OneChain.sorted {rows : List AuditRow} (h : OneChain sha rows) :
    rows.insertionSort oldestFirst = rows :=
  List.Pairwise.insertionSort_eq (h.ordered.imp fun hab => Or.inl hab)

/-- No row of the chain has the empty hash, and two with one hash name one predecessor. -/
theorem OneChain.hash_facts {table : List AuditRow} (h : OneChain sha (table.filter AuditRow.chained))
    (hsha : CollisionFree sha table) :
    (∀ a ∈ table.filter AuditRow.chained, a.rowHash ≠ []) ∧
      ∀ a ∈ table.filter AuditRow.chained, ∀ b ∈ table.filter AuditRow.chained,
        a.rowHash = b.rowHash → a.prevHash = b.prevHash := by
  refine ⟨fun a ha => ?_, fun a ha b hb heq => ?_⟩
  · rw [(h.sound a ha).hashed]
    exact hexdigest_ne_nil _
  · obtain ⟨ha', hca⟩ := List.mem_filter.mp ha
    obtain ⟨hb', hcb⟩ := List.mem_filter.mp hb
    rw [(h.sound a ha).hashed, (h.sound b hb).hashed] at heq
    exact prevHash_eq_of_text_eq h.linked h.sound ha hb (hsha a ha' b hb' hca hcb heq)

theorem OneChain.prev_nodup {table : List AuditRow} (h : OneChain sha (table.filter AuditRow.chained))
    (hsha : CollisionFree sha table) :
    ((table.filter AuditRow.chained).map AuditRow.prevHash).Nodup :=
  h.linked.prev_nodup (h.hash_facts hsha).1 (h.hash_facts hsha).2

theorem OneChain.hash_nodup {table : List AuditRow} (h : OneChain sha (table.filter AuditRow.chained))
    (hsha : CollisionFree sha table) :
    ([] :: (table.filter AuditRow.chained).map AuditRow.rowHash).Nodup :=
  h.linked.nodup (h.hash_facts hsha).1 (h.hash_facts hsha).2

theorem kids_length_le {rows : List AuditRow} (h : (rows.map AuditRow.prevHash).Nodup) (p : Text) :
    (rows.filter fun r => r.prevHash = p).length ≤ 1 := by
  have hcount := List.nodup_iff_count_le_one.mp h p
  rw [List.count, List.countP_map] at hcount
  rw [← List.countP_eq_length_filter]
  refine (List.countP_congr fun r _ => ?_).trans_le hcount
  simp

/-- The report finds no bad hash, no dangling predecessor, no fork and no second start. -/
theorem OneChain.not_broken {table : List AuditRow} (h : OneChain sha (table.filter AuditRow.chained))
    (hsha : CollisionFree sha table) : (auditChainReport sha table).broken = false := by
  set rows := table.filter AuditRow.chained with hrows
  have hnodup : (rows.map AuditRow.prevHash).Nodup := h.prev_nodup hsha
  have hbad : rows.countP (fun r => r.rowHash ≠ expectedRowHash sha r r.prevHash) = 0 := by
    refine List.countP_eq_zero.mpr fun r hr => ?_
    simpa [expectedRowHash_eq] using (h.sound r hr).hashed
  have hdangling : rows.countP (fun r => r.prevHash ≠ [] ∧ r.prevHash ∉ rows.map AuditRow.rowHash) = 0 := by
    refine List.countP_eq_zero.mpr fun r hr => ?_
    have hmem := h.linked.prev_mem hr
    simp only [decide_eq_true_eq, not_and, not_not]
    exact fun hne => (List.mem_cons.mp hmem).resolve_left hne
  have hforks : ∀ cutoff p, forkAt cutoff rows p = none := by
    intro cutoff p
    have hle := kids_length_le hnodup p
    unfold forkAt
    exact if_neg fun hc => absurd hc.2 (by omega)
  have hforks' : (rows.map AuditRow.prevHash).eraseDups.filterMap
      (forkAt (knownBreaksBefore table) rows) = [] :=
    List.filterMap_eq_nil_iff.mpr fun p _ => hforks _ p
  have hstarts : ((rows.filter fun r => r.prevHash = []).insertionSort oldestFirst).tail = [] := by
    have hle := kids_length_le hnodup []
    rw [← List.length_eq_zero_iff, List.length_tail, List.length_insertionSort]
    omega
  simp only [auditChainReport, ← hrows, hbad, hdangling, hforks', hstarts]
  rfl

theorem verifyFrom_linked {rows : List AuditRow} {p : Text}
    (hl : Linked AuditRow.rowHash AuditRow.prevHash p rows) (hsound : ∀ r ∈ rows, r.Sound sha) :
    verifyFrom sha p rows = true := by
  induction rows generalizing p with
  | nil => rfl
  | cons r rows ih =>
    obtain ⟨hprev, hrest⟩ := hl
    have hhash := (hsound r (by simp)).hashed
    have hne : r.rowHash ≠ [] := hhash ▸ hexdigest_ne_nil _
    rw [verifyFrom, orText_of_ne hne, Option.getD_some, if_neg, ih hrest fun q hq => hsound q (by simp [hq])]
    rw [← hprev, expectedRowHash_eq, ← hhash]
    simp

/-- Without unchained rows the walk of the whole table accepts it. -/
theorem OneChain.verified {table : List AuditRow} (h : OneChain sha (table.filter AuditRow.chained))
    (hall : ∀ r ∈ table, r.chained = true) : verifyAuditChain sha table none none = true := by
  have htable : table.filter AuditRow.chained = table := List.filter_eq_self.mpr hall
  rw [htable] at h
  have hread : (table.filter fun r => ((none : Option Text).all (r.entityType = ·)) &&
      ((none : Option Text).all (r.entityId = some ·))).insertionSort oldestFirst = table := by
    rw [List.filter_eq_self.mpr (by simp), h.sorted]
  rw [verifyAuditChain, hread]
  cases table with
  | nil => rfl
  | cons r rows =>
    change verifyFrom sha r.prevHash (r :: rows) = true
    rw [h.linked.1]
    exact verifyFrom_linked h.linked h.sound

/-- Whatever the interleaving the lock permits, the roll-backs, the rows around the chain and the
    clock, a run whose writes name their events keeps one chain: the committed chained rows, in
    `created_at` order, are linked from the empty hash with strictly increasing stamps, the report is not
    broken, and a table without unchained rows verifies. -/
theorem audit_chain_kept (sha : Sha256) (steps : List AuditStep) (s : AuditState)
    (hrun : runAudit sha steps = some s) (hnamed : ∀ step ∈ steps, step.Named)
    (htenant : ∀ step ∈ steps, step.ShortTenant) (hsha : CollisionFree sha s.committed) :
    let chain := (s.committed.filter AuditRow.chained).insertionSort oldestFirst
    Linked AuditRow.rowHash AuditRow.prevHash [] chain ∧
      chain.Pairwise (fun a b => a.createdAt < b.createdAt) ∧
      (auditChainReport sha s.committed).broken = false ∧
      ((∀ r ∈ s.committed, r.chained = true) → verifyAuditChain sha s.committed none none = true) := by
  have hchain := (runAudit_serialized hrun hnamed htenant).committed
  refine ⟨?_, ?_, hchain.not_broken hsha, hchain.verified⟩
  · rw [hchain.sorted]
    exact hchain.linked
  · rw [hchain.sorted]
    exact hchain.ordered

/-- A stand-in digest: a polynomial in the character codes modulo `2 ^ 64`, in binary digits. -/
def polyDigest (t : Text) : Text :=
  let value := t.foldl (fun h c => (h * 131 + c.toNat) % 2 ^ 64) 7
  (List.range 64).map fun i => if value.testBit i then '1' else '0'

def polySha : Sha256 where
  hexdigest := polyDigest
  length_hexdigest := by simp [polyDigest]
  hex_hexdigest := by
    intro t c hc
    obtain ⟨i, -, rfl⟩ := List.mem_map.mp hc
    split <;> decide

/-- Two transactions: the second one's first attempt is rolled back, the clock steps back, and a ledger
    row is committed in between. -/
def twoWriters : List AuditStep :=
  let paid : AuditCall := { action := some (some "payment_recorded".toList)
                            tenantId := some (some "t1".toList)
                            userId := some (some (.named "u1".toList))
                            entityId := some (some "7".toList) }
  let login : AuditCall := { arg0 := some "login".toList, arg1 := some (some .systemActor) }
  let raw : AuditRow := backfillLegacyFields (auditEntry polySha paid none 9 50)
  [.lock 1, .readTip 1, .unchained 2 raw, .insert 1 paid 3 100, .commit 2, .lock 1, .readTip 1,
    .insert 1 login 1 100, .commit 1, .lock 2, .readTip 2, .insert 2 paid 2 90, .rollback 2,
    .lock 2, .readTip 2, .insert 2 login 4 90, .commit 2]

theorem audit_chain_kept_two_writers :
    ∃ s, runAudit polySha twoWriters = some s ∧
      (s.committed.filter AuditRow.chained).length = 3 ∧ s.committed.length = 4 ∧
      (auditChainReport polySha s.committed).broken = false := by
  obtain ⟨s, hs⟩ : ∃ s, runAudit polySha twoWriters = some s :=
    Option.isSome_iff_exists.mp (by decide +kernel)
  have hfacts : (runAudit polySha twoWriters).all (fun s =>
      (s.committed.filter AuditRow.chained).length = 3 ∧ s.committed.length = 4 ∧
        CollisionFree polySha s.committed) = true := by decide +kernel
  rw [hs, Option.all_some, decide_eq_true_eq] at hfacts
  obtain ⟨hchained, hlength, hsha⟩ := hfacts
  have hkept := audit_chain_kept polySha twoWriters s hs (by decide +kernel) (by decide +kernel) hsha
  exact ⟨s, hs, hchained, hlength, hkept.2.2.1⟩

/-- A legacy call with an empty event type stores an empty action, which the checks read as
    `"unknown"`: the committed chain is one row long and reported broken. -/
theorem audit_chain_broken_by_empty_event :
    (runAudit polySha [.lock 1, .readTip 1,
        .insert 1 { arg0 := some [], arg1 := some (some (.named "u1".toList)) } 1 100, .commit 1]).any
      (fun s => (∀ r ∈ s.committed, r.chained = true) ∧ CollisionFree polySha s.committed ∧
        (auditChainReport polySha s.committed).broken = true ∧
        verifyAuditChain polySha s.committed none none = false) = true := by
  decide +kernel

end Gdx
