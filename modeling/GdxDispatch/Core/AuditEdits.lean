import GdxDispatch.Core.AuditChain

/-! Edits of a chained row.

    The hash covers seven columns, joined by colons that are not escaped. An edit is seen exactly when the joined text
    changes: when the fields, cut at every colon, are another sequence of pieces. Text that moves over a separator from
    one column to the next leaves the sequence as it was, and so do a null that becomes the word it is printed as and
    empty details of another kind. -/

namespace Gdx
open Lib

/-- The seven columns the hash covers. -/
structure AuditFields where
  tenantId : Option Text
  userId : Option Text
  action : Text
  entityType : Text
  entityId : Option Text
  details : Option Text
  requestId : Option Text
  deriving DecidableEq, Repr

def AuditRow.fields (r : AuditRow) : AuditFields :=
  ⟨r.tenantId, r.userId, r.action, r.entityType, r.entityId, r.details, r.requestId⟩

/-- The row with those columns overwritten, its hashes and mirrors as they were. -/
def AuditRow.edited (r : AuditRow) (f : AuditFields) : AuditRow :=
  { r with
    tenantId := f.tenantId
    userId := f.userId
    action := f.action
    entityType := f.entityType
    entityId := f.entityId
    details := f.details
    requestId := f.requestId }

/-- The seven texts that are joined: each column as it is printed, or what stands in for it when it is empty or falsy. -/
def AuditRow.hashedTexts (r : AuditRow) : List Text :=
  [printed r.tenantId, (orText (orText r.userId r.actorId) (some "system".toList)).getD [],
    (orText (orText (some r.action) r.eventType) (some "unknown".toList)).getD [], r.entityType, printed r.entityId,
    payloadJson (r.details.getD (r.payload.getD "{}".toList)), printed r.requestId]

/-- The colon-free pieces of the seven texts, in order. -/
def AuditRow.pieces (r : AuditRow) : List Text := r.hashedTexts.flatMap (List.splitOn ':')

theorem splitOn_sepCons (sep : Char) (head rest : Text) :
    (sepCons sep head rest).splitOn sep = head.splitOn sep ++ rest.splitOn sep :=
  List.splitOn_append_cons_self head rest

theorem splitOn_text (sep : Char) {s t : Text} : s.splitOn sep = t.splitOn sep ↔ s = t := by
  refine ⟨fun h => ?_, fun h => h ▸ rfl⟩
  have hs : [sep].intercalate (s.splitOn sep) = s := List.intercalate_splitOn sep
  rw [← hs, h, List.intercalate_splitOn]

/-- The pieces are those of the joined text. -/
theorem AuditRow.pieces_eq (r : AuditRow) :
    r.pieces = (rowData r.tenantId ((orText (orText r.userId r.actorId) (some "system".toList)).getD [])
      ((orText (orText (some r.action) r.eventType) (some "unknown".toList)).getD []) r.entityType
      r.entityId (payloadJson (r.details.getD (r.payload.getD "{}".toList))) r.requestId).splitOn ':' := by
  simp only [rowData, splitOn_sepCons, pieces, hashedTexts, List.flatMap_cons, List.flatMap_nil, List.append_nil]

/-- After one predecessor the hashed texts agree exactly when the pieces do. -/
theorem text_eq_iff_pieces {r r' : AuditRow} (hprev : r'.prevHash = r.prevHash) :
    r'.text = r.text ↔ r'.pieces = r.pieces := by
  rw [AuditRow.pieces_eq, AuditRow.pieces_eq, splitOn_text, AuditRow.text, AuditRow.text, hprev]
  exact List.append_right_inj _

variable {sha : Sha256} {r : AuditRow} {table : List AuditRow}

/-- A row whose stored hash is not that of its columns is counted. -/
theorem badHash_pos (hr : r ∈ table) (hchained : r.chained = true)
    (hbad : expectedRowHash sha r r.prevHash ≠ r.rowHash) : 0 < (auditChainReport sha table).badHash := by
  refine List.countP_pos_iff.mpr ⟨r, List.mem_filter.mpr ⟨hr, hchained⟩, ?_⟩
  rw [decide_eq_true_eq]
  exact hbad.symm

/-- The walk stops at such a row, if not before it. -/
theorem verifyFrom_bad {rows : List AuditRow} (hr : r ∈ rows) (hchained : r.chained = true)
    (hbad : expectedRowHash sha r r.prevHash ≠ r.rowHash) (p : Text) : verifyFrom sha p rows = false := by
  induction rows generalizing p with
  | nil => cases hr
  | cons q rows ih =>
    rw [verifyFrom]
    rcases List.mem_cons.mp hr with rfl | hr
    · have hne : r.rowHash ≠ [] := by simpa [AuditRow.chained] using hchained
      simp only [orText_of_ne hne, Option.getD_some]
      refine if_pos ?_
      by_cases hprev : r.prevHash = p
      · exact .inr fun heq => hbad (hprev ▸ heq.symm)
      · exact .inl hprev
    · split_ifs
      · rfl
      · exact ih hr _

theorem verifyAuditChain_bad (hr : r ∈ table) (hchained : r.chained = true)
    (hbad : expectedRowHash sha r r.prevHash ≠ r.rowHash) : verifyAuditChain sha table none none = false := by
  have hmem : r ∈ (table.filter fun r => ((none : Option Text).all (r.entityType = ·)) &&
      ((none : Option Text).all (r.entityId = some ·))).insertionSort oldestFirst := by
    rw [List.mem_insertionSort, List.filter_eq_self.mpr (by simp)]
    exact hr
  rw [verifyAuditChain]
  generalize (table.filter _).insertionSort oldestFirst = rows at hmem
  cases rows with
  | nil => cases hmem
  | cons q rows => exact verifyFrom_bad hmem hchained hbad _

/-- Without a collision between the two texts, an edit is seen exactly when the pieces change: then the rebuilt hash is
    not the stored one, the report counts a bad hash and the walk fails. The rest of the table is as it may be. -/
theorem edit_detected_iff (sha : Sha256) (before after : List AuditRow) (r : AuditRow) (f : AuditFields)
    (hchained : r.chained = true) (hvalid : r.rowHash = expectedRowHash sha r r.prevHash)
    (hsha : sha.hexdigest (r.edited f).text = sha.hexdigest r.text → (r.edited f).text = r.text) :
    (expectedRowHash sha (r.edited f) (r.edited f).prevHash ≠ (r.edited f).rowHash ∧
      0 < (auditChainReport sha (before ++ r.edited f :: after)).badHash ∧
      verifyAuditChain sha (before ++ r.edited f :: after) none none = false) ↔
      (r.edited f).pieces ≠ r.pieces := by
  have hpieces : (r.edited f).text = r.text ↔ (r.edited f).pieces = r.pieces := text_eq_iff_pieces rfl
  have hsame : expectedRowHash sha (r.edited f) (r.edited f).prevHash = (r.edited f).rowHash ↔
      (r.edited f).pieces = r.pieces := by
    rw [show (r.edited f).rowHash = r.rowHash from rfl, hvalid, expectedRowHash_eq, expectedRowHash_eq,
      ← hpieces]
    exact ⟨hsha, fun h => h ▸ rfl⟩
  rw [ne_eq (r.edited f).pieces, ← hsame]
  have hchained' : (r.edited f).chained = true := hchained
  refine ⟨fun h => h.1, fun hbad => ⟨hbad, ?_, ?_⟩⟩
  · exact badHash_pos (by simp) hchained' hbad
  · exact verifyAuditChain_bad (by simp) hchained' hbad

/-- A first row of a tenant whose id holds a colon. -/
def colonTenant : AuditRow :=
  auditEntry polySha { action := some (some "login".toList), tenantId := some (some "a:b".toList),
                       userId := some (some (.named "c".toList)) } none 1 100

/-- The colon taken as the separator: the text behind it moves from the tenant to the user. -/
def shifted : AuditFields := { colonTenant.fields with tenantId := some "a".toList, userId := some "b:c".toList }

theorem edit_detected_iff_renamed :
    let renamed : AuditFields := { colonTenant.fields with userId := some "d".toList }
    (expectedRowHash polySha (colonTenant.edited renamed) (colonTenant.edited renamed).prevHash ≠
        (colonTenant.edited renamed).rowHash ∧
      0 < (auditChainReport polySha ([] ++ colonTenant.edited renamed :: [])).badHash ∧
      verifyAuditChain polySha ([] ++ colonTenant.edited renamed :: []) none none = false) ↔
      (colonTenant.edited renamed).pieces ≠ colonTenant.pieces :=
  edit_detected_iff polySha [] [] colonTenant _ (by decide +kernel) (by decide +kernel) (by decide +kernel)

/-- Two audited fields of a valid chain are changed, and both checks accept the result. -/
theorem shifted_edit_unseen :
    (auditChainReport polySha [colonTenant]).broken = false ∧
      verifyAuditChain polySha [colonTenant] none none = true ∧
      shifted.tenantId ≠ colonTenant.tenantId ∧ shifted.userId ≠ colonTenant.userId ∧
      expectedRowHash polySha (colonTenant.edited shifted) (colonTenant.edited shifted).prevHash =
        (colonTenant.edited shifted).rowHash ∧
      (auditChainReport polySha [colonTenant.edited shifted]).badHash = 0 ∧
      verifyAuditChain polySha [colonTenant.edited shifted] none none = true := by
  decide +kernel

end Gdx
