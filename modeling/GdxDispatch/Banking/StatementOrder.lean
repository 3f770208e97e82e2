import GdxDispatch.Banking.StatementRuns

/-! Import order and undo on the statement store, and what a run of calls keeps.

    Whether a set of statements passes depends on the statements alone: each must tie out and each two
    must agree over their common days. So the order of import does not matter, and voiding the last import
    restores the lines and vouchers it found. Two statements with no common day are never compared; when
    they hold a line with one hash, it is stored once for both, and the balances of a contiguous run no
    longer add up. -/

namespace Gdx

open Lib

section Order

variable {rt : StatementRuntime} {ps : List ParsedStatement} {s : StatementStore}

def ImportResult.isImported : ImportResult → Bool
  | .imported .. => true
  | _ => false

/-- The file is new to the store, parses, ties out and agrees with every standing import. -/
structure Fits (rt : StatementRuntime) (s : StatementStore) (f : StatementFile) (p : ParsedStatement) :
    Prop where
  small : f.tooLarge = false
  parsed : f.parsed = .ok p
  newFile : ∀ i ∈ s.imports, i.fileSha256 = f.sha256 → i.voided = true
  tied : (computeTieOut p).1 = .passed
  agrees : ∀ i ∈ s.standing, Agree rt p i.statement

/-- The row a passed import leaves. -/
structure Admitted (s s' : StatementStore) (f : StatementFile) (p : ParsedStatement)
    (row : StatementImport) : Prop where
  imports : s'.imports = s.imports ++ [row]
  id : row.id = s.nextImport
  file : row.fileSha256 = f.sha256
  statement : row.statement = p
  live : row.voided = false
  passed : row.tieOutStatus = .passed

theorem Admitted.stands {s' : StatementStore} {f : StatementFile} {p : ParsedStatement}
    {row : StatementImport} (h : Admitted s s' f p row) : row.stands = true := by
  simp [StatementImport.stands, h.live, h.passed]

theorem Admitted.standing {s' : StatementStore} {f : StatementFile} {p : ParsedStatement}
    {row : StatementImport} (h : Admitted s s' f p row) : s'.standing = s.standing ++ [row] := by
  rw [StatementStore.standing, h.imports, List.filter_append, List.filter_singleton, h.stands]
  rfl

/-- An import passes exactly when the file fits. -/
theorem StoreOk.imported_iff (h : StoreOk rt ps s) {last4 : Text} (hc : Corpus rt last4 ps)
    {f : StatementFile} (hf : ∀ p, f.parsed = .ok p → p ∈ ps) :
    (Gdx.importStatement rt s f).2.isImported = true ↔ ∃ p, Fits rt s f p := by
  have hsha : (s.imports.find? fun i => i.fileSha256 = f.sha256 && !i.voided) = none ↔
      ∀ i ∈ s.imports, i.fileSha256 = f.sha256 → i.voided = true := by
    simp [List.find?_eq_none]
  constructor
  · intro himp
    unfold Gdx.importStatement at himp
    split at himp
    · simp [ImportResult.isImported] at himp
    · rename_i hsmall
      split at himp
      · simp [ImportResult.isImported] at himp
      · rename_i hnone
        split at himp
        · simp [ImportResult.isImported] at himp
        · rename_i p hparsed
          have hp := hf p hparsed
          have hpassed : (verdict rt s p).1 = .passed := by
            unfold admitStatement at himp
            cases hv : verdict rt s p with
            | mk status checks =>
              cases status with
              | passed => rfl
              | failed => simp [hv, ImportResult.isImported] at himp
          obtain ⟨htied, hagree⟩ := (h.verdict_passed hc hp).mp hpassed
          exact ⟨p, by simpa using hsmall, hparsed, hsha.mp hnone, htied, hagree⟩
  · rintro ⟨p, hfits⟩
    have hpassed := (h.verdict_passed hc (hf p hfits.parsed)).mpr ⟨hfits.tied, hfits.agrees⟩
    rw [Gdx.importStatement, if_neg (by simp [hfits.small]), hsha.mpr hfits.newFile]
    simp only [hfits.parsed]
    unfold admitStatement
    cases hv : verdict rt s p with
    | mk status checks =>
      rw [hv] at hpassed
      simp only at hpassed
      subst hpassed
      rfl

theorem admit_of_imported {f : StatementFile} (h : (importStatement rt s f).2.isImported = true) :
    ∃ p row, f.parsed = .ok p ∧ Admitted s (importStatement rt s f).1 f p row ∧
      (importStatement rt s f).1.lines = ((hashedLines rt p).foldl (insertLine s.nextImport) s).lines ∧
      (importStatement rt s f).1.sources = ((hashedLines rt p).foldl (insertLine s.nextImport) s).sources ∧
      (importStatement rt s f).1.matchLines = s.matchLines ∧
      ∃ added deduped, (importStatement rt s f).2 = .imported s.nextImport added deduped := by
  unfold importStatement at h ⊢
  split at h
  · simp [ImportResult.isImported] at h
  · rename_i hsmall
    rw [if_neg hsmall]
    split at h
    · simp [ImportResult.isImported] at h
    · split at h
      · simp [ImportResult.isImported] at h
      · rename_i p hparsed
        simp only [hparsed]
        unfold admitStatement at h ⊢
        cases hv : verdict rt s p with
        | mk status checks =>
          cases status with
          | failed => simp [hv, ImportResult.isImported] at h
          | passed =>
            obtain ⟨_, _, _, _, _, _, _, _, hmatch⟩ :=
              insertLines_shape s.nextImport (hashedLines rt p) s
            exact ⟨p, _, rfl, ⟨rfl, rfl, rfl, rfl, rfl, rfl⟩, rfl, rfl, hmatch, _, _, rfl⟩

/-- What two files must have for both to be imported. -/
def Compatible (rt : StatementRuntime) (f g : StatementFile) : Prop :=
  f.sha256 ≠ g.sha256 ∧ ∀ p q, f.parsed = .ok p → g.parsed = .ok q → Agree rt p q

theorem Compatible.symm {f g : StatementFile} (h : Compatible rt f g) : Compatible rt g f :=
  ⟨h.1.symm, fun p q hp hq => (h.2 q p hq hp).symm⟩

/-- After one import, what fits is what fitted before and is compatible with it. -/
theorem fits_after {s' : StatementStore} {f g : StatementFile} {p q : ParsedStatement}
    {row : StatementImport} (hrow : Admitted s s' f p row) (hparsed : f.parsed = .ok p) :
    Fits rt s' g q ↔ Fits rt s g q ∧ Compatible rt f g := by
  have himports : ∀ i, i ∈ s'.imports ↔ i ∈ s.imports ∨ i = row := by
    intro i
    rw [hrow.imports, List.mem_append, List.mem_singleton]
  have hstanding : ∀ i, i ∈ s'.standing ↔ i ∈ s.standing ∨ i = row := by
    intro i
    rw [hrow.standing, List.mem_append, List.mem_singleton]
  constructor
  · intro hg
    refine ⟨⟨hg.small, hg.parsed, ?_, hg.tied, ?_⟩, ?_, ?_⟩
    · exact fun i hi => hg.newFile i ((himports i).mpr (Or.inl hi))
    · exact fun i hi => hg.agrees i ((hstanding i).mpr (Or.inl hi))
    · intro heq
      have := hg.newFile row ((himports row).mpr (Or.inr rfl)) (hrow.file.trans heq)
      rw [hrow.live] at this
      simp at this
    · intro p' q' hp' hq'
      have hagree := hg.agrees row ((hstanding row).mpr (Or.inr rfl))
      rw [hrow.statement] at hagree
      rw [hparsed] at hp'
      rw [hg.parsed] at hq'
      obtain rfl := Except.ok.inj hp'
      obtain rfl := Except.ok.inj hq'
      exact hagree.symm
  · rintro ⟨hg, hsha, hagree⟩
    refine ⟨hg.small, hg.parsed, ?_, hg.tied, ?_⟩
    · intro i hi
      rcases (himports i).mp hi with hi | rfl
      · exact hg.newFile i hi
      · exact fun heq => absurd (hrow.file.symm.trans heq) hsha
    · intro i hi
      rcases (hstanding i).mp hi with hi | rfl
      · exact hg.agrees i hi
      · rw [hrow.statement]
        exact (hagree p q hparsed hg.parsed).symm

/-- A list of files all passes exactly when each fits and each two are compatible. -/
theorem importAll_imported_iff {last4 : Text} (hc : Corpus rt last4 ps) :
    ∀ (files : List StatementFile) {s : StatementStore}, StoreOk rt ps s →
    (∀ f ∈ files, ∀ p, f.parsed = .ok p → p ∈ ps) →
    (((importAll rt s files).2.all ImportResult.isImported = true) ↔
      (∀ f ∈ files, ∃ p, Fits rt s f p) ∧ files.Pairwise (Compatible rt))
  | [], s, _, _ => by simp [importAll]
  | f :: files, s, h, hfiles => by
    have hf := hfiles f (by simp)
    have hrest := importAll_imported_iff hc files (h.importStatement hc hf)
      fun g hg => hfiles g (by simp [hg])
    rw [importAll, List.all_cons, Bool.and_eq_true, hrest, List.pairwise_cons, List.forall_mem_cons]
    constructor
    · rintro ⟨himp, hfits, hpair⟩
      obtain ⟨p, row, hparsed, hrow, -⟩ := admit_of_imported himp
      have hafter : ∀ g ∈ files, ∃ q, Fits rt s g q ∧ Compatible rt f g := fun g hg =>
        (hfits g hg).imp fun q hq => (fits_after hrow hparsed).mp hq
      refine ⟨⟨(h.imported_iff hc hf).mp himp, fun g hg => ?_⟩, fun g hg => ?_, hpair⟩
      · exact (hafter g hg).imp fun q hq => hq.1
      · obtain ⟨q, hq⟩ := hafter g hg
        exact hq.2
    · rintro ⟨⟨hfit, hfits⟩, hcompat, hpair⟩
      have himp := (h.imported_iff hc hf).mpr hfit
      obtain ⟨p, row, hparsed, hrow, -⟩ := admit_of_imported himp
      refine ⟨himp, fun g hg => ?_, hpair⟩
      exact (hfits g hg).imp fun q hq => (fits_after hrow hparsed).mpr ⟨hq, hcompat g hg⟩

theorem importAll_ok {last4 : Text} (hc : Corpus rt last4 ps) : ∀ (files : List StatementFile)
    {s : StatementStore}, StoreOk rt ps s → (∀ f ∈ files, ∀ p, f.parsed = .ok p → p ∈ ps) →
    StoreOk rt ps (importAll rt s files).1
  | [], _, h, _ => h
  | f :: files, _, h, hfiles =>
    importAll_ok hc files (h.importStatement hc (hfiles f (by simp))) fun g hg => hfiles g (by simp [hg])

/-- The statements that stand after a list of files that all passed. -/
theorem importAll_standing : ∀ (files : List StatementFile) {s : StatementStore},
    (importAll rt s files).2.all ImportResult.isImported = true → ∀ p : ParsedStatement,
    (∃ i ∈ (importAll rt s files).1.standing, i.statement = p) ↔
      (∃ i ∈ s.standing, i.statement = p) ∨ ∃ f ∈ files, f.parsed = .ok p
  | [], s, _, p => by simp [importAll]
  | f :: files, s, h, p => by
    rw [importAll, List.all_cons, Bool.and_eq_true] at h
    obtain ⟨himp, hrest⟩ := h
    obtain ⟨q, row, hparsed, hrow, -⟩ := admit_of_imported himp
    have hstep : (∃ i ∈ (importStatement rt s f).1.standing, i.statement = p) ↔
        (∃ i ∈ s.standing, i.statement = p) ∨ q = p := by
      rw [hrow.standing]
      simp [hrow.statement, or_and_right, exists_or]
    rw [importAll, importAll_standing files hrest p, hstep, or_assoc]
    simp [hparsed]

/-- The order of import decides nothing: the same files pass, and leave the same hashes. -/
theorem StoreOk.any_order (h : StoreOk rt ps s) {last4 : Text} (hc : Corpus rt last4 ps)
    {files files' : List StatementFile} (hperm : files.Perm files')
    (hfiles : ∀ f ∈ files, ∀ p, f.parsed = .ok p → p ∈ ps)
    (hall : (importAll rt s files).2.all ImportResult.isImported = true) :
    (importAll rt s files').2.all ImportResult.isImported = true ∧
      ∀ hash, hash ∈ (importAll rt s files').1.lines.map StatementLine.lineHash ↔
        hash ∈ (importAll rt s files).1.lines.map StatementLine.lineHash := by
  have hfiles' : ∀ f ∈ files', ∀ p, f.parsed = .ok p → p ∈ ps := fun f hf =>
    hfiles f (hperm.mem_iff.mpr hf)
  have hall' : (importAll rt s files').2.all ImportResult.isImported = true := by
    obtain ⟨hfits, hpair⟩ := (importAll_imported_iff hc files h hfiles).mp hall
    refine (importAll_imported_iff hc files' h hfiles').mpr ⟨?_, ?_⟩
    · exact fun f hf => hfits f (hperm.mem_iff.mpr hf)
    · exact hpair.perm hperm fun hab => hab.symm
  refine ⟨hall', fun hash => ?_⟩
  have hlines : ∀ fs, (∀ f ∈ fs, ∀ p, f.parsed = .ok p → p ∈ ps) →
      (importAll rt s fs).2.all ImportResult.isImported = true →
      (hash ∈ (importAll rt s fs).1.lines.map StatementLine.lineHash ↔
        ∃ p, ((∃ i ∈ s.standing, i.statement = p) ∨ ∃ f ∈ fs, f.parsed = .ok p) ∧
          ∃ e ∈ evidenceOf rt p, e.lineHash = hash) := by
    intro fs hfs hok
    have hev := ((importAll_ok hc fs h hfs).evidence hc).union
    constructor
    · intro hmem
      obtain ⟨l, hl, rfl⟩ := List.mem_map.mp hmem
      obtain ⟨i, hi, he⟩ := (hev l.evidence).mp (List.mem_map_of_mem hl)
      exact ⟨i.statement, (importAll_standing fs hok _).mp ⟨i, hi, rfl⟩, l.evidence, he, rfl⟩
    · rintro ⟨p, hp, e, he, rfl⟩
      obtain ⟨i, hi, rfl⟩ := (importAll_standing fs hok p).mpr hp
      obtain ⟨l, hl, rfl⟩ := List.mem_map.mp ((hev e).mpr ⟨i, hi, he⟩)
      exact List.mem_map_of_mem hl
  rw [hlines files' hfiles' hall', hlines files hfiles hall]
  simp only [hperm.mem_iff]

/-! ### Undo -/

/-- A void goes through when the import is live and no match references a doomed line. -/
theorem voidImport_eq {k : ℕ} {imp : StatementImport}
    (hfind : s.imports.find? (fun i => i.id = k) = some imp) (hlive : imp.voided = false)
    (hmatch : s.referencing k = []) :
    voidImport s k = (s.withdrawn k,
      .voided (s.doomed k).length ((s.attestedBy k).length - (s.doomed k).length)) := by
  have hnone : (s.matchLines.filter fun m => m.lineId ∈ s.doomed k) = [] := hmatch
  unfold voidImport StatementStore.withdrawn StatementStore.referencing
  rw [hfind]
  simp only [hlive, hnone]
  rfl

theorem StoreOk.source_lt (h : StoreOk rt ps s) {x : LineSource} (hx : x ∈ s.sources) :
    x.lineId < s.nextLine ∧ x.importId < s.nextImport := by
  obtain ⟨l, hl, hid, he⟩ := h.attests.valid x hx
  obtain ⟨i, hi, hii, -⟩ := mem_claims he
  refine ⟨?_, ?_⟩
  · rw [← hid]
    exact h.attests.lineLt l hl
  · rw [← hii]
    exact h.importLt i (mem_standing.mp hi).1

/-- Voiding the import just made restores the lines and the vouchers. -/
theorem StoreOk.undo (h : StoreOk rt ps s) {last4 : Text} (hc : Corpus rt last4 ps) {f : StatementFile}
    (hf : ∀ p, f.parsed = .ok p → p ∈ ps) {id added deduped : ℕ}
    (himp : (Gdx.importStatement rt s f).2 = .imported id added deduped) :
    (voidImport (Gdx.importStatement rt s f).1 id).1.lines = s.lines ∧
      (voidImport (Gdx.importStatement rt s f).1 id).1.sources = s.sources ∧
      ∃ removed kept, (voidImport (Gdx.importStatement rt s f).1 id).2 = .voided removed kept := by
  have hok : StoreOk rt ps (Gdx.importStatement rt s f).1 := h.importStatement hc hf
  obtain ⟨p, row, hparsed, hrow, hlines, hsources, hmatch, added', deduped', hres⟩ :=
    admit_of_imported (s := s) (f := f) (by rw [himp]; rfl)
  obtain rfl : id = s.nextImport := by
    rw [himp] at hres
    exact (ImportResult.imported.inj hres).1
  obtain ⟨new, srcs, hnew, hsrcs, hnewId, hsrcId, -⟩ :=
    insertLines_shape s.nextImport (hashedLines rt p) s
  generalize Gdx.importStatement rt s f = r at *
  rw [hnew] at hlines
  rw [hsrcs] at hsources
  -- An old line keeps the voucher it had, and a new line has no voucher but the import's.
  have hold : ∀ l ∈ s.lines, l.id ∉ r.1.doomed s.nextImport := by
    intro l hl hdoomed
    obtain ⟨j, hj⟩ := h.attests.attested l hl
    have hlt := (h.source_lt hj).2
    simp only [StatementStore.doomed, List.mem_filter, Bool.not_eq_true', List.any_eq_false,
      Bool.and_eq_true, decide_eq_true_eq, not_and, not_not] at hdoomed
    have heq := hdoomed.2 ⟨l.id, j⟩ (hsources ▸ List.mem_append_left _ hj) rfl
    exact absurd heq hlt.ne
  have hfresh : ∀ l ∈ new, l.id ∈ r.1.doomed s.nextImport := by
    intro l hl
    have hl' : l ∈ r.1.lines := hlines ▸ List.mem_append_right _ hl
    rw [hok.attests.mem_doomed hl']
    intro j hj
    have hsrc := (hok.attests.source_iff hl' j).mpr hj
    rw [hsources] at hsrc
    rcases List.mem_append.mp hsrc with hsrc | hsrc
    · have hlt : l.id < s.nextLine := (h.source_lt hsrc).1
      have hge := hnewId l hl
      omega
    · exact hsrcId _ hsrc
  have hreferencing : r.1.referencing s.nextImport = [] := by
    refine List.filter_eq_nil_iff.mpr fun m hm => ?_
    rw [hmatch] at hm
    obtain ⟨l, hl, hid⟩ := h.matched m hm
    simpa [← hid] using hold l hl
  have hfind : r.1.imports.find? (fun i => i.id = s.nextImport) = some row := by
    rw [hrow.imports, List.find?_append, List.find?_eq_none.mpr]
    · simp [hrow.id]
    · intro i hi
      simpa using (h.importLt i hi).ne
  have hvoid := voidImport_eq hfind hrow.live hreferencing
  rw [hvoid]
  refine ⟨?_, ?_, _, _, rfl⟩
  · change r.1.lines.filter (fun l => l.id ∉ r.1.doomed s.nextImport) = s.lines
    rw [hlines, List.filter_append, List.filter_eq_self.mpr, List.filter_eq_nil_iff.mpr, List.append_nil]
    · intro l hl
      simpa using hfresh l hl
    · intro l hl
      simpa using hold l hl
  · change r.1.sources.filter (fun x => x.importId ≠ s.nextImport) = s.sources
    rw [hsources, List.filter_append, List.filter_eq_self.mpr, List.filter_eq_nil_iff.mpr,
      List.append_nil]
    · intro x hx
      simpa using hsrcId x hx
    · intro x hx
      simpa using (h.source_lt hx).2.ne

/-! ### Statements with no common day -/

/-- The statement brings no line that a standing import with no common day holds. -/
def ApartFrom (rt : StatementRuntime) (s : StatementStore) (p : ParsedStatement) : Prop :=
  ∀ i ∈ s.standing, noCommonDay p i.statement = true →
    ∀ e ∈ evidenceOf rt p, e ∉ evidenceOf rt i.statement

instance (p : ParsedStatement) : Decidable (ApartFrom rt s p) :=
  inferInstanceAs (Decidable (∀ i ∈ s.standing, _))

/-- Every statement of a run is apart from the imports it finds. -/
def ApartRun (rt : StatementRuntime) : StatementStore → List StatementCall → Prop
  | _, [] => True
  | s, call :: calls =>
    (∀ p ∈ call.statement?, ApartFrom rt s p) ∧ ApartRun rt (stepStatement rt s call) calls

theorem noCommonDay_comm (p q : ParsedStatement) : noCommonDay p q = noCommonDay q p := by
  rw [Bool.eq_iff_iff]
  simp only [noCommonDay, decide_eq_true_eq]
  unfold earlierDate laterDate
  constructor <;> intro h <;> split at h <;> split at h <;> split <;> split <;> omega

/-- What an import adds to the standing ones. -/
theorem import_standing {f : StatementFile} {i : StatementImport}
    (hi : i ∈ (importStatement rt s f).1.standing) :
    i ∈ s.standing ∨ (f.parsed = .ok i.statement ∧ i.id = s.nextImport) := by
  unfold importStatement at hi
  split at hi
  · exact Or.inl hi
  · split at hi
    · exact Or.inl hi
    · split at hi
      · exact Or.inl hi
      · rename_i p hparsed
        unfold admitStatement at hi
        obtain ⟨hmem, hstands⟩ := mem_standing.mp hi
        cases hv : verdict rt s p with
        | mk status checks =>
          rw [hv] at hmem
          cases status <;>
          · rcases List.mem_append.mp hmem with hmem | hmem
            · exact Or.inl (mem_standing.mpr ⟨hmem, hstands⟩)
            · rw [List.mem_singleton.mp hmem]
              exact Or.inr ⟨hparsed, rfl⟩

theorem Separate.step (hsep : Separate rt s) {call : StatementCall}
    (hcall : ∀ p ∈ call.statement?, ApartFrom rt s p) : Separate rt (stepStatement rt s call) := by
  cases call with
  | «import» f =>
    intro i hi j hj hne hday e hei hej
    rcases import_standing hi with hi | ⟨hpi, hidi⟩ <;> rcases import_standing hj with hj | ⟨hpj, hidj⟩
    · exact hsep i hi j hj hne hday e hei hej
    · refine hcall j.statement ?_ i hi (noCommonDay_comm _ _ ▸ hday) e hej hei
      simp [StatementCall.statement?, hpj, Except.toOption]
    · refine hcall i.statement ?_ j hj hday e hei hej
      simp [StatementCall.statement?, hpi, Except.toOption]
    · exact hne (hidi.trans hidj.symm)
  | void k =>
    rcases voidImport_cases s k with heq | heq
    · rw [stepStatement, heq]
      exact hsep
    · rw [stepStatement, heq]
      intro i hi j hj
      exact hsep i (mem_withdrawn_standing.mp hi).1 j (mem_withdrawn_standing.mp hj).1
  | rematch rows =>
    simp only [stepStatement]
    split <;> exact hsep

theorem runStatements_separate {calls : List StatementCall} (h : ApartRun rt .empty calls) :
    Separate rt (runStatements rt calls) := by
  have hfold : ∀ (calls : List StatementCall) (s : StatementStore), Separate rt s →
      ApartRun rt s calls → Separate rt (calls.foldl (stepStatement rt) s) := by
    intro calls
    induction calls with
    | nil => exact fun s h _ => h
    | cons call calls ih => exact fun s hs hrun => ih _ (hs.step hrun.1) hrun.2
  exact hfold calls _ (fun i hi => by simp [StatementStore.standing, StatementStore.empty] at hi) h

/-- In every state reached by calls on statements of one account: the lines are the union of the
    standing imports' hashed lines, attested by exactly the imports that have them; every standing import
    ties; two of them agree over their common days; a contiguous run of them with matching balances adds up
    over its distinct lines, when no statement brought a line that an import with no common day held; a
    set of statements that passes in one order passes in every order with the same hashes; and voiding the
    last import undoes it. -/
theorem statement_evidence_kept (rt : StatementRuntime) (last4 : Text) (ps : List ParsedStatement)
    (hc : Corpus rt last4 ps) (calls : List StatementCall)
    (hcalls : ∀ call ∈ calls, ∀ p ∈ call.statement?, p ∈ ps) (hapart : ApartRun rt .empty calls) :
    let s := runStatements rt calls
    EvidenceHolds rt s ∧
      (∀ first rest, (∀ i ∈ first :: rest, i ∈ s.standing) → Contiguous (first :: rest) →
        first.statement.beginningCents +
          centsOf (s.lines.filter fun l => (first :: rest).any fun i => s.vouches i.id l.id) =
          ((first :: rest).getLast (by simp)).statement.endingCents) ∧
      (∀ files files' : List StatementFile, files.Perm files' →
        (∀ f ∈ files, ∀ p, f.parsed = .ok p → p ∈ ps) →
        (importAll rt s files).2.all ImportResult.isImported = true →
        (importAll rt s files').2.all ImportResult.isImported = true ∧
          ∀ hash, hash ∈ (importAll rt s files').1.lines.map StatementLine.lineHash ↔
            hash ∈ (importAll rt s files).1.lines.map StatementLine.lineHash) ∧
      (∀ f : StatementFile, (∀ p, f.parsed = .ok p → p ∈ ps) → ∀ id added deduped,
        (importStatement rt s f).2 = .imported id added deduped →
        (voidImport (importStatement rt s f).1 id).1.lines = s.lines ∧
          (voidImport (importStatement rt s f).1 id).1.sources = s.sources ∧
          ∃ removed kept, (voidImport (importStatement rt s f).1 id).2 = .voided removed kept) := by
  have hok := runStatements_ok hc hcalls
  refine ⟨hok.evidence hc, ?_, ?_, ?_⟩
  · intro first rest hrun hcont
    exact hok.run_balanced hc (runStatements_separate hapart) hrun hcont
  · intro files files' hperm hfiles hall
    exact hok.any_order hc hperm hfiles hall
  · intro f hf id added deduped himp
    exact hok.undo hc hf himp

end Order

instance (run : List StatementImport) : Decidable (Contiguous run) :=
  inferInstanceAs (Decidable (_ ∧ _))

/-- A runtime for fixed inputs: ASCII tables and the polynomial digest. -/
def asciiRuntime : StatementRuntime :=
  { sha := polySha
    unicode := { isSpace := Char.isWhitespace, lower := List.map Char.toLower } }

/-- A statement of one month with one deposit. -/
def oneDeposit (month lastDay : ℕ) (beginning : ℤ) (on : CivilDate) (cents : ℤ) : ParsedStatement :=
  { last4 := "1234".toList, periodStart := ⟨2026, month, 1⟩, periodEnd := ⟨2026, month, lastDay⟩
    beginningCents := beginning, endingCents := beginning + cents, depositsCount := some 1
    depositsTotalCents := cents, debitsCount := some 0, debitsTotalCents := 0, serviceChargeCents := 0
    interestCents := 0
    lines := [{ txnDate := on, amountCents := cents, anchor := "BUSINESS DEPOSIT".toList
                description := "BUSINESS DEPOSIT".toList, «section» := .deposit, checkNumber := none }]
    dailyBalances := [(on, beginning + cents)], serviceChargeDetailCents := 0
    hasServiceChargeDetail := false }

def fileOf (sha256 : String) (p : ParsedStatement) : StatementFile :=
  { sha256 := sha256.toList, tooLarge := false, parsed := .ok p }

/-- A January statement, and a February one whose deposit is dated the last day of January. -/
def lateDeposit : List StatementCall :=
  [.import (fileOf "a" (oneDeposit 1 31 0 ⟨2026, 1, 31⟩ 5000)),
   .import (fileOf "b" (oneDeposit 2 28 5000 ⟨2026, 1, 31⟩ 5000))]

/-- Both statements stand and follow each other with matching balances, but the two deposits are one
    stored line: the balances rise by 10000 over distinct lines of 5000. -/
theorem contiguous_run_unbalanced :
    let s := runStatements asciiRuntime lateDeposit
    s.standing.length = 2 ∧ Contiguous s.standing ∧
      s.standing.map (fun i => (i.statement.beginningCents, i.statement.endingCents)) =
        [(0, 5000), (5000, 10000)] ∧
      centsOf (s.lines.filter fun l => s.standing.any fun i => s.vouches i.id l.id) = 5000 := by
  decide +kernel

/-- Two months and a void of the second one, with deposits dated inside their months. -/
def twoMonths : List StatementCall :=
  [.import (fileOf "a" (oneDeposit 1 31 0 ⟨2026, 1, 30⟩ 5000)),
   .import (fileOf "b" (oneDeposit 2 28 5000 ⟨2026, 2, 3⟩ 7000)), .void 1,
   .import (fileOf "b" (oneDeposit 2 28 5000 ⟨2026, 2, 3⟩ 7000))]

def twoMonthsCorpus : List ParsedStatement :=
  [oneDeposit 1 31 0 ⟨2026, 1, 30⟩ 5000, oneDeposit 2 28 5000 ⟨2026, 2, 3⟩ 7000]

theorem statement_evidence_kept_two_months :
    (runStatements asciiRuntime twoMonths).standing.length = 2 ∧
      EvidenceHolds asciiRuntime (runStatements asciiRuntime twoMonths) := by
  refine ⟨by decide +kernel, ?_⟩
  refine (statement_evidence_kept asciiRuntime "1234".toList twoMonthsCorpus ⟨?_, ?_⟩ twoMonths ?_ ?_).1
  · decide +kernel
  · decide +kernel
  · simp [twoMonths, twoMonthsCorpus, StatementCall.statement?, fileOf, Except.toOption]
  · simp only [twoMonths, ApartRun, StatementCall.statement?, fileOf, Except.toOption]
    refine ⟨?_, ?_, by simp, ?_, trivial⟩ <;> decide +kernel

end Gdx
