import GdxDispatch.Core.AuditEdits

/-! Rows taken out of the chain and rows put into it.

    A row taken out leaves the next one without its predecessor, unless everything after it goes too. A row put in
    anywhere but behind the last one shares a predecessor with a row of the chain, or names none. A shared predecessor
    is counted as history, and not reported as a break, when both rows are dated before the serialized-writer marker. -/

namespace Gdx
open Lib

variable {sha : Sha256} {table : List AuditRow}

/-! ### What makes the report broken -/

/-- A fork that is not history. -/
def NewFork (table : List AuditRow) : Prop :=
  ∃ p f, p ∈ (table.filter AuditRow.chained).map AuditRow.prevHash ∧
    forkAt (knownBreaksBefore table) (table.filter AuditRow.chained) p = some f ∧ f.known = false

/-- A restart that is not history. -/
def NewRestart (table : List AuditRow) : Prop :=
  ∃ r ∈ (((table.filter AuditRow.chained).filter fun r => r.prevHash = []).insertionSort oldestFirst).tail,
    isHistory (knownBreaksBefore table) r.createdAt = false

theorem broken_iff : (auditChainReport sha table).broken = true ↔
    (∃ r ∈ table.filter AuditRow.chained, r.rowHash ≠ expectedRowHash sha r r.prevHash) ∨
    (∃ r ∈ table.filter AuditRow.chained,
      r.prevHash ≠ [] ∧ r.prevHash ∉ (table.filter AuditRow.chained).map AuditRow.rowHash) ∨
    NewFork table ∨ NewRestart table := by
  have hcount : ∀ {α : Type} (l : List α) (p : α → Bool), (l.countP p ≠ 0) ↔ ∃ a ∈ l, p a = true := by
    intro α l p
    rw [← Nat.pos_iff_ne_zero, List.countP_pos_iff]
  simp only [auditChainReport, Bool.or_eq_true, decide_eq_true_eq, hcount, Bool.not_eq_true', or_assoc]
  simp only [NewFork, NewRestart, List.mem_filterMap, List.mem_eraseDups]
  refine or_congr Iff.rfl (or_congr Iff.rfl (or_congr ⟨?_, ?_⟩ Iff.rfl))
  · rintro ⟨f, ⟨p, hp, hf⟩, hknown⟩
    exact ⟨p, f, hp, hf, hknown⟩
  · rintro ⟨p, f, hp, hf, hknown⟩
    exact ⟨f, ⟨p, hp, hf⟩, hknown⟩

/-! ### Rows taken out -/

/-- A set of entries that is not a final piece leaves one out that the next entry needs. -/
theorem exists_gap {α : Type} {p : α → Bool} {l : List α} (h : ¬ l.filter p <:+ l) :
    ∃ front a b back, l = front ++ a :: b :: back ∧ p a = true ∧ p b = false := by
  induction l with
  | nil => exact absurd (List.suffix_refl _) h
  | cons a l ih =>
    by_cases htail : l.filter p <:+ l
    · -- the rest is a final piece, so the gap is in front of it
      cases hpa : p a with
      | false =>
        rw [List.filter_cons_of_neg (by simp [hpa])] at h
        exact absurd (htail.trans (List.suffix_cons a l)) h
      | true =>
        rw [List.filter_cons_of_pos hpa] at h
        cases l with
        | nil => exact absurd (List.suffix_refl _) h
        | cons b back =>
          cases hpb : p b with
          | false => exact ⟨[], a, b, back, rfl, hpa, hpb⟩
          | true =>
            rw [List.filter_cons_of_pos hpb] at h htail
            rcases List.suffix_cons_iff.mp htail with hall | hshort
            · rw [hall] at h
              exact absurd (List.suffix_refl _) h
            · -- a final piece of the back holds no more of them than the back does
              have hcount := hshort.sublist.countP_le (p := p)
              rw [List.countP_cons_of_pos hpb, List.countP_filter] at hcount
              simp at hcount
    · obtain ⟨front, x, b, back, hl, hx, hb⟩ := ih htail
      exact ⟨a :: front, x, b, back, by rw [hl]; rfl, hx, hb⟩

theorem OneChain.gap_prev {front back : List AuditRow} {a b : AuditRow}
    (h : OneChain sha (front ++ a :: b :: back)) : b.prevHash = a.rowHash :=
  (linked_append.mp h.linked).2.2.1

/-- The row behind a gap names a row that is gone. -/
theorem removal_broken {deleted : AuditRow → Bool} (h : OneChain sha (table.filter AuditRow.chained))
    (hsha : CollisionFree sha table)
    (hgap : ¬ (table.filter AuditRow.chained).filter deleted <:+ table.filter AuditRow.chained) :
    (auditChainReport sha (table.filter fun r => !(r.chained && deleted r))).broken = true := by
  have hleft : (table.filter fun r => !(r.chained && deleted r)).filter AuditRow.chained =
      (table.filter AuditRow.chained).filter (!deleted ·) := by
    rw [List.filter_filter, List.filter_filter]
    refine List.filter_congr fun r _ => ?_
    cases r.chained <;> cases deleted r <;> rfl
  have hnodup := h.hash_nodup hsha
  obtain ⟨front, a, b, back, hsplit, ha, hb⟩ := exists_gap hgap
  rw [broken_iff, hleft]
  refine .inr (.inl ⟨b, List.mem_filter.mpr ⟨by simp [hsplit], by simp [hb]⟩, ?_⟩)
  have hprev : b.prevHash = a.rowHash := (hsplit ▸ h).gap_prev
  have ha' : a ∈ table.filter AuditRow.chained := by simp [hsplit]
  rw [List.nodup_cons] at hnodup
  rw [hprev]
  refine ⟨fun hempty => hnodup.1 (hempty ▸ List.mem_map_of_mem ha'), fun hmem => ?_⟩
  obtain ⟨r, hr, hhash⟩ := List.mem_map.mp hmem
  obtain ⟨hr, hkept⟩ := List.mem_filter.mp hr
  rw [List.inj_on_of_nodup_map hnodup.2 hr ha' hhash, ha] at hkept
  cases hkept

/-! ### Rows put in -/

/-- The row of the chain that has the same predecessor and the added row are both older than the marker. -/
def Excused (table chain : List AuditRow) (x : AuditRow) : Prop :=
  ∃ r ∈ chain, r.prevHash = x.prevHash ∧ isHistory (knownBreaksBefore table) (max r.createdAt x.createdAt) = true

/-- The row has no predecessor but itself: its hash is the one its own text starts with. -/
def NamesItself (chain : List AuditRow) (x : AuditRow) : Prop :=
  x.prevHash = x.rowHash ∧ ∀ r ∈ chain, r.prevHash ≠ x.prevHash

/-- The predecessors named along the chain are its hashes but the last. -/
theorem prev_named {chain : List AuditRow} (h : OneChain sha chain) {p : Text}
    (hlast : p ≠ lastHash AuditRow.rowHash [] chain) :
    p ∈ [] :: chain.map AuditRow.rowHash ↔ ∃ r ∈ chain, r.prevHash = p := by
  rw [h.linked.hashes, List.mem_append, List.mem_map, List.mem_singleton]
  exact or_iff_left hlast

/-- With a row put in, the rows that name a predecessor are those of the chain and, at its own, the added one. -/
theorem kids_insert (before after : List AuditRow) (x : AuditRow) (p : Text) :
    ((before ++ x :: after).filter fun r => r.prevHash = p) =
      (before.filter fun r => r.prevHash = p) ++ (if x.prevHash = p then [x] else []) ++
        after.filter fun r => r.prevHash = p := by
  rw [List.filter_append, List.filter_cons]
  split_ifs <;> simp_all

/-- Two rows in either order: the later one is the restart, at the later time. -/
theorem later_of_two {l : List AuditRow} {r x : AuditRow} (h : l = [x, r] ∨ l = [r, x]) :
    ∃ later, (l.insertionSort oldestFirst).tail = [later] ∧ later.createdAt = max r.createdAt x.createdAt := by
  have hsort : ∀ a b : AuditRow, ∃ later, ([a, b].insertionSort oldestFirst).tail = [later] ∧
      later.createdAt = max a.createdAt b.createdAt := by
    intro a b
    by_cases hab : oldestFirst a b
    · refine ⟨b, by simp [hab], ?_⟩
      unfold oldestFirst at hab
      omega
    · refine ⟨a, by simp [hab], ?_⟩
      unfold oldestFirst at hab
      omega
  rcases h with rfl | rfl
  · rw [max_comm]
    exact hsort x r
  · exact hsort r x

theorem lastAt_of_two {l : List AuditRow} {r x : AuditRow} (h : l = [x, r] ∨ l = [r, x]) :
    ((l.map AuditRow.createdAt).max?).getD 0 = max r.createdAt x.createdAt := by
  rcases h with rfl | rfl
  · rw [max_comm]
    rfl
  · rfl

section Inserted
variable {before after : List AuditRow} {x : AuditRow}

/-- The chained rows once a hashed row is put in. -/
theorem filter_insert (hx : x.chained = true) : (before ++ x :: after).filter AuditRow.chained =
    before.filter AuditRow.chained ++ x :: after.filter AuditRow.chained := by
  rw [List.filter_append, List.filter_cons_of_pos hx]

theorem mem_insert (hx : x.chained = true) {r : AuditRow} : r ∈ (before ++ x :: after).filter AuditRow.chained ↔
    r = x ∨ r ∈ (before ++ after).filter AuditRow.chained := by
  rw [filter_insert hx, List.filter_append, List.mem_append, List.mem_append, List.mem_cons]
  tauto

/-- The rows that name a predecessor other than the added row's are at most one, as before. -/
theorem kids_elsewhere (h : OneChain sha ((before ++ after).filter AuditRow.chained))
    (hsha : CollisionFree sha (before ++ after)) (hx : x.chained = true) {p : Text} (hp : x.prevHash ≠ p) :
    (((before ++ x :: after).filter AuditRow.chained).filter fun r => r.prevHash = p).length ≤ 1 := by
  have hle := kids_length_le (h.prev_nodup hsha) p
  rw [filter_insert hx, kids_insert, if_neg hp, List.append_nil]
  rwa [List.filter_append, List.filter_append] at hle

/-- The rows that name the added row's predecessor: that row alone, or with the one of the chain. -/
theorem kids_here (h : OneChain sha ((before ++ after).filter AuditRow.chained))
    (hsha : CollisionFree sha (before ++ after)) (hx : x.chained = true) :
    let kids := ((before ++ x :: after).filter AuditRow.chained).filter fun r => r.prevHash = x.prevHash
    (kids = [x] ∧ ∀ r ∈ (before ++ after).filter AuditRow.chained, r.prevHash ≠ x.prevHash) ∨
      ∃ r ∈ (before ++ after).filter AuditRow.chained, r.prevHash = x.prevHash ∧ (kids = [x, r] ∨ kids = [r, x]) ∧
        ∀ q ∈ (before ++ after).filter AuditRow.chained, q.prevHash = x.prevHash → q = r := by
  have hle := kids_length_le (h.prev_nodup hsha) x.prevHash
  have hmem : ∀ r ∈ (before ++ after).filter AuditRow.chained, r.prevHash = x.prevHash →
      r ∈ ((before ++ after).filter AuditRow.chained).filter fun r => r.prevHash = x.prevHash :=
    fun r hr hprev => List.mem_filter.mpr ⟨hr, by simpa using hprev⟩
  have hown : ∀ r ∈ ((before ++ after).filter AuditRow.chained).filter (fun r => r.prevHash = x.prevHash),
      r ∈ (before ++ after).filter AuditRow.chained ∧ r.prevHash = x.prevHash := fun r hr =>
    ⟨(List.mem_filter.mp hr).1, by simpa using (List.mem_filter.mp hr).2⟩
  simp only
  rw [filter_insert hx, kids_insert, if_pos rfl]
  have hsplit : ((before ++ after).filter AuditRow.chained).filter (fun r => r.prevHash = x.prevHash) =
      ((before.filter AuditRow.chained).filter fun r => r.prevHash = x.prevHash) ++
        (after.filter AuditRow.chained).filter fun r => r.prevHash = x.prevHash := by
    rw [List.filter_append, List.filter_append]
  generalize (before.filter AuditRow.chained).filter (fun r => r.prevHash = x.prevHash) = front at hsplit ⊢
  generalize (after.filter AuditRow.chained).filter (fun r => r.prevHash = x.prevHash) = back at hsplit ⊢
  generalize ((before ++ after).filter AuditRow.chained).filter (fun r => r.prevHash = x.prevHash) = kids
    at hle hmem hown hsplit
  cases kids with
  | nil =>
    obtain ⟨rfl, rfl⟩ := List.append_eq_nil_iff.mp hsplit.symm
    exact .inl ⟨rfl, fun r hr hprev => List.not_mem_nil (hmem r hr hprev)⟩
  | cons r kids =>
    obtain rfl : kids = [] := List.length_eq_zero_iff.mp (by simpa using hle)
    refine .inr ⟨r, (hown r List.mem_cons_self).1, (hown r List.mem_cons_self).2, ?_, fun q hq hprev =>
      List.mem_singleton.mp (hmem q hq hprev)⟩
    rcases List.append_eq_singleton_iff.mp hsplit.symm with ⟨rfl, rfl⟩ | ⟨rfl, rfl⟩
    · exact .inl rfl
    · exact .inr rfl

/-- No fork but at the added row's predecessor. -/
theorem newFork_here (h : OneChain sha ((before ++ after).filter AuditRow.chained))
    (hsha : CollisionFree sha (before ++ after)) (hx : x.chained = true) :
    NewFork (before ++ x :: after) ↔ ∃ f, forkAt (knownBreaksBefore (before ++ x :: after))
      ((before ++ x :: after).filter AuditRow.chained) x.prevHash = some f ∧ f.known = false := by
  constructor
  · rintro ⟨p, f, -, hf, hknown⟩
    have hp : x.prevHash = p := by
      by_contra hne
      have hle := kids_elsewhere h hsha hx hne
      unfold forkAt at hf
      simp only at hf
      rw [if_neg fun hc => absurd hc.2 (by omega)] at hf
      cases hf
    exact ⟨f, hp ▸ hf, hknown⟩
  · rintro ⟨f, hf, hknown⟩
    exact ⟨x.prevHash, f, List.mem_map_of_mem ((mem_insert hx).mpr (.inl rfl)), hf, hknown⟩

/-- Every row's hash is right, and only the added row can name a predecessor that is not there. -/
theorem broken_insert (h : OneChain sha ((before ++ after).filter AuditRow.chained)) (hx : x.chained = true)
    (hhash : x.rowHash = expectedRowHash sha x x.prevHash) :
    (auditChainReport sha (before ++ x :: after)).broken = true ↔
      (x.prevHash ≠ [] ∧ x.prevHash ≠ x.rowHash ∧
        x.prevHash ∉ ((before ++ after).filter AuditRow.chained).map AuditRow.rowHash) ∨
      NewFork (before ++ x :: after) ∨ NewRestart (before ++ x :: after) := by
  have hashes : ∀ p, p ∈ ((before ++ x :: after).filter AuditRow.chained).map AuditRow.rowHash ↔
      p = x.rowHash ∨ p ∈ ((before ++ after).filter AuditRow.chained).map AuditRow.rowHash := by
    intro p
    simp only [List.mem_map, mem_insert hx]
    aesop
  rw [broken_iff]
  constructor
  · rintro (⟨r, hr, hbad⟩ | ⟨r, hr, hne, hgone⟩ | hrest)
    · rcases (mem_insert hx).mp hr with rfl | hr
      · exact absurd hhash hbad
      · rw [expectedRowHash_eq] at hbad
        exact absurd (h.sound r hr).hashed hbad
    · rw [hashes, not_or] at hgone
      rcases (mem_insert hx).mp hr with rfl | hr
      · exact .inl ⟨hne, hgone.1, hgone.2⟩
      · exact absurd ((List.mem_cons.mp (h.linked.prev_mem hr)).resolve_left hne) hgone.2
    · exact .inr hrest
  · rintro (⟨hne, hself, hgone⟩ | hrest)
    · exact .inr (.inl ⟨x, (mem_insert hx).mpr (.inl rfl), hne, by rw [hashes, not_or]; exact ⟨hself, hgone⟩⟩)
    · exact .inr (.inr hrest)

/-- A row beside another one: a fork, or at the start a restart, unless both are history. -/
theorem beside_broken_iff (h : OneChain sha ((before ++ after).filter AuditRow.chained))
    (hsha : CollisionFree sha (before ++ after)) (hx : x.chained = true) {r : AuditRow}
    (hkids : (((before ++ x :: after).filter AuditRow.chained).filter fun r => r.prevHash = x.prevHash) = [x, r] ∨
      (((before ++ x :: after).filter AuditRow.chained).filter fun r => r.prevHash = x.prevHash) = [r, x]) :
    NewFork (before ++ x :: after) ∨ NewRestart (before ++ x :: after) ↔
      isHistory (knownBreaksBefore (before ++ x :: after)) (max r.createdAt x.createdAt) = false := by
  rw [newFork_here h hsha hx]
  by_cases hstart : x.prevHash = []
  · -- nothing but the start names the empty hash, and it is no fork
    obtain ⟨later, htail, hat⟩ := later_of_two hkids
    rw [hstart] at htail
    have hfork : forkAt (knownBreaksBefore (before ++ x :: after)) ((before ++ x :: after).filter AuditRow.chained)
        x.prevHash = none := by
      unfold forkAt
      exact if_neg fun hc => hc.1 hstart
    simp only [hfork, NewRestart, htail, List.mem_singleton, exists_eq_left, hat]
    simp
  · have hle := kids_elsewhere h hsha hx hstart
    have hlength : ((((before ++ x :: after).filter AuditRow.chained).filter fun r => r.prevHash = []).insertionSort
        oldestFirst).tail = [] := by
      rw [← List.length_eq_zero_iff, List.length_tail, List.length_insertionSort]
      omega
    have htwo : 1 < (((before ++ x :: after).filter AuditRow.chained).filter fun r => r.prevHash = x.prevHash).length := by
      rcases hkids with hk | hk <;> rw [hk] <;> simp
    have hfork : forkAt (knownBreaksBefore (before ++ x :: after)) ((before ++ x :: after).filter AuditRow.chained)
        x.prevHash = some { prevHash := x.prevHash
                            children := (((before ++ x :: after).filter AuditRow.chained).filter fun r =>
                              r.prevHash = x.prevHash).length
                            lastAt := max r.createdAt x.createdAt
                            known := isHistory (knownBreaksBefore (before ++ x :: after))
                              (max r.createdAt x.createdAt) } := by
      unfold forkAt
      simp only
      rw [if_pos ⟨hstart, htwo⟩, lastAt_of_two hkids]
    simp only [hfork, NewRestart, hlength, Option.some.injEq, exists_eq_left']
    simp

/-- A row with a correct hash put in anywhere but behind the last one is reported, unless it is excused as history or
    its own hash is the predecessor it names. -/
theorem insertion_broken_iff (h : OneChain sha ((before ++ after).filter AuditRow.chained))
    (hsha : CollisionFree sha (before ++ after)) (hhash : x.rowHash = expectedRowHash sha x x.prevHash)
    (hlast : x.prevHash ≠ lastHash AuditRow.rowHash [] ((before ++ after).filter AuditRow.chained)) :
    (auditChainReport sha (before ++ x :: after)).broken = true ↔
      ¬ (Excused (before ++ x :: after) ((before ++ after).filter AuditRow.chained) x ∨
        NamesItself ((before ++ after).filter AuditRow.chained) x) := by
  have hx : x.chained = true := by
    rw [AuditRow.chained, hhash, expectedRowHash_eq]
    simpa using hexdigest_ne_nil _
  have hnamed := prev_named h hlast
  rw [List.mem_cons] at hnamed
  rw [broken_insert h hx hhash]
  rcases kids_here h hsha hx with ⟨hkids, hnone⟩ | ⟨r, hr, hprev, hkids, honly⟩
  · have hgone : ¬ (x.prevHash = [] ∨ x.prevHash ∈ ((before ++ after).filter AuditRow.chained).map AuditRow.rowHash) :=
      fun hin => by
        obtain ⟨r, hr, hprev⟩ := hnamed.mp hin
        exact hnone r hr hprev
    rw [not_or] at hgone
    have hfork : ¬ NewFork (before ++ x :: after) := by
      rw [newFork_here h hsha hx]
      rintro ⟨f, hf, -⟩
      unfold forkAt at hf
      simp only at hf
      rw [hkids, if_neg fun hc => absurd hc.2 (by simp)] at hf
      cases hf
    have hrestart : ¬ NewRestart (before ++ x :: after) := by
      rintro ⟨q, hq, -⟩
      have hle := kids_elsewhere h hsha hx hgone.1
      have hlength := List.length_pos_of_mem hq
      rw [List.length_tail, List.length_insertionSort] at hlength
      omega
    have hexcused : ¬ Excused (before ++ x :: after) ((before ++ after).filter AuditRow.chained) x := by
      rintro ⟨r, hr, hprev, -⟩
      exact hnone r hr hprev
    have hitself : NamesItself ((before ++ after).filter AuditRow.chained) x ↔ x.prevHash = x.rowHash :=
      and_iff_left hnone
    rw [hitself]
    tauto
  · have hin := hnamed.mpr ⟨r, hr, hprev⟩
    have hitself : ¬ NamesItself ((before ++ after).filter AuditRow.chained) x := fun hself => hself.2 r hr hprev
    have hexcused : Excused (before ++ x :: after) ((before ++ after).filter AuditRow.chained) x ↔
        isHistory (knownBreaksBefore (before ++ x :: after)) (max r.createdAt x.createdAt) = true := by
      constructor
      · rintro ⟨q, hq, hqprev, hold⟩
        rwa [honly q hq hqprev] at hold
      · exact fun hold => ⟨r, hr, hprev, hold⟩
    rw [beside_broken_iff h hsha hx hkids, hexcused, ← Bool.not_eq_true]
    tauto

end Inserted

/-- In a chain that the serialized writer made, the removal of any rows that are not its last ones is reported, and so
    is a row with a correct hash put in anywhere but behind the last one, with any date and at any place, unless both
    it and the row it is put beside are older than the marker or its own hash is the predecessor it names. -/
theorem tampering_reported (sha : Sha256) (steps : List AuditStep) (s : AuditState)
    (hrun : runAudit sha steps = some s) (hnamed : ∀ step ∈ steps, step.Named)
    (htenant : ∀ step ∈ steps, step.ShortTenant) (hsha : CollisionFree sha s.committed) :
    let chain := s.committed.filter AuditRow.chained
    (∀ deleted : AuditRow → Bool, ¬ chain.filter deleted <:+ chain →
      (auditChainReport sha (s.committed.filter fun r => !(r.chained && deleted r))).broken = true) ∧
    ∀ (before after : List AuditRow) (x : AuditRow), before ++ after = s.committed →
      x.rowHash = expectedRowHash sha x x.prevHash → x.prevHash ≠ lastHash AuditRow.rowHash [] chain →
      ((auditChainReport sha (before ++ x :: after)).broken = true ↔
        ¬ (Excused (before ++ x :: after) chain x ∨ NamesItself chain x)) := by
  have hchain := (runAudit_serialized hrun hnamed htenant).committed
  refine ⟨fun deleted hgap => removal_broken hchain hsha hgap, fun before after x hsplit hhash hlast => ?_⟩
  rw [← hsplit] at hchain hsha hlast ⊢
  exact insertion_broken_iff hchain hsha hhash hlast

/-- Two logins and then the marker, one writer after the other. -/
def markedRun : List AuditStep :=
  let login : AuditCall := { arg0 := some "login".toList, arg1 := some (some .systemActor) }
  let marker : AuditCall := { action := some (some auditChainSerializedAction)
                              userId := some (some (.named "migration".toList)) }
  [.lock 1, .readTip 1, .insert 1 login 1 100, .commit 1, .lock 2, .readTip 2, .insert 2 login 2 200, .commit 2,
    .lock 3, .readTip 3, .insert 3 marker 3 300, .commit 3]

/-- The second login is taken out. -/
theorem tampering_reported_login :
    ∃ s, runAudit polySha markedRun = some s ∧ s.committed.length = 3 ∧
      (auditChainReport polySha (s.committed.filter fun r => !(r.chained && decide (r.id = 2)))).broken = true := by
  obtain ⟨s, hs⟩ : ∃ s, runAudit polySha markedRun = some s := Option.isSome_iff_exists.mp (by decide +kernel)
  have hfacts : (runAudit polySha markedRun).all (fun s => s.committed.length = 3 ∧ CollisionFree polySha s.committed ∧
      ¬ (s.committed.filter AuditRow.chained).filter (fun r => r.id = 2) <:+ s.committed.filter AuditRow.chained) =
      true := by decide +kernel
  rw [hs, Option.all_some, decide_eq_true_eq] at hfacts
  obtain ⟨hlength, hsha, hgap⟩ := hfacts
  have hreported := tampering_reported polySha markedRun s hs (by decide +kernel) (by decide +kernel) hsha
  exact ⟨s, hs, hlength, hreported.1 _ hgap⟩

/-- A row behind the first login, beside the second one. -/
def besideLogin (first : AuditRow) : AuditRow :=
  auditEntry polySha { arg0 := some "logout".toList, arg1 := some (some .systemActor) } (some (first.rowHash, 100)) 9 150

/-- A row dated before the marker is put beside a login from before the marker: a fork, and no break. -/
theorem row_before_marker_excused :
    (runAudit polySha markedRun).any (fun s => s.committed.head?.any fun first =>
      CollisionFree polySha s.committed ∧ (auditChainReport polySha s.committed).broken = false ∧
      (besideLogin first).rowHash = expectedRowHash polySha (besideLogin first) (besideLogin first).prevHash ∧
      (besideLogin first).prevHash ≠ lastHash AuditRow.rowHash [] (s.committed.filter AuditRow.chained) ∧
      (auditChainReport polySha (first :: besideLogin first :: s.committed.tail)).broken = false) = true := by
  decide +kernel

end Gdx
