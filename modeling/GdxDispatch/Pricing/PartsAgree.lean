import GdxDispatch.Pricing.Parts
import Mathlib.Data.List.Dedup

/-! Where a part is priced only as its sources agree.

    A lane whose rows disagree is passed over and the next step or lane may still answer: two different sell prices do not
    keep the cost from being marked up, two quotes of the office do not keep the catalog from answering, and of several
    categories the row read first decides. -/

namespace Gdx.PartPricing
open Lib

variable {engine : ℤ → Text → Option ℤ} {rows rows' : List PricedRow} {db db' : Tables} {q : Ask}

/-- Two of the values differ. -/
def Differ {α : Type} (values : List α) : Prop := ∃ a ∈ values, ∃ b ∈ values, a ≠ b

/-- The believable sell prices of a lane. -/
def sells (rows : List PricedRow) : List ℤ := rows.filterMap believableSell

def costs (rows : List PricedRow) : List ℤ := rows.filterMap recordedCost

def categories (rows : List PricedRow) : List Text := rows.filterMap namedCategory

/-- Some category of the rows marks their one cost up. -/
def Marks (engine : ℤ → Text → Option ℤ) (rows : List PricedRow) : Prop :=
  ∃ cost, distinct (costs rows) = some cost ∧
    ∃ category, (category ∈ categories rows ∨ categories rows = [] ∧ category = "parts".toList) ∧
      (engine cost category).isSome

/-! ### One agreed value -/

theorem distinct_eq_some_iff {values : List ℤ} {v : ℤ} :
    distinct values = some v ↔ 0 < v ∧ v ∈ values ∧ ∀ w ∈ values, 0 < w → w = v := by
  have hmem : ∀ w, w ∈ (values.filter fun v => 0 < v).dedup ↔ w ∈ values ∧ 0 < w := by
    intro w
    rw [List.mem_dedup, List.mem_filter, decide_eq_true_eq]
  have hnodup := List.nodup_dedup (values.filter fun v => 0 < v)
  unfold distinct
  constructor
  · intro h
    split at h
    · rename_i w heq
      injection h with h
      subst h
      rw [heq] at hmem
      obtain ⟨hin, hpos⟩ := (hmem w).mp List.mem_cons_self
      exact ⟨hpos, hin, fun u hu hu0 => List.mem_singleton.mp ((hmem u).mpr ⟨hu, hu0⟩)⟩
    · cases h
  · rintro ⟨hpos, hin, hall⟩
    have hone : (values.filter fun v => 0 < v).dedup = [v] := by
      refine List.perm_singleton.mp ((List.perm_ext_iff_of_nodup hnodup (List.nodup_singleton v)).mpr fun w => ?_)
      rw [hmem, List.mem_singleton]
      constructor
      · exact fun h => hall w h.1 h.2
      · rintro rfl
        exact ⟨hin, hpos⟩
    rw [hone]

/-- The order of the values does not matter. -/
theorem distinct_perm {values values' : List ℤ} (h : values.Perm values') : distinct values = distinct values' := by
  refine Option.ext fun v => ?_
  simp only [distinct_eq_some_iff, h.mem_iff]

theorem not_differ_of_distinct {values : List ℤ} (hpos : ∀ v ∈ values, 0 < v) {v : ℤ} (h : distinct values = some v) :
    ¬ Differ values := by
  rintro ⟨a, ha, b, hb, hne⟩
  obtain ⟨-, -, hall⟩ := distinct_eq_some_iff.mp h
  exact hne ((hall a ha (hpos a ha)).trans (hall b hb (hpos b hb)).symm)

/-! ### One lane -/

theorem sells_pos (rows : List PricedRow) : ∀ v ∈ sells rows, 0 < v := by
  intro v hv
  obtain ⟨item, -, hitem⟩ := List.mem_filterMap.mp hv
  unfold believableSell at hitem
  split at hitem
  · cases hitem
  · split_ifs at hitem
    split at hitem
    · cases hitem
      omega
    · split_ifs at hitem
      all_goals
        cases hitem
        omega

theorem costs_pos (rows : List PricedRow) : ∀ v ∈ costs rows, 0 < v := by
  intro v hv
  obtain ⟨item, -, hitem⟩ := List.mem_filterMap.mp hv
  exact of_decide_eq_true (Option.filter_eq_some_iff.mp hitem).2

theorem quotes_pos (db : Tables) (q : Ask) : ∀ v ∈ quotes db q, 0 < v := by
  intro v hv
  unfold quotes at hv
  split at hv
  · cases hv
  · split_ifs at hv
    · cases hv
    · obtain ⟨item, -, hitem⟩ := List.mem_filterMap.mp hv
      exact of_decide_eq_true (Option.filter_eq_some_iff.mp hitem).2

/-- What a lane says by its agreed sell price, its contradictions and its agreed cost. -/
theorem lane_eq (engine : ℤ → Text → Option ℤ) (rows : List PricedRow) :
    lane engine rows =
      match distinct (sells rows) with
      | some agreed => .sell agreed
      | none =>
        if rows.any contradictory then .stop
        else
          match distinct (costs rows) with
          | none => .next
          | some agreedCost =>
            match engine agreedCost (laneCategory rows) with
            | some markedUp => .marked markedUp
            | none => .next := by
  cases rows with
  | nil => rfl
  | cons item rows => rfl

/-- The category read is one of the rows', or `parts` where none names one. -/
theorem laneCategory_spec (rows : List PricedRow) :
    laneCategory rows ∈ categories rows ∨ categories rows = [] ∧ laneCategory rows = "parts".toList := by
  unfold laneCategory categories
  cases hfind : rows.findSome? namedCategory with
  | some category =>
    obtain ⟨item, hitem, hnamed⟩ := List.exists_of_findSome?_eq_some hfind
    exact .inl (List.mem_filterMap.mpr ⟨item, hitem, hnamed⟩)
  | none =>
    refine .inr ⟨List.filterMap_eq_nil_iff.mpr fun item hitem => ?_, rfl⟩
    exact List.findSome?_eq_none_iff.mp hfind item hitem

/-- A lane that no category marks up goes on. -/
theorem lane_silent (hsell : distinct (sells rows) = none) (hstop : rows.any contradictory = false)
    (hmarks : ¬ Marks engine rows) : lane engine rows = .next := by
  rw [lane_eq, hsell, hstop]
  cases hcost : distinct (costs rows) with
  | none => rfl
  | some cost =>
    have hengine : engine cost (laneCategory rows) = none := by
      by_contra hsome
      exact hmarks ⟨cost, hcost, _, laneCategory_spec rows, Option.isSome_iff_ne_none.mpr hsome⟩
    simp [hengine]

/-- A lane marks up only by a category of its rows. -/
theorem marks_of_lane {p : ℤ} (h : lane engine rows = .marked p) : Marks engine rows := by
  by_contra hmarks
  cases hsell : distinct (sells rows) with
  | some v =>
    rw [lane_eq, hsell] at h
    cases h
  | none =>
    cases hstop : rows.any contradictory with
    | true =>
      rw [lane_eq, hsell, hstop] at h
      cases h
    | false =>
      rw [lane_silent hsell hstop hmarks] at h
      cases h

theorem categories_unique (hcats : ¬ Differ (categories rows)) {a b : Text}
    (ha : a ∈ categories rows ∨ categories rows = [] ∧ a = "parts".toList)
    (hb : b ∈ categories rows ∨ categories rows = [] ∧ b = "parts".toList) : a = b := by
  rcases ha with ha | ⟨hnil, rfl⟩
  · rcases hb with hb | ⟨hnil, rfl⟩
    · by_contra hne
      exact hcats ⟨a, ha, b, hb, hne⟩
    · rw [hnil] at ha
      cases ha
  · rcases hb with hb | ⟨-, rfl⟩
    · rw [hnil] at hb
      cases hb
    · rfl

/-- Where the categories agree, a lane that marks up answers. -/
theorem lane_marked (hsell : distinct (sells rows) = none) (hstop : rows.any contradictory = false)
    (hmarks : Marks engine rows) (hcats : ¬ Differ (categories rows)) : ∃ p, lane engine rows = .marked p := by
  obtain ⟨cost, hcost, category, hcategory, hengine⟩ := hmarks
  obtain ⟨p, hp⟩ := Option.isSome_iff_exists.mp hengine
  rw [categories_unique hcats hcategory (laneCategory_spec rows)] at hp
  refine ⟨p, ?_⟩
  rw [lane_eq, hsell, hstop, hcost]
  simp [hp]

theorem sells_perm (h : rows.Perm rows') : (sells rows).Perm (sells rows') := h.filterMap _

theorem costs_perm (h : rows.Perm rows') : (costs rows).Perm (costs rows') := h.filterMap _

theorem categories_perm (h : rows.Perm rows') : (categories rows).Perm (categories rows') := h.filterMap _

/-- The rows in an order whose first category marks the cost up. -/
theorem lane_first (h : rows'.Perm rows) (hsell : distinct (sells rows) = none) (hstop : rows.any contradictory = false)
    {cost p : ℤ} (hcost : distinct (costs rows) = some cost) (hp : engine cost (laneCategory rows') = some p) :
    lane engine rows' = .marked p := by
  rw [lane_eq, distinct_perm (sells_perm h), hsell, h.any_eq, hstop, distinct_perm (costs_perm h), hcost]
  simp [hp]

theorem marks_perm (h : rows.Perm rows') : Marks engine rows ↔ Marks engine rows' := by
  have hcosts : distinct (costs rows) = distinct (costs rows') := distinct_perm (costs_perm h)
  have hcats := categories_perm h
  have hnil : categories rows = [] ↔ categories rows' = [] :=
    ⟨fun hn => List.nil_perm.mp (hn ▸ hcats), fun hn => List.perm_nil.mp (hn ▸ hcats)⟩
  simp only [Marks, hcosts, hcats.mem_iff, hnil]

/-- The order of the rows matters to a lane only where categories differ. -/
theorem lane_perm (h : rows.Perm rows')
    (hcats : distinct (sells rows) = none → rows.any contradictory = false → Marks engine rows →
      ¬ Differ (categories rows)) : lane engine rows' = lane engine rows := by
  have hsells : distinct (sells rows') = distinct (sells rows) := distinct_perm (sells_perm h.symm)
  have hany : rows'.any contradictory = rows.any contradictory := h.symm.any_eq
  cases hsell : distinct (sells rows) with
  | some v => rw [lane_eq, lane_eq, hsells, hsell]
  | none =>
    cases hstop : rows.any contradictory with
    | true => rw [lane_eq, lane_eq, hsells, hsell, hany, hstop, if_pos rfl, if_pos rfl]
    | false =>
      by_cases hmarks : Marks engine rows
      · have hagree := hcats hsell hstop hmarks
        have hcategory : laneCategory rows' = laneCategory rows := by
          have hperm := categories_perm h.symm
          refine categories_unique hagree ?_ (laneCategory_spec rows)
          exact (laneCategory_spec rows').imp hperm.mem_iff.mp fun ⟨hnil, heq⟩ => ⟨List.nil_perm.mp (hnil ▸ hperm), heq⟩
        have hcosts : distinct (costs rows') = distinct (costs rows) := distinct_perm (costs_perm h.symm)
        rw [lane_eq, lane_eq, hsells, hany, hcosts, hcategory]
      · rw [lane_silent hsell hstop hmarks]
        exact lane_silent (hsells.trans hsell) (hany.trans hstop) fun hm => hmarks ((marks_perm h).mpr hm)

/-! ### The property -/

/-- The same tables, their rows read in another order. -/
inductive Reordered (db : Tables) : Tables → Prop where
  | mk {requests : List JobPart} {catalog : List CatalogItem} {chi : List ChiPart}
      (hrequests : db.requests.Perm requests) (hcatalog : db.catalog.Perm catalog) (hchi : db.chi.Perm chi) :
      Reordered db { db with requests := requests, catalog := catalog, chi := chi }

/-- The order in which the rows are read does not matter. -/
def OrderFree (db : Tables) (q : Ask) : Prop :=
  ∀ db', Reordered db db' → resolveSellPrice db' q = resolveSellPrice db q

/-- A lane that answers, and every lane before it, holds no two different believable sell prices; where a marked-up cost is
    the answer, no two different costs or categories either. -/
def SourcesAgree (db : Tables) (q : Ask) : Prop :=
  ∀ price source, resolveSellPrice db q = some (price, source) →
    match source with
    | .jobQuote => ¬ Differ (quotes db q)
    | .inventory => ¬ Differ (quotes db q)
    | .catalog => ¬ Differ (quotes db q) ∧ ¬ Differ (sells (catalogRows db q))
    | .catalogCost =>
      ¬ Differ (quotes db q) ∧ ¬ Differ (sells (catalogRows db q)) ∧ ¬ Differ (costs (catalogRows db q)) ∧
        ¬ Differ (categories (catalogRows db q))
    | .chi => ¬ Differ (quotes db q) ∧ ¬ Differ (sells (catalogRows db q)) ∧ ¬ Differ (sells (chiRows db q))
    | .chiCost =>
      ¬ Differ (quotes db q) ∧ ¬ Differ (sells (catalogRows db q)) ∧ ¬ Differ (sells (chiRows db q)) ∧
        ¬ Differ (costs (catalogRows db q)) ∧ ¬ Differ (categories (catalogRows db q)) ∧
        ¬ Differ (costs (chiRows db q)) ∧ ¬ Differ (categories (chiRows db q))

/-- A SKU held by a single row is priced as that row is, when neither the office nor the bench answers; so is an answer of
    a lane that holds a single row. -/
def SingleRow (db : Tables) (q : Ask) : Prop :=
  ∀ row,
    (q.needle ≠ [] → distinct (quotes db q) = none → inventoryPrice db q = none →
      (catalogRows db q = [row] ∧ chiRows db q = [] ∨ catalogRows db q = [] ∧ chiRows db q = [row]) →
      (resolveSellPrice db q).map Prod.fst = sellPriceForRow db q row) ∧
    ∀ price source, resolveSellPrice db q = some (price, source) →
      (catalogRows db q = [row] ∧ (source = .catalog ∨ source = .catalogCost) ∨
        chiRows db q = [row] ∧ (source = .chi ∨ source = .chiCost)) →
      sellPriceForRow db q row = some price

/-- When a catalog lane is reached: an agreed sell price answers past no dispute; a marked-up cost past no dispute of any
    kind; and where nothing is marked up, what comes after is right. -/
structure LaneSettles (engine : ℤ → Text → Option ℤ) (rows : List PricedRow) (sellsBefore costsBefore rest : Prop) :
    Prop where
  agreed : distinct (sells rows) ≠ none → ¬ sellsBefore
  marked : distinct (sells rows) = none → rows.any contradictory = false → Marks engine rows →
    ¬ sellsBefore ∧ ¬ costsBefore ∧ ¬ Differ (sells rows) ∧ ¬ Differ (categories rows)
  silent : distinct (sells rows) = none → rows.any contradictory = false → ¬ Marks engine rows → rest

/-- No lane can answer past a dispute. -/
structure Settles (db : Tables) (q : Ask) : Prop where
  bench : distinct (quotes db q) = none → inventoryPrice db q ≠ none → ¬ Differ (quotes db q)
  catalogs : distinct (quotes db q) = none → inventoryPrice db q = none → q.needle ≠ [] →
    LaneSettles (laneEngine db q) (catalogRows db q) (Differ (quotes db q)) False
      (LaneSettles (laneEngine db q) (chiRows db q) (Differ (quotes db q) ∨ Differ (sells (catalogRows db q)))
        (Differ (costs (catalogRows db q)) ∨ Differ (categories (catalogRows db q))) True)

/-! ### What the resolver answers -/

theorem resolve_catalogs (hquotes : distinct (quotes db q) = none) (hbench : inventoryPrice db q = none)
    (hneedle : q.needle ≠ []) :
    resolveSellPrice db q =
      match lane (laneEngine db q) (catalogRows db q) with
      | .sell agreed => some (agreed, .catalog)
      | .stop => none
      | .marked markedUp => some (markedUp, .catalogCost)
      | .next =>
        match lane (laneEngine db q) (chiRows db q) with
        | .sell agreed => some (agreed, .chi)
        | .marked markedUp => some (markedUp, .chiCost)
        | .stop => none
        | .next => none := by
  unfold resolveSellPrice
  simp only [hquotes, hbench]
  exact if_neg hneedle

/-- A single row's category, as the engine reads it. -/
theorem laneCategory_single (row : PricedRow) :
    ((some (laneCategory [row])).filter fun category => category ≠ []).getD "parts".toList =
      (row.pricingCategory.filter fun category => category ≠ []).getD "parts".toList := by
  have hlane : laneCategory [row] = (namedCategory row).getD "parts".toList := by
    unfold laneCategory
    rw [List.findSome?_cons]
    cases namedCategory row <;> rfl
  rw [hlane, namedCategory]
  cases row.pricingCategory with
  | none => rfl
  | some category =>
    by_cases hempty : category = []
    · subst hempty
      rfl
    · have hkeep : (some category).filter (fun category => category ≠ []) = some category :=
        Option.filter_eq_some_iff.mpr ⟨rfl, decide_eq_true hempty⟩
      rw [hkeep, Option.getD_some, hkeep, Option.getD_some]

/-- A single row's lane does what the row's own price does. -/
theorem lane_single (db : Tables) (q : Ask) (row : PricedRow) :
    (∀ p, lane (laneEngine db q) [row] = .sell p → sellPriceForRow db q row = some p) ∧
    (∀ p, lane (laneEngine db q) [row] = .marked p → sellPriceForRow db q row = some p) ∧
    (lane (laneEngine db q) [row] = .stop → sellPriceForRow db q row = none) ∧
    (lane (laneEngine db q) [row] = .next → sellPriceForRow db q row = none) := by
  rw [lane_eq]
  unfold sellPriceForRow
  cases hsell : believableSell row with
  | some v =>
    have hpos : 0 < v := sells_pos [row] v (by simp [sells, hsell])
    have hone : distinct (sells [row]) = some v := by
      refine distinct_eq_some_iff.mpr ⟨hpos, by simp [sells, hsell], fun w hw _ => ?_⟩
      simpa [sells, hsell] using hw
    rw [hone]
    simp
  | none =>
    have hnone : distinct (sells [row]) = none := by
      rw [sells, List.filterMap_cons_none hsell]
      rfl
    rw [hnone]
    simp only [List.any_cons, List.any_nil, Bool.or_false]
    cases hstop : contradictory row with
    | true => simp
    | false =>
      cases hrow : row.cost with
      | none =>
        have hcosts : distinct (costs [row]) = none := by
          simp [costs, recordedCost, hrow, distinct]
        simp [hcosts]
      | some cost =>
        by_cases hpos : cost ≤ 0
        · have hcosts : distinct (costs [row]) = none := by
            simp [costs, recordedCost, hrow, hpos, distinct]
          simp [hcosts, hpos]
        · have hrecorded : recordedCost row = some cost := by
            simp only [recordedCost, hrow, Option.filter_some, decide_eq_true_eq]
            rw [if_pos (by omega)]
          have hcosts : distinct (costs [row]) = some cost := by
            refine distinct_eq_some_iff.mpr ⟨by omega, by simp [costs, hrecorded], fun w hw _ => ?_⟩
            simpa [costs, hrecorded] using hw
          have hengine : laneEngine db q cost (laneCategory [row]) =
              engineSell db cost row.pricingCategory q.jobId q.customerId := by
            unfold laneEngine engineSell
            rw [laneCategory_single]
          simp only [hcosts, hengine, hpos, if_false]
          cases engineSell db cost row.pricingCategory q.jobId q.customerId <;> simp

/-! ### Reading the rows in another order -/

theorem quotes_perm (h : Reordered db db') (q : Ask) : (quotes db q).Perm (quotes db' q) := by
  cases h with
  | mk hrequests _ _ =>
    unfold quotes
    cases q.jobId with
    | none => exact List.Perm.refl _
    | some jobId =>
      dsimp only
      split_ifs
      · exact List.Perm.refl _
      · exact (hrequests.filter _).filterMap _

theorem catalogRows_perm (h : Reordered db db') (q : Ask) : (catalogRows db q).Perm (catalogRows db' q) := by
  cases h with
  | mk _ hcatalog _ => exact (hcatalog.filter _).map _

theorem chiRows_perm (h : Reordered db db') (q : Ask) : (chiRows db q).Perm (chiRows db' q) := by
  cases h with
  | mk _ _ hchi => exact (hchi.filter _).map _

/-- Any category of the catalog's rows can come first. -/
theorem exists_catalog_first {category : Text} (h : category ∈ categories (catalogRows db q)) :
    ∃ db', Reordered db db' ∧ laneCategory (catalogRows db' q) = category := by
  obtain ⟨_, hrow, hnamed⟩ := List.mem_filterMap.mp h
  obtain ⟨item, hitem, rfl⟩ := List.mem_map.mp hrow
  obtain ⟨hmem, hheld⟩ := List.mem_filter.mp hitem
  obtain ⟨before, after, hsplit⟩ := List.append_of_mem hmem
  have hperm : db.catalog.Perm (item :: (before ++ after)) := hsplit ▸ List.perm_middle
  refine ⟨_, .mk (List.Perm.refl _) hperm (List.Perm.refl _), ?_⟩
  unfold laneCategory catalogRows
  dsimp only
  rw [List.filter_cons, if_pos hheld, List.map_cons, List.findSome?_cons, hnamed]
  rfl

/-- Any category of CHI's rows can come first. -/
theorem exists_chi_first {category : Text} (h : category ∈ categories (chiRows db q)) :
    ∃ db', Reordered db db' ∧ catalogRows db' q = catalogRows db q ∧ laneCategory (chiRows db' q) = category := by
  obtain ⟨_, hrow, hnamed⟩ := List.mem_filterMap.mp h
  obtain ⟨item, hitem, rfl⟩ := List.mem_map.mp hrow
  obtain ⟨hmem, hheld⟩ := List.mem_filter.mp hitem
  obtain ⟨before, after, hsplit⟩ := List.append_of_mem hmem
  have hperm : db.chi.Perm (item :: (before ++ after)) := hsplit ▸ List.perm_middle
  refine ⟨_, .mk (List.Perm.refl _) (List.Perm.refl _) hperm, rfl, ?_⟩
  unfold laneCategory chiRows
  dsimp only
  rw [List.filter_cons, if_pos hheld, List.map_cons, List.findSome?_cons, hnamed]
  rfl

theorem laneEngine_reordered (h : Reordered db db') (q : Ask) : laneEngine db' q = laneEngine db q := by
  cases h
  rfl

theorem inventoryPrice_reordered (h : Reordered db db') (q : Ask) : inventoryPrice db' q = inventoryPrice db q := by
  cases h
  rfl

/-- Where some category of a lane's rows marks its cost up, and every one of them comes first in some order, some order
    marks the cost up. -/
theorem exists_marked {rowsOf : Tables → List PricedRow} {Q : Tables → Prop}
    (hperm : ∀ db', Reordered db db' → (rowsOf db').Perm (rowsOf db)) (hself : Q db)
    (hfirst : ∀ category ∈ categories (rowsOf db), ∃ db', Reordered db db' ∧ Q db' ∧ laneCategory (rowsOf db') = category)
    (hsell : distinct (sells (rowsOf db)) = none) (hstop : (rowsOf db).any contradictory = false)
    (hmarks : Marks (laneEngine db q) (rowsOf db)) :
    ∃ db' p, Reordered db db' ∧ Q db' ∧ lane (laneEngine db' q) (rowsOf db') = .marked p := by
  obtain ⟨cost, hcost, category, hcategory, hengine⟩ := hmarks
  obtain ⟨p, hp⟩ := Option.isSome_iff_exists.mp hengine
  obtain ⟨db', hdb', hQ, hhead⟩ : ∃ db', Reordered db db' ∧ Q db' ∧ laneCategory (rowsOf db') = category := by
    rcases hcategory with hmem | ⟨hnil, rfl⟩
    · exact hfirst category hmem
    · refine ⟨db, .mk (List.Perm.refl _) (List.Perm.refl _) (List.Perm.refl _), hself, ?_⟩
      rcases laneCategory_spec (rowsOf db) with hmem | ⟨-, heq⟩
      · rw [hnil] at hmem
        cases hmem
      · exact heq
  refine ⟨db', p, hdb', hQ, ?_⟩
  rw [laneEngine_reordered hdb']
  exact lane_first (hperm db' hdb') hsell hstop hcost (hhead ▸ hp)

/-! ### Exactly where the sources decide -/

/-- A settled lane reads the same in every order. -/
theorem LaneSettles.lane_perm {sellsBefore costsBefore rest : Prop} (h : LaneSettles engine rows sellsBefore costsBefore rest)
    (hperm : rows.Perm rows') : lane engine rows' = lane engine rows :=
  PartPricing.lane_perm hperm fun hsell hstop hmarks => (h.marked hsell hstop hmarks).2.2.2

/-- A lane that neither answers with a sell price nor stops agreed on none, and no row of it is contradictory. -/
theorem lane_past {outcome : LaneOutcome} (h : lane engine rows = outcome) (hsold : ∀ p, outcome ≠ .sell p)
    (hgo : outcome ≠ .stop) : distinct (sells rows) = none ∧ rows.any contradictory = false := by
  rw [lane_eq] at h
  subst h
  cases hsell : distinct (sells rows) with
  | some v =>
    rw [hsell] at hsold
    exact absurd rfl (hsold v)
  | none =>
    cases hstop : rows.any contradictory with
    | true =>
      rw [hsell, hstop] at hgo
      exact absurd rfl hgo
    | false => exact ⟨rfl, rfl⟩

theorem lane_sell {p : ℤ} (h : lane engine rows = .sell p) : distinct (sells rows) = some p := by
  rw [lane_eq] at h
  cases hsell : distinct (sells rows) with
  | some v =>
    rw [hsell] at h
    injection h with h
    rw [h]
  | none =>
    rw [hsell] at h
    dsimp only at h
    split_ifs at h
    split at h
    · cases h
    · split at h <;> cases h

/-- A settled lane that goes on is followed by a settled rest. -/
theorem LaneSettles.next {sellsBefore costsBefore rest : Prop} (h : LaneSettles engine rows sellsBefore costsBefore rest)
    (hnext : lane engine rows = .next) : rest := by
  obtain ⟨hsell, hstop⟩ := lane_past hnext (by simp) (by simp)
  refine h.silent hsell hstop fun hmarks => ?_
  obtain ⟨p, hp⟩ := lane_marked hsell hstop hmarks (h.marked hsell hstop hmarks).2.2.2
  rw [hnext] at hp
  cases hp

theorem orderFree_of_settles (h : Settles db q) : OrderFree db q := by
  intro db' hdb'
  have hquotes : distinct (quotes db' q) = distinct (quotes db q) := distinct_perm (quotes_perm hdb' q).symm
  have hbench := inventoryPrice_reordered hdb' q
  cases hq : distinct (quotes db q) with
  | some v =>
    unfold resolveSellPrice
    rw [hquotes, hq]
  | none =>
    cases hb : inventoryPrice db q with
    | some p =>
      unfold resolveSellPrice
      rw [hquotes, hq, hbench, hb]
    | none =>
      by_cases hneedle : q.needle = []
      · unfold resolveSellPrice
        rw [hquotes, hq, hbench, hb, if_pos hneedle, if_pos hneedle]
      · have hcatalogs := h.catalogs hq hb hneedle
        have hcatalog := hcatalogs.lane_perm (catalogRows_perm hdb' q)
        rw [resolve_catalogs (hquotes.trans hq) (hbench.trans hb) hneedle, resolve_catalogs hq hb hneedle,
          laneEngine_reordered hdb', hcatalog]
        cases hlane : lane (laneEngine db q) (catalogRows db q) with
        | sell p => rfl
        | marked p => rfl
        | stop => rfl
        | next =>
          dsimp only
          rw [(hcatalogs.next hlane).lane_perm (chiRows_perm hdb' q)]

/-- Where one quote is agreed the office's rows do not differ. -/
theorem sourcesAgree_of_settles (h : Settles db q) : SourcesAgree db q := by
  intro price source hanswer
  cases hq : distinct (quotes db q) with
  | some v =>
    unfold resolveSellPrice at hanswer
    rw [hq] at hanswer
    cases hanswer
    exact not_differ_of_distinct (quotes_pos db q) hq
  | none =>
    cases hb : inventoryPrice db q with
    | some p =>
      unfold resolveSellPrice at hanswer
      rw [hq, hb] at hanswer
      cases hanswer
      exact h.bench hq (by simp [hb])
    | none =>
      by_cases hneedle : q.needle = []
      · unfold resolveSellPrice at hanswer
        rw [hq, hb] at hanswer
        simp [hneedle] at hanswer
      · have hcatalogs := h.catalogs hq hb hneedle
        rw [resolve_catalogs hq hb hneedle] at hanswer
        cases hlane : lane (laneEngine db q) (catalogRows db q) with
        | sell p =>
          rw [hlane] at hanswer
          cases hanswer
          have hsell := lane_sell hlane
          exact ⟨hcatalogs.agreed (by simp [hsell]), not_differ_of_distinct (sells_pos _) hsell⟩
        | marked p =>
          rw [hlane] at hanswer
          cases hanswer
          obtain ⟨hsell, hstop⟩ := lane_past hlane (by simp) (by simp)
          obtain ⟨cost, hcost, -⟩ := marks_of_lane hlane
          obtain ⟨hquotes, -, hsells, hcats⟩ := hcatalogs.marked hsell hstop (marks_of_lane hlane)
          exact ⟨hquotes, hsells, not_differ_of_distinct (costs_pos _) hcost, hcats⟩
        | stop =>
          rw [hlane] at hanswer
          cases hanswer
        | next =>
          rw [hlane] at hanswer
          have hchi := hcatalogs.next hlane
          cases hlane' : lane (laneEngine db q) (chiRows db q) with
          | sell p =>
            rw [hlane'] at hanswer
            cases hanswer
            have hsell := lane_sell hlane'
            obtain ⟨hquotes, hsells⟩ := not_or.mp (hchi.agreed (by simp [hsell]))
            exact ⟨hquotes, hsells, not_differ_of_distinct (sells_pos _) hsell⟩
          | marked p =>
            rw [hlane'] at hanswer
            cases hanswer
            obtain ⟨hsell, hstop⟩ := lane_past hlane' (by simp) (by simp)
            obtain ⟨cost, hcost, -⟩ := marks_of_lane hlane'
            obtain ⟨hbefore, hcostsBefore, hsells, hcats⟩ := hchi.marked hsell hstop (marks_of_lane hlane')
            obtain ⟨hquotes, hsellsBefore⟩ := not_or.mp hbefore
            obtain ⟨hcosts, hcatsBefore⟩ := not_or.mp hcostsBefore
            exact ⟨hquotes, hsellsBefore, hsells, hcosts, hcatsBefore, not_differ_of_distinct (costs_pos _) hcost, hcats⟩
          | stop =>
            rw [hlane'] at hanswer
            cases hanswer
          | next =>
            rw [hlane'] at hanswer
            cases hanswer

theorem lane_of_sell {v : ℤ} (h : distinct (sells rows) = some v) : lane engine rows = .sell v := by
  rw [lane_eq, h]

/-- What an order that marks the catalog's cost up shows. -/
theorem catalog_marked_agrees (hfree : OrderFree db q) (hagree : SourcesAgree db q)
    (hquotes : distinct (quotes db q) = none) (hbench : inventoryPrice db q = none) (hneedle : q.needle ≠ [])
    (hsell : distinct (sells (catalogRows db q)) = none) (hstop : (catalogRows db q).any contradictory = false)
    (hmarks : Marks (laneEngine db q) (catalogRows db q)) :
    ¬ Differ (quotes db q) ∧ ¬ Differ (sells (catalogRows db q)) ∧ ¬ Differ (costs (catalogRows db q)) ∧
      ¬ Differ (categories (catalogRows db q)) := by
  obtain ⟨db', p, hdb', -, hlane⟩ := exists_marked (Q := fun _ => True) (fun _ h => (catalogRows_perm h q).symm) trivial
    (fun _ h => (exists_catalog_first h).imp fun _ h => ⟨h.1, trivial, h.2⟩) hsell hstop hmarks
  have hanswer : resolveSellPrice db' q = some (p, .catalogCost) := by
    rw [resolve_catalogs ((distinct_perm (quotes_perm hdb' q).symm).trans hquotes)
      ((inventoryPrice_reordered hdb' q).trans hbench) hneedle, hlane]
  rw [hfree db' hdb'] at hanswer
  exact hagree p .catalogCost hanswer

/-- What an order that marks CHI's cost up shows. -/
theorem chi_marked_agrees (hfree : OrderFree db q) (hagree : SourcesAgree db q)
    (hquotes : distinct (quotes db q) = none) (hbench : inventoryPrice db q = none) (hneedle : q.needle ≠ [])
    (hlane : lane (laneEngine db q) (catalogRows db q) = .next)
    (hsell : distinct (sells (chiRows db q)) = none) (hstop : (chiRows db q).any contradictory = false)
    (hmarks : Marks (laneEngine db q) (chiRows db q)) :
    ¬ Differ (quotes db q) ∧ ¬ Differ (sells (catalogRows db q)) ∧ ¬ Differ (sells (chiRows db q)) ∧
      ¬ Differ (costs (catalogRows db q)) ∧ ¬ Differ (categories (catalogRows db q)) ∧
      ¬ Differ (costs (chiRows db q)) ∧ ¬ Differ (categories (chiRows db q)) := by
  obtain ⟨db', p, hdb', hsame, hlane'⟩ := exists_marked
    (Q := fun db' => catalogRows db' q = catalogRows db q) (fun _ h => (chiRows_perm h q).symm) rfl
    (fun _ h => exists_chi_first h) hsell hstop hmarks
  have hanswer : resolveSellPrice db' q = some (p, .chiCost) := by
    rw [resolve_catalogs ((distinct_perm (quotes_perm hdb' q).symm).trans hquotes)
      ((inventoryPrice_reordered hdb' q).trans hbench) hneedle, hsame, hlane', laneEngine_reordered hdb', hlane]
  rw [hfree db' hdb'] at hanswer
  exact hagree p .chiCost hanswer

theorem settles_of_agree (hagree : SourcesAgree db q) (hfree : OrderFree db q) : Settles db q where
  bench hquotes hbench := by
    obtain ⟨p, hp⟩ := Option.ne_none_iff_exists'.mp hbench
    refine hagree p .inventory ?_
    unfold resolveSellPrice
    rw [hquotes, hp]
  catalogs hquotes hbench hneedle := by
    refine ⟨fun hsell => ?_, fun hsell hstop hmarks => ?_, fun hsell hstop hmarks => ⟨fun hsell' => ?_,
      fun hsell' hstop' hmarks' => ?_, fun _ _ _ => trivial⟩⟩
    · obtain ⟨v, hv⟩ := Option.ne_none_iff_exists'.mp hsell
      have hanswer := resolve_catalogs hquotes hbench hneedle
      rw [lane_of_sell hv] at hanswer
      exact (hagree v .catalog hanswer).1
    · obtain ⟨hq, hsells, -, hcats⟩ := catalog_marked_agrees hfree hagree hquotes hbench hneedle hsell hstop hmarks
      exact ⟨hq, not_false, hsells, hcats⟩
    · obtain ⟨v, hv⟩ := Option.ne_none_iff_exists'.mp hsell'
      have hanswer := resolve_catalogs hquotes hbench hneedle
      rw [lane_silent hsell hstop hmarks, lane_of_sell hv] at hanswer
      obtain ⟨hq, hsells, -⟩ := hagree v .chi hanswer
      exact not_or.mpr ⟨hq, hsells⟩
    · obtain ⟨hq, hsells, hsells', hcosts, hcats, -, hcats'⟩ := chi_marked_agrees hfree hagree hquotes hbench hneedle
        (lane_silent hsell hstop hmarks) hsell' hstop' hmarks'
      exact ⟨not_or.mpr ⟨hq, hsells⟩, not_or.mpr ⟨hcosts, hcats⟩, hsells', hcats'⟩

/-- A SKU of one row is always priced as the row is. -/
theorem singleRow (db : Tables) (q : Ask) : SingleRow db q := by
  intro row
  obtain ⟨hsell, hmarked, hstop, hnext⟩ := lane_single db q row
  constructor
  · intro hneedle hquotes hbench hrows
    rw [resolve_catalogs hquotes hbench hneedle]
    rcases hrows with ⟨hcatalog, hchi⟩ | ⟨hcatalog, hchi⟩
    · rw [hcatalog, hchi]
      cases hlane : lane (laneEngine db q) [row] with
      | sell p => exact (hsell p hlane).symm
      | marked p => exact (hmarked p hlane).symm
      | stop => exact (hstop hlane).symm
      | next => exact (hnext hlane).symm
    · have hempty : lane (laneEngine db q) [] = .next := rfl
      rw [hcatalog, hchi, hempty]
      cases hlane : lane (laneEngine db q) [row] with
      | sell p => exact (hsell p hlane).symm
      | marked p => exact (hmarked p hlane).symm
      | stop => exact (hstop hlane).symm
      | next => exact (hnext hlane).symm
  · intro price source hanswer hrows
    unfold resolveSellPrice at hanswer
    split at hanswer
    · cases hanswer
      rcases hrows with ⟨-, h | h⟩ | ⟨-, h | h⟩ <;> cases h
    split at hanswer
    · cases hanswer
      rcases hrows with ⟨-, h | h⟩ | ⟨-, h | h⟩ <;> cases h
    split_ifs at hanswer
    split at hanswer
    · rename_i hlane
      cases hanswer
      rcases hrows with ⟨hcatalog, -⟩ | ⟨-, h | h⟩
      · exact hsell _ (hcatalog ▸ hlane)
      all_goals cases h
    · cases hanswer
    · rename_i hlane
      cases hanswer
      rcases hrows with ⟨hcatalog, -⟩ | ⟨-, h | h⟩
      · exact hmarked _ (hcatalog ▸ hlane)
      all_goals cases h
    split at hanswer
    · rename_i hlane
      cases hanswer
      rcases hrows with ⟨-, h | h⟩ | ⟨hchi, -⟩
      · cases h
      · cases h
      · exact hsell _ (hchi ▸ hlane)
    · rename_i hlane
      cases hanswer
      rcases hrows with ⟨-, h | h⟩ | ⟨hchi, -⟩
      · cases h
      · cases h
      · exact hmarked _ (hchi ▸ hlane)
    · cases hanswer
    · cases hanswer

/-- A part is priced only where the sources agree, in whatever order they are read, exactly where no lane can answer past a
    dispute. -/
theorem priced_where_agreed_iff (db : Tables) (q : Ask) :
    SourcesAgree db q ∧ OrderFree db q ∧ SingleRow db q ↔ Settles db q :=
  ⟨fun ⟨hagree, hfree, _⟩ => settles_of_agree hagree hfree,
    fun h => ⟨sourcesAgree_of_settles h, orderFree_of_settles h, singleRow db q⟩⟩

/-- Two rows of the catalog at different sell prices and one cost: the cost is marked up. -/
def twoPrices : Tables where
  requests := []
  inventory _ := none
  catalog := [⟨⟨some 12000, some 5000, none⟩, some "spr".toList, true, false⟩,
    ⟨⟨some 11000, some 5000, none⟩, some "spr".toList, true, false⟩]
  chi := []
  jobCustomer _ := none
  customers _ := none
  settings := some ⟨[(("parts".toList, .retail), [⟨0, none, 1 / 2⟩])], false, [], []⟩
  skuKey := id

theorem disputed_price_marked_up :
    ¬ ∀ (db : Tables) (q : Ask), SourcesAgree db q ∧ OrderFree db q ∧ SingleRow db q := by
  intro h
  have hanswer : resolveSellPrice twoPrices ⟨none, "spr".toList, none, none⟩ = some (10000, .catalogCost) := by
    decide +kernel
  have hagree := (h twoPrices ⟨none, "spr".toList, none, none⟩).1 _ _ hanswer
  exact hagree.2.1 ⟨12000, by decide +kernel, 11000, by decide +kernel, by decide⟩

end Gdx.PartPricing
