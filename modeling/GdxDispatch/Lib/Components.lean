import Mathlib.Data.List.Nodup
import Mathlib.Logic.Relation
import Mathlib.Tactic.Linarith

/-! Connected components of a two-sided graph, found with a stack.

    Nodes on one side are joined through the things they share on the other. The walk takes a node off the stack, notes the
    things it has not met yet and puts the nodes that share them on the stack. When the stack is empty, what was walked is
    the component of the node it started from. -/

namespace Lib

variable {α β : Type} [DecidableEq α] [DecidableEq β]

/-- Nodes, the things each one has, and the nodes that have a thing. -/
structure Bipartite (α β : Type) where
  nodes : List α
  edges : α → List β
  peers : β → List α
  edges_outside : ∀ a, a ∉ nodes → edges a = []
  mem_peers : ∀ a b, a ∈ peers b ↔ b ∈ edges a

/-- What was seen in all walks, and the nodes and the things of this one. -/
structure Walk (α β : Type) where
  seen : List α
  comp : List α
  things : List β

namespace Bipartite
variable (G : Bipartite α β)

/-- The things of a node that were not met yet, and the nodes that share them on the stack. -/
def visit (seen : List α) (bs : List β) (met : List β × List α) : List β × List α :=
  bs.foldl (fun met b =>
    if b ∈ met.1 then met else (met.1 ++ [b], ((G.peers b).filter (· ∉ seen)).reverse ++ met.2)) met

omit [DecidableEq β] in
theorem unseen_lt {node : α} {seen : List α} (hnode : node ∈ G.nodes) (hnot : node ∉ seen) :
    (G.nodes.filter (· ∉ node :: seen)).length < (G.nodes.filter (· ∉ seen)).length := by
  have hsub : (G.nodes.filter (· ∉ node :: seen)).Sublist (G.nodes.filter (· ∉ seen)) := by
    refine List.monotone_filter_right _ fun a ha => ?_
    simp only [List.mem_cons, not_or, decide_eq_true_eq] at ha ⊢
    exact ha.2
  refine lt_of_le_of_ne hsub.length_le fun heq => ?_
  have hmem : node ∈ G.nodes.filter (· ∉ seen) := List.mem_filter.mpr ⟨hnode, by simpa using hnot⟩
  rw [← hsub.eq_of_length heq] at hmem
  simp at hmem

omit [DecidableEq β] in
theorem unseen_eq {node : α} {seen : List α} (hnode : node ∉ G.nodes) :
    G.nodes.filter (· ∉ node :: seen) = G.nodes.filter (· ∉ seen) := by
  refine List.filter_congr fun a ha => ?_
  have hne : a ≠ node := fun h => hnode (h ▸ ha)
  simp [hne]

/-- The walk, with its stack. -/
def walk (stack : List α) (w : Walk α β) : Walk α β :=
  match stack with
  | [] => w
  | node :: stack =>
    if node ∈ w.seen then walk stack w
    else
      let met := G.visit (node :: w.seen) (G.edges node) (w.things, stack)
      walk met.2 ⟨node :: w.seen, w.comp ++ [node], met.1⟩
termination_by ((G.nodes.filter (· ∉ w.seen)).length, stack.length)
decreasing_by
  · exact Prod.Lex.right _ (Nat.lt_succ_self _)
  · rename_i hnot
    by_cases hnode : node ∈ G.nodes
    · exact Prod.Lex.left _ _ (G.unseen_lt hnode hnot)
    · simp only [G.unseen_eq hnode, visit, G.edges_outside node hnode, List.foldl_nil]
      exact Prod.Lex.right _ (Nat.lt_succ_self _)

/-! ### What the walk finds -/

/-- Two nodes share a thing. -/
def Linked (a a' : α) : Prop := ∃ b, b ∈ G.edges a ∧ b ∈ G.edges a'

/-- Two nodes are joined by shared things. -/
def Connected : α → α → Prop := Relation.ReflTransGen G.Linked

omit [DecidableEq α] [DecidableEq β] in
theorem Linked.symm {G : Bipartite α β} {a a' : α} (h : G.Linked a a') : G.Linked a' a := by
  obtain ⟨b, hb, hb'⟩ := h
  exact ⟨b, hb', hb⟩

omit [DecidableEq α] [DecidableEq β] in
theorem Connected.symm {G : Bipartite α β} {a a' : α} (h : G.Connected a a') : G.Connected a' a := by
  induction h with
  | refl => exact Relation.ReflTransGen.refl
  | tail _ hlink ih => exact Relation.ReflTransGen.head hlink.symm ih

/-- Visiting meets the node's things and puts their nodes on the stack. -/
theorem visit_spec (seen : List α) (bs : List β) (met : List β × List α) (hmet : met.1.Nodup) :
    (G.visit seen bs met).1.Nodup ∧ (∀ b, b ∈ (G.visit seen bs met).1 ↔ b ∈ met.1 ∨ b ∈ bs) ∧
      (∀ a ∈ met.2, a ∈ (G.visit seen bs met).2) ∧
      (∀ a ∈ (G.visit seen bs met).2, a ∈ met.2 ∨ ∃ b ∈ bs, b ∈ G.edges a) ∧
      ∀ b ∈ bs, b ∉ met.1 → ∀ a, b ∈ G.edges a → a ∈ seen ∨ a ∈ (G.visit seen bs met).2 := by
  induction bs generalizing met with
  | nil => exact ⟨hmet, by simp [visit], fun a ha => ha, fun a ha => .inl ha, by simp⟩
  | cons b bs ih =>
    have hstep : G.visit seen (b :: bs) met = G.visit seen bs
        (if b ∈ met.1 then met else (met.1 ++ [b], ((G.peers b).filter (· ∉ seen)).reverse ++ met.2)) := rfl
    rw [hstep]
    by_cases hb : b ∈ met.1
    · rw [if_pos hb]
      obtain ⟨hnodup, hthings, hkept, hstack, hclosed⟩ := ih met hmet
      refine ⟨hnodup, fun b' => ?_, hkept, fun a ha => ?_, fun b' hb' hnot => ?_⟩
      · rw [hthings, List.mem_cons]
        constructor
        · rintro (h | h)
          · exact .inl h
          · exact .inr (.inr h)
        · rintro (h | rfl | h)
          · exact .inl h
          · exact .inl hb
          · exact .inr h
      · exact (hstack a ha).imp_right fun ⟨b', hb', h⟩ => ⟨b', List.mem_cons_of_mem _ hb', h⟩
      · rcases List.mem_cons.mp hb' with rfl | hb'
        · exact absurd hb hnot
        · exact hclosed b' hb' hnot
    · rw [if_neg hb]
      have hmet' : (met.1 ++ [b]).Nodup := by
        refine List.nodup_append.mpr ⟨hmet, List.nodup_singleton b, fun x hx y hy => ?_⟩
        rw [List.mem_singleton] at hy
        exact fun heq => hb (hy ▸ heq ▸ hx)
      obtain ⟨hnodup, hthings, hkept, hstack, hclosed⟩ := ih (met.1 ++ [b], _) hmet'
      refine ⟨hnodup, fun b' => ?_, fun a ha => hkept a (List.mem_append_right _ ha), fun a ha => ?_,
        fun b' hb' hnot a hedge => ?_⟩
      · rw [hthings, List.mem_append, List.mem_singleton, List.mem_cons, or_assoc]
      · rcases hstack a ha with h | ⟨b', hb', h⟩
        · rcases List.mem_append.mp h with h | h
          · rw [List.mem_reverse, List.mem_filter, G.mem_peers] at h
            exact .inr ⟨b, List.mem_cons_self, h.1⟩
          · exact .inl h
        · exact .inr ⟨b', List.mem_cons_of_mem _ hb', h⟩
      · by_cases heq : b' = b
        · subst heq
          by_cases hseen : a ∈ seen
          · exact .inl hseen
          · refine .inr (hkept a (List.mem_append_left _ ?_))
            rw [List.mem_reverse, List.mem_filter, G.mem_peers]
            exact ⟨hedge, by simpa using hseen⟩
        · refine hclosed b' ((List.mem_cons.mp hb').resolve_left heq) ?_ a hedge
          rw [List.mem_append, List.mem_singleton]
          rintro (h | h)
          · exact hnot h
          · exact heq h

/-- A walk on its way from `root`: what it has walked is connected to it, and what shares a thing it met was seen or waits
    on the stack. -/
structure Walking (seen : List α) (root : α) (stack : List α) (w : Walk α β) : Prop where
  unseen : root ∉ seen
  comp_nodup : w.comp.Nodup
  seen_iff : ∀ a, a ∈ w.seen ↔ a ∈ seen ∨ a ∈ w.comp
  fresh : ∀ a ∈ w.comp, a ∉ seen
  walked : ∀ a ∈ w.comp, G.Connected root a
  waiting : ∀ a ∈ stack, G.Connected root a
  things_nodup : w.things.Nodup
  things_iff : ∀ b, b ∈ w.things ↔ ∃ a ∈ w.comp, b ∈ G.edges a
  closed : ∀ b ∈ w.things, ∀ a, b ∈ G.edges a → a ∈ w.seen ∨ a ∈ stack
  started : root ∈ w.comp ∨ root ∈ stack

/-- Visiting the node on top keeps the walk on its way. -/
theorem Walking.visited {G : Bipartite α β} {seen stack : List α} {root node : α} {w : Walk α β}
    (h : G.Walking seen root (node :: stack) w) (hnot : node ∉ w.seen) :
    G.Walking seen root (G.visit (node :: w.seen) (G.edges node) (w.things, stack)).2
      ⟨node :: w.seen, w.comp ++ [node], (G.visit (node :: w.seen) (G.edges node) (w.things, stack)).1⟩ := by
  obtain ⟨hnodup, hthings, hkept, hstack, hclosed⟩ :=
    G.visit_spec (node :: w.seen) (G.edges node) (w.things, stack) h.things_nodup
  have hnode := h.waiting node List.mem_cons_self
  have hcomp : node ∉ w.comp := fun hc => hnot ((h.seen_iff node).mpr (.inr hc))
  constructor
  · exact h.unseen
  · refine List.nodup_append.mpr ⟨h.comp_nodup, List.nodup_singleton node, fun x hx y hy heq => ?_⟩
    rw [List.mem_singleton] at hy
    exact hcomp (hy ▸ heq ▸ hx)
  · intro a
    simp only [List.mem_cons, h.seen_iff, List.mem_append, List.not_mem_nil, or_false]
    tauto
  · intro a ha
    rcases List.mem_append.mp ha with ha | ha
    · exact h.fresh a ha
    · rw [List.mem_singleton.mp ha]
      exact fun hs => hnot ((h.seen_iff node).mpr (.inl hs))
  · intro a ha
    rcases List.mem_append.mp ha with ha | ha
    · exact h.walked a ha
    · rwa [List.mem_singleton.mp ha]
  · intro a ha
    rcases hstack a ha with ha | ⟨b, hb, hedge⟩
    · exact h.waiting a (List.mem_cons_of_mem _ ha)
    · exact hnode.tail ⟨b, hb, hedge⟩
  · exact hnodup
  · intro b
    simp only [hthings, h.things_iff, List.mem_append, List.mem_singleton]
    constructor
    · rintro (⟨a, ha, hb⟩ | hb)
      · exact ⟨a, .inl ha, hb⟩
      · exact ⟨node, .inr rfl, hb⟩
    · rintro ⟨a, ha | rfl, hb⟩
      · exact .inl ⟨a, ha, hb⟩
      · exact .inr hb
  · intro b hb a hedge
    by_cases hmet : b ∈ w.things
    · rcases h.closed b hmet a hedge with hs | hs
      · exact .inl (List.mem_cons_of_mem _ hs)
      · rcases List.mem_cons.mp hs with rfl | hs
        · exact .inl List.mem_cons_self
        · exact .inr (hkept a hs)
    · exact hclosed b (((hthings b).mp hb).resolve_left hmet) hmet a hedge
  · rcases h.started with hs | hs
    · exact .inl (List.mem_append_left _ hs)
    · rcases List.mem_cons.mp hs with rfl | hs
      · exact .inl (List.mem_append_right _ List.mem_cons_self)
      · exact .inr (hkept root hs)

/-- A walk goes on until the stack is empty. -/
theorem Walking.done {G : Bipartite α β} {seen : List α} {root : α} (stack : List α) (w : Walk α β)
    (h : G.Walking seen root stack w) : G.Walking seen root [] (G.walk stack w) := by
  fun_induction walk G stack w with
  | case1 w => exact h
  | case2 w node stack hseen ih =>
    refine ih ⟨h.unseen, h.comp_nodup, h.seen_iff, h.fresh, h.walked, fun a ha => h.waiting a (List.mem_cons_of_mem _ ha),
      h.things_nodup, h.things_iff, fun b hb a hedge => ?_, ?_⟩
    · rcases h.closed b hb a hedge with hs | hs
      · exact .inl hs
      · rcases List.mem_cons.mp hs with rfl | hs
        · exact .inl hseen
        · exact .inr hs
    · rcases h.started with hs | hs
      · exact .inl hs
      · rcases List.mem_cons.mp hs with rfl | hs
        · exact .inl (((h.seen_iff root).mp hseen).resolve_left h.unseen)
        · exact .inr hs
  | case3 w node stack hnot met ih => exact ih (h.visited hnot)

/-- The component of a node: all nodes joined to it, and all things they have. -/
structure Component (root : α) (comp : List α) (things : List β) : Prop where
  comp_nodup : comp.Nodup
  comp_iff : ∀ a, a ∈ comp ↔ G.Connected root a
  things_nodup : things.Nodup
  things_iff : ∀ b, b ∈ things ↔ ∃ a ∈ comp, b ∈ G.edges a

omit [DecidableEq α] [DecidableEq β] in
theorem Component.root_mem {G : Bipartite α β} {root : α} {comp : List α} {things : List β}
    (h : G.Component root comp things) : root ∈ comp := (h.comp_iff root).mpr Relation.ReflTransGen.refl

omit [DecidableEq α] [DecidableEq β] in
/-- What is joined to a node is a node. -/
theorem Connected.mem_nodes {G : Bipartite α β} {a a' : α} (h : G.Connected a a') (ha : a ∈ G.nodes) : a' ∈ G.nodes := by
  rcases Relation.ReflTransGen.cases_tail h with heq | ⟨_, -, b, -, hb⟩
  · exact heq ▸ ha
  · by_contra hout
    rw [G.edges_outside a' hout] at hb
    cases hb

omit [DecidableEq α] [DecidableEq β] in
/-- A component is that of each of its nodes. -/
theorem Component.of_mem {G : Bipartite α β} {root a : α} {comp : List α} {things : List β}
    (h : G.Component root comp things) (ha : a ∈ comp) : G.Component a comp things := by
  have hconn := (h.comp_iff a).mp ha
  exact ⟨h.comp_nodup, fun a' => (h.comp_iff a').trans ⟨hconn.symm.trans, hconn.trans⟩, h.things_nodup, h.things_iff⟩

omit [DecidableEq α] [DecidableEq β] in
/-- The nodes of a component, in whatever order. -/
theorem Component.perm {G : Bipartite α β} {root : α} {comp comp' : List α} {things things' : List β}
    (h : G.Component root comp things) (h' : G.Component root comp' things') : comp.Perm comp' ∧ things.Perm things' := by
  have hmem : ∀ a, a ∈ comp ↔ a ∈ comp' := fun a => (h.comp_iff a).trans (h'.comp_iff a).symm
  refine ⟨(List.perm_ext_iff_of_nodup h.comp_nodup h'.comp_nodup).mpr hmem,
    (List.perm_ext_iff_of_nodup h.things_nodup h'.things_nodup).mpr fun b => ?_⟩
  rw [h.things_iff, h'.things_iff]
  simp only [hmem]

/-- What a walk from an unseen node finds, where no walked node shares a thing with an unwalked one: the component of the
    node. -/
structure Found (seen : List α) (root : α) (w : Walk α β) : Prop extends G.Component root w.comp w.things where
  seen_iff : ∀ a, a ∈ w.seen ↔ a ∈ seen ∨ a ∈ w.comp
  fresh : ∀ a ∈ w.comp, a ∉ seen

theorem walk_found {seen : List α} {root : α} (hroot : root ∉ seen)
    (hseen : ∀ a ∈ seen, ∀ a', G.Linked a a' → a' ∈ seen) : G.Found seen root (G.walk [root] ⟨seen, [], []⟩) := by
  have h : G.Walking seen root [] (G.walk [root] ⟨seen, [], []⟩) := by
    refine Walking.done [root] _ ⟨hroot, List.nodup_nil, by simp, by simp, by simp, fun a ha => ?_, List.nodup_nil, by simp,
      by simp, .inr List.mem_cons_self⟩
    rw [List.mem_singleton.mp ha]
    exact Relation.ReflTransGen.refl
  refine ⟨⟨h.comp_nodup, fun a => ⟨h.walked a, fun hconn => ?_⟩, h.things_nodup, h.things_iff⟩, h.seen_iff, h.fresh⟩
  induction hconn with
  | refl => exact h.started.resolve_right List.not_mem_nil
  | @tail a a' _ hlink ih =>
    obtain ⟨b, hb, hb'⟩ := hlink
    have hmet := (h.things_iff b).mpr ⟨a, ih, hb⟩
    have hwalked := (h.closed b hmet a' hb').resolve_right List.not_mem_nil
    refine ((h.seen_iff a').mp hwalked).resolve_left fun hs => h.fresh a ih ?_
    exact hseen a' hs a ⟨b, hb', hb⟩

end Bipartite

end Lib
