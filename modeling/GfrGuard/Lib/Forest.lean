import Mathlib.Data.List.Basic
import Mathlib.Data.List.Pairwise
import Mathlib.Logic.Relation

/-!
# Forests in depth-first order

A relation in which every node lists its children is a forest when no node is listed twice, has two
parents or is its own descendant (`IsForest`). `Listed children nodes order` says that `order` is
what a depth-first walk from the nodes meets, each node before what is below it. The listing of the
children of one node holds its proper descendants (`Listed.mem_iff`), each once (`Listed.nodup`),
and none after one of its own descendants (`Listed.ancestors_first`).
-/

namespace Forest

open Relation

variable {α : Type*} {children : α → List α} {nodes order : List α} {a b p x y : α}

/-- The node is a child of the other. -/
def Child (children : α → List α) (a b : α) : Prop := b ∈ children a

/-- The node is a proper descendant of the other. -/
abbrev Below (children : α → List α) : α → α → Prop := TransGen (Child children)

/-- The node is the other or a descendant of it. -/
abbrev Under (children : α → List α) : α → α → Prop := ReflTransGen (Child children)

/-- The children of the nodes make a forest. -/
structure IsForest (children : α → List α) : Prop where
  nodup : ∀ a, (children a).Nodup
  parent : ∀ a b c, c ∈ children a → c ∈ children b → a = b
  acyclic : ∀ a, ¬ Below children a a

/-- The nodes of a list with all that is below them, in depth-first order. -/
inductive Listed (children : α → List α) : List α → List α → Prop where
  | nil : Listed children [] []
  | cons {a : α} {nodes below rest : List α} (hbelow : Listed children (children a) below)
    (hrest : Listed children nodes rest) : Listed children (a :: nodes) (a :: (below ++ rest))

/-! ## Members -/

/-- A descendant is under one of the children. -/
theorem below_iff : Below children a x ↔ ∃ b ∈ children a, Under children b x := TransGen.head'_iff

/-- What is listed is what is under the nodes. -/
theorem Listed.mem_iff (h : Listed children nodes order) :
    x ∈ order ↔ ∃ a ∈ nodes, Under children a x := by
  induction h with
  | nil => simp
  | @cons a nodes below rest _ _ ihbelow ihrest =>
    have hunder : Under children a x ↔ x = a ∨ Below children a x := reflTransGen_iff_eq_or_transGen
    rw [List.mem_cons, List.mem_append, ihbelow, ihrest, ← or_assoc, ← below_iff, ← hunder]
    simp only [List.mem_cons, exists_eq_or_imp]

/-! ## Subtrees -/

/-- Two nodes above a third lie on one line. -/
theorem IsForest.line (h : IsForest children) (ha : Under children a x) (hb : Under children b x) :
    Under children a b ∨ Under children b a := by
  have hunique : Relator.RightUnique (Function.swap (Child children)) := fun c a b hac hbc => h.parent a b c hac hbc
  rcases ReflTransGen.total_of_right_unique hunique (reflTransGen_swap.2 ha) (reflTransGen_swap.2 hb)
    with hab | hba
  · exact .inr (reflTransGen_swap.1 hab)
  · exact .inl (reflTransGen_swap.1 hba)

/-- Of two children of one node none is below the other. -/
theorem IsForest.not_below_sibling (h : IsForest children) (ha : a ∈ children p) (hb : b ∈ children p) :
    ¬ Below children a b := fun hab => by
  obtain ⟨q, haq, hqb⟩ := TransGen.tail'_iff.1 hab
  have hq : q = p := h.parent q p b hqb hb
  subst hq
  exact h.acyclic a (TransGen.tail' haq ha)

/-- The subtrees of two children of one node have no node in common. -/
theorem IsForest.disjoint (h : IsForest children) (ha : a ∈ children p) (hb : b ∈ children p)
    (hne : a ≠ b) (hax : Under children a x) : ¬ Under children b x := fun hbx => by
  rcases h.line hax hbx with hab | hba
  · rcases reflTransGen_iff_eq_or_transGen.1 hab with heq | hbelow
    · exact hne heq.symm
    · exact h.not_below_sibling ha hb hbelow
  · rcases reflTransGen_iff_eq_or_transGen.1 hba with heq | hbelow
    · exact hne heq
    · exact h.not_below_sibling hb ha hbelow

/-! ## The order -/

/-- One child of a node with its subtree, and the subtrees of others: what holds of a list holds
where no node of the first part is below, or equal to, one of the second. -/
theorem Listed.pairwise (h : IsForest children) {R : α → α → Prop}
    (hbelow : ∀ a x, Below children a x → R a x)
    (hapart : ∀ p a b x y, a ∈ children p → b ∈ children p → a ≠ b → Under children a x →
      Under children b y → R x y)
    (hlist : Listed children nodes order) (hnodup : nodes.Nodup) (hnodes : ∀ a ∈ nodes, a ∈ children p) :
    order.Pairwise R := by
  induction hlist generalizing p with
  | nil => exact .nil
  | @cons a nodes below rest hb hr ihbelow ihrest =>
    obtain ⟨hout, hnodup⟩ := List.nodup_cons.1 hnodup
    have hap := hnodes a List.mem_cons_self
    have hin (y : α) (hy : y ∈ below) : Below children a y := below_iff.2 (hb.mem_iff.1 hy)
    have hrest (x y : α) (hx : Under children a x) (hy : y ∈ rest) : R x y := by
      obtain ⟨b, hbn, hby⟩ := hr.mem_iff.1 hy
      exact hapart p a b x y hap (hnodes b (List.mem_cons_of_mem a hbn))
        (fun heq => hout (heq ▸ hbn)) hx hby
    rw [List.pairwise_cons, List.pairwise_append]
    refine ⟨fun y hy => ?_, ihbelow (h.nodup a) (fun _ hc => hc),
      ihrest hnodup fun c hc => hnodes c (List.mem_cons_of_mem a hc), fun x hx y hy => ?_⟩
    · rcases List.mem_append.1 hy with hy | hy
      · exact hbelow a y (hin y hy)
      · exact hrest a y .refl hy
    · exact hrest x y (hin x hx).to_reflTransGen hy

/-- Nothing is listed twice. -/
theorem Listed.nodup (h : IsForest children) (hlist : Listed children (children p) order) :
    order.Nodup := by
  refine hlist.pairwise h (fun a x hax heq => ?_) (fun p a b x y ha hb hne hx hy heq => ?_) (h.nodup p)
    fun _ hc => hc
  · exact h.acyclic a (heq ▸ hax)
  · exact h.disjoint ha hb hne hx (heq ▸ hy)

/-- Nothing is listed before a node it is below. -/
theorem Listed.ancestors_first (h : IsForest children) (hlist : Listed children (children p) order) :
    order.Pairwise fun x y => ¬ Below children y x := by
  refine hlist.pairwise h (fun a x hax hxa => ?_) (fun p a b x y ha hb hne hx hy hyx => ?_) (h.nodup p)
    fun _ hc => hc
  · exact h.acyclic a (hax.trans hxa)
  · exact h.disjoint ha hb hne hx (hy.trans hyx.to_reflTransGen)

end Forest
