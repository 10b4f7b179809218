import Mathlib.Data.Nat.Notation
import Mathlib.Logic.Relation

/-!
# Forests

A forest is given by a relation `child` in which every node has at most one parent and the
rank of a child is smaller than that of its parent. The nodes below a node, itself included,
are those related to it by `Relation.ReflTransGen child`.

What is below one child of a node is not below another (`disjoint_of_children`).
-/

namespace Forest

open Relation

variable {N : Type*} {child : N → N → Prop}

theorem rank_le (rank : N → ℕ) (hrank : ∀ p x, child p x → rank x < rank p) {p x : N}
    (h : ReflTransGen child p x) : rank x ≤ rank p := by
  induction h with
  | refl => exact Nat.le_refl _
  | tail _ hchild ih => exact Nat.le_trans (Nat.le_of_lt (hrank _ _ hchild)) ih

/-- Of two nodes with a common node below them, one is below the other. -/
theorem comparable (hunique : ∀ p q x, child p x → child q x → p = q) {p q x : N}
    (hp : ReflTransGen child p x) (hq : ReflTransGen child q x) :
    ReflTransGen child p q ∨ ReflTransGen child q p := by
  induction hp with
  | refl => exact .inr hq
  | @tail y x hpy hyx ih =>
      rcases ReflTransGen.cases_tail hq with rfl | ⟨z, hqz, hzx⟩
      · exact .inl (hpy.tail hyx)
      · obtain rfl := hunique z y x hzx hyx
        exact ih hqz

/-- What is below a child is not below another child of the same node. -/
theorem disjoint_of_children (rank : N → ℕ) (hunique : ∀ p q x, child p x → child q x → p = q)
    (hrank : ∀ p x, child p x → rank x < rank p) {p c d x : N} (hc : child p c) (hd : child p d)
    (hne : c ≠ d) (hx : ReflTransGen child c x) : ¬ ReflTransGen child d x := by
  -- a child that is below its sibling is below a node that is below itself
  have hnot : ∀ {c d : N}, child p c → child p d → c ≠ d → ¬ ReflTransGen child c d := by
    intro c d hc hd hne h
    rcases ReflTransGen.cases_tail h with rfl | ⟨z, hcz, hzd⟩
    · exact hne rfl
    · obtain rfl := hunique z p d hzd hd
      exact Nat.not_lt.2 (rank_le rank hrank hcz) (hrank _ _ hc)
  intro hx'
  rcases comparable hunique hx hx' with h | h
  · exact hnot hc hd hne h
  · exact hnot hd hc hne.symm h

end Forest
