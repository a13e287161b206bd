/-
# `Zallet.Data.Ancestry` — elements that name their parents

Each element names one parent at most, so its ancestors form one line
(`Ancestor.linear`), and where each is one higher than its parent no two of
them are equally high.  A branch is a set that has the parents of its elements.
Of the ancestors of an element there is a newest one on a branch, or none is;
the others on the branch are the ancestors of that one, which are those that are
no higher (`Newest.mem_iff_le`).
-/
import Mathlib.Logic.Relation
import Mathlib.Tactic.Common

namespace Ancestry

variable {α : Type} {prev : α → Option α} {height : α → ℕ} {S : α → Prop} {a b c : α}

/-- An element is among its own ancestors. -/
def Ancestor (prev : α → Option α) (a b : α) : Prop :=
  Relation.ReflTransGen (fun child parent => prev child = some parent) b a

namespace Ancestor

theorem refl (a : α) : Ancestor prev a a := Relation.ReflTransGen.refl

theorem trans (h : Ancestor prev a b) (h' : Ancestor prev b c) : Ancestor prev a c :=
  Relation.ReflTransGen.trans h' h

theorem linear (ha : Ancestor prev a c) (hb : Ancestor prev b c) :
    Ancestor prev a b ∨ Ancestor prev b a := by
  refine Or.symm (Relation.ReflTransGen.total_of_right_unique ?_ ha hb)
  intro child parent parent' h h'
  exact Option.some.inj (h.symm.trans h')

end Ancestor

/-- Each element is one higher than its parent. -/
def Ranked (prev : α → Option α) (height : α → ℕ) : Prop :=
  ∀ ⦃child parent⦄, prev child = some parent → height child = height parent + 1

namespace Ancestor

theorem height_le (hrank : Ranked prev height) (h : Ancestor prev a b) : height a ≤ height b := by
  induction h with
  | refl => exact Nat.le_refl _
  | tail _ hstep ih =>
      have hparent := hrank hstep
      omega

theorem eq_of_height (hrank : Ranked prev height) (h : Ancestor prev a b)
    (heq : height b ≤ height a) : a = b := by
  induction h with
  | refl => rfl
  | @tail child parent hchild hstep _ =>
      have hparent := hrank hstep
      have hle : height child ≤ height b := height_le hrank hchild
      omega

end Ancestor

/-- A branch has the parents of its elements. -/
def Branch (prev : α → Option α) (S : α → Prop) : Prop :=
  ∀ ⦃child parent⦄, prev child = some parent → S child → S parent

theorem Branch.ancestor (hS : Branch prev S) (h : Ancestor prev a b) (hb : S b) : S a := by
  induction h with
  | refl => exact hb
  | tail _ hstep ih => exact hS hstep ih

/-- The newest ancestor of an element on a branch. -/
structure Newest (prev : α → Option α) (S : α → Prop) (b a : α) : Prop where
  ancestor : Ancestor prev a b
  mem : S a
  newest : ∀ c, Ancestor prev c b → S c → Ancestor prev c a

namespace Newest

/-- The ancestors on the branch are those that are no higher than the newest. -/
theorem mem_iff_le (h : Newest prev S b a) (hS : Branch prev S) (hrank : Ranked prev height)
    (hc : Ancestor prev c b) : S c ↔ height c ≤ height a := by
  constructor
  · intro hmem
    exact (h.newest c hc hmem).height_le hrank
  · intro hle
    rcases hc.linear h.ancestor with hca | hac
    · exact hS.ancestor hca h.mem
    · exact hac.eq_of_height hrank hle ▸ h.mem

end Newest

end Ancestry
