/-
# `Zallet.Data.Reorder` — folds over lists in another order

A step that commutes with itself for elements of different keys gives the same
over two orders of one list, if the elements of each key are in the same order
in both (`foldl_of_sameOrder`).  A list of at most one element has one order
(`eq_of_perm_of_single`).
-/
import Mathlib.Data.List.Perm.Basic

namespace Reorder

variable {α κ σ : Type} {f : σ → α → σ} {xs ys l r : List α} {x : α}

/-- An element can be moved over others of other keys. -/
theorem foldl_move (key : α → κ)
    (hcomm : ∀ a b s, key a ≠ key b → f (f s a) b = f (f s b) a) (h : ∀ a ∈ l, key a ≠ key x)
    (s : σ) : (l ++ x :: r).foldl f s = (x :: (l ++ r)).foldl f s := by
  induction l generalizing s with
  | nil => rfl
  | cons a l ih =>
      obtain ⟨ha, hl⟩ := List.forall_mem_cons.mp h
      rw [List.cons_append, List.foldl_cons, ih hl, List.foldl_cons, hcomm a x s ha]
      rfl

theorem foldl_of_sameOrder [DecidableEq κ] (key : α → κ)
    (hcomm : ∀ a b s, key a ≠ key b → f (f s a) b = f (f s b) a) (hperm : xs.Perm ys)
    (hkeys : ∀ k, xs.filter (key · = k) = ys.filter (key · = k)) (s : σ) :
    xs.foldl f s = ys.foldl f s := by
  induction xs generalizing ys s with
  | nil => rw [List.nil_perm.mp hperm]
  | cons x xs ih =>
      have hfirst := hkeys (key x)
      rw [List.filter_cons, if_pos (decide_eq_true rfl)] at hfirst
      obtain ⟨l, r, rfl, hl, -, hrest⟩ := List.filter_eq_cons_iff.mp hfirst.symm
      have hl : ∀ a ∈ l, key a ≠ key x := by
        intro a ha hkey
        exact hl a ha (decide_eq_true hkey)
      rw [foldl_move key hcomm hl, List.foldl_cons, List.foldl_cons]
      refine ih (List.Perm.cons_inv (hperm.trans List.perm_middle)) ?_ (f s x)
      intro k
      have hk := hkeys k
      rw [List.filter_append] at hk ⊢
      by_cases hx : key x = k
      · have hnone : l.filter (key · = k) = [] := by
          refine List.filter_eq_nil_iff.mpr ?_
          intro a ha hkey
          exact hl a ha ((of_decide_eq_true hkey).trans hx.symm)
        have hpos : decide (key x = k) = true := decide_eq_true hx
        rw [hnone, List.nil_append, List.filter_cons, List.filter_cons, if_pos hpos,
          if_pos hpos] at hk
        rw [hnone, List.nil_append]
        exact (List.cons.inj hk).2
      · have hneg : ¬ decide (key x = k) = true := by simpa using hx
        rwa [List.filter_cons, List.filter_cons, if_neg hneg, if_neg hneg] at hk

theorem eq_of_perm_of_single (h : xs.Perm ys) (hsingle : xs.Pairwise fun _ _ => False) :
    xs = ys := by
  cases xs with
  | nil => exact (List.nil_perm.mp h).symm
  | cons x xs =>
      cases xs with
      | nil => exact List.singleton_perm.mp h
      | cons y xs => exact ((List.pairwise_cons.mp hsingle).1 y List.mem_cons_self).elim

end Reorder
