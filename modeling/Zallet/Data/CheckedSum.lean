/-
# `Zallet.Data.CheckedSum` — sums that are checked against a bound

Amounts stand for the numbers up to a bound, and their addition has no result
beyond it (`Checked`).  A sum is taken one addition after the other.  No partial
sum exceeds the whole, so there is a result just when the whole is within the
bound, and it is the whole (`sum_eq_some`, `exists_sum`).
-/
import Mathlib.Algebra.GroupWithZero.Nat
import Mathlib.Tactic.Common

namespace CheckedSum

/-- Amounts up to `bound`, by the number that each stands for, and their addition. -/
structure Checked {ζ : Type} (value : ζ → ℕ) (bound : ℕ) (add : ζ → ζ → Option ζ) : Prop where
  injective : Function.Injective value
  range : ∀ n, (∃ z, value z = n) ↔ n ≤ bound
  add : ∀ a b c, add a b = some c ↔ value c = value a + value b

variable {ζ : Type} {value : ζ → ℕ} {bound : ℕ} {add : ζ → ζ → Option ζ} {xs : List ζ}
  {s z : ζ}

theorem Checked.add_eq_none (h : Checked value bound add) {a b : ζ} (hnone : add a b = none) :
    bound < value a + value b := by
  by_contra hle
  obtain ⟨c, hc⟩ := (h.range (value a + value b)).mpr (Nat.le_of_not_lt hle)
  rw [(h.add a b c).mpr hc] at hnone
  cases hnone

/-- A sum that has a result has the whole. -/
theorem Checked.sum_eq_some (h : Checked value bound add) :
    xs.foldlM add s = some z ↔ value z = value s + (xs.map value).sum := by
  induction xs generalizing s with
  | nil =>
      rw [List.foldlM_nil, List.map_nil, List.sum_nil, Nat.add_zero]
      constructor
      · intro heq
        rw [Option.some.inj heq]
      · intro heq
        exact congrArg some (h.injective heq).symm
  | cons x xs ih =>
      rw [List.foldlM_cons, List.map_cons, List.sum_cons]
      cases hadd : add s x with
      | none =>
          have hover := h.add_eq_none hadd
          refine iff_of_false (by rintro ⟨⟩) ?_
          intro heq
          have hle : value z ≤ bound := (h.range (value z)).mp ⟨z, rfl⟩
          omega
      | some t =>
          have ht := (h.add s x t).mp hadd
          show List.foldlM add t xs = some z ↔ _
          rw [ih, ht, Nat.add_assoc]

/-- There is a result just when the whole is within the bound. -/
theorem Checked.exists_sum (h : Checked value bound add) :
    (∃ z, xs.foldlM add s = some z) ↔ value s + (xs.map value).sum ≤ bound := by
  simp only [h.sum_eq_some]
  exact h.range _

/-- A sum that goes on with no result after its first overflow. -/
theorem foldl_bind (add : ζ → ζ → Option ζ) (xs : List ζ) (s : Option ζ) :
    xs.foldl (fun total x => total.bind fun t => add t x) s = s.bind fun t => xs.foldlM add t := by
  induction xs generalizing s with
  | nil => cases s <;> rfl
  | cons x xs ih =>
      rw [List.foldl_cons, ih]
      cases s <;> rfl

/-- A sum that is given up with an error at its first overflow. -/
theorem foldlM_elim {ε α : Type} (add : ζ → ζ → Option ζ) (e : ε) (f : α → ζ) (xs : List α)
    (s : ζ) :
    xs.foldlM (fun total x => (add total (f x)).elim (.error e) .ok) s =
      (((xs.map f).foldlM add s).elim (.error e) .ok : Except ε ζ) := by
  induction xs generalizing s with
  | nil => rfl
  | cons x xs ih =>
      rw [List.foldlM_cons, List.map_cons, List.foldlM_cons]
      cases add s (f x) with
      | none => rfl
      | some t => exact ih t

end CheckedSum
